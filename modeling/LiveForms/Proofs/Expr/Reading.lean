import LiveForms.Proofs.Expr.Grammar

/-!
# Live forms: the reader and the grammar

The reader keeps what waits for an operand on a stack of frames. This module shows that
it accepts a row of tokens exactly when the grammar derives it, and with the same tree.

Towards the grammar, `Grammar.Awaits` says which tokens have been read when a stack of
frames waits for a nonterminal; every step of the reader keeps it, and the empty stack at
the end of the tokens leaves a derivation of all of them. Towards the reader,
`Grammar.ReadsTo` says what reading the tokens of a nonterminal does to the stack below
them, whatever tokens follow; it holds for every derivation.

Main statements:

* `Grammar.derives_of_operand`: an accepted row of tokens has a derivation.
* `Grammar.readsTo_of_derives`: the tokens of a derivation are read to its tree.
* `Grammar.operand_eq_ok_iff`: both, for the tokens of a whole text.
-/

namespace LiveForms
namespace Grammar

open Reader

section Steps

theorem isProduct_of_multiplies
    {op : BinaryOp}
    (hop : op.Multiplies) :
    isProduct op = true := by
  rcases hop with rfl | rfl <;> rfl

theorem isProduct_of_adds
    {op : BinaryOp}
    (hop : op.Adds) :
    isProduct op = false := by
  rcases hop with rfl | rfl <;> rfl

theorem operand_sign
    (stop : Option LexError)
    (stack : List Frame)
    (op : UnaryOp)
    (ts : List Token) :
    operand stop stack (op.token :: ts) = operand stop (.sign op :: stack) ts := by
  cases op <;> simp [operand, UnaryOp.token]

theorem operator_factor
    (stop : Option LexError)
    (done : List Frame × Expr)
    {op : BinaryOp}
    (hop : op.Multiplies)
    (ts : List Token) :
    operator stop done (op.token :: ts) =
      operand stop (.left done.2 op :: done.1) ts := by
  rcases hop with rfl | rfl <;> simp [operator, BinaryOp.token]

theorem operator_term
    (stop : Option LexError)
    (done : List Frame × Expr)
    {op : BinaryOp}
    (hop : op.Adds)
    (ts : List Token) :
    operator stop done (op.token :: ts) =
      operand stop (.left (join done.1 done.2).2 op :: (join done.1 done.2).1) ts := by
  rcases hop with rfl | rfl <;> simp [operator, BinaryOp.token]

/-- A name is read as an operand unless a parenthesis follows it. -/
theorem operand_name
    (stop : Option LexError)
    (stack : List Frame)
    (text : String)
    {ts : List Token}
    (hts : ts.head? ≠ some .leftParen) :
    operand stop stack (.name text :: ts) =
      operator stop (settle stack (.field text)) ts := by
  rw [operand]
  intro rest hrest
  simp [hrest] at hts

end Steps

section Soundness

/--
`Awaits n stack ts`: after the tokens `ts`, a stack waits for the nonterminal `n`.

Only a sum starts behind an open parenthesis or at the start; a product may also stand
behind the left operand of a sum, and a signed operand behind that of a product or
behind a sign.
-/
inductive Awaits : Nonterminal → List Frame → List Token → Prop
  | start : Awaits .sum [] []
  | group
      {stack : List Frame} {ts : List Token}
      (below : Awaits .signed stack ts) :
      Awaits .sum (.group :: stack) (ts ++ [.leftParen])
  | sum
      {stack : List Frame} {ts : List Token}
      (below : Awaits .sum stack ts) :
      Awaits .product stack ts
  | term
      {stack : List Frame} {ts us : List Token} {l : Expr} {op : BinaryOp}
      (hop : op.Adds)
      (below : Awaits .sum stack ts)
      (left : Derives .sum us l) :
      Awaits .product (.left l op :: stack) (ts ++ (us ++ [op.token]))
  | product
      {stack : List Frame} {ts : List Token}
      (below : Awaits .product stack ts) :
      Awaits .signed stack ts
  | factor
      {stack : List Frame} {ts us : List Token} {l : Expr} {op : BinaryOp}
      (hop : op.Multiplies)
      (below : Awaits .product stack ts)
      (left : Derives .product us l) :
      Awaits .signed (.left l op :: stack) (ts ++ (us ++ [op.token]))
  | sign
      {stack : List Frame} {ts : List Token}
      (op : UnaryOp)
      (below : Awaits .signed stack ts) :
      Awaits .signed (.sign op :: stack) (ts ++ [op.token])

/-- `Holds n done ts`: `ts` are tokens below `done`, then those of its operand. -/
def Holds (n : Nonterminal) (done : List Frame × Expr) (ts : List Token) : Prop :=
  ∃ below us : List Token,
    ts = below ++ us ∧ Awaits n done.1 below ∧ Derives n us done.2

/-- A stack that waits for a sum has no left operand of a sum on top. -/
theorem join_of_awaits_sum
    {stack : List Frame} {ts : List Token}
    (h : Awaits .sum stack ts)
    (e : Expr) :
    join stack e = (stack, e) := by
  cases h <;> rfl

/-- A stack that waits for a product has neither a sign nor a factor on top. -/
theorem settle_of_awaits_product
    {stack : List Frame} {ts : List Token}
    (h : Awaits .product stack ts)
    (e : Expr) :
    settle stack e = (stack, e) := by
  cases h with
  | sum below =>
      cases below <;> rfl
  | term hop below left =>
      simp [settle, isProduct_of_adds hop]

/-- Joining turns a finished product into a finished sum. -/
theorem holds_join
    {done : List Frame × Expr} {ts : List Token}
    (h : Holds .product done ts) :
    Holds .sum (join done.1 done.2) ts := by
  obtain ⟨stack, e⟩ := done
  obtain ⟨below, us, rfl, hstack, he⟩ := h
  cases hstack with
  | sum hsum =>
      rw [join_of_awaits_sum hsum]
      exact ⟨below, us, rfl, hsum, .product he⟩
  | @term stack ts vs l op hop hsum hl =>
      refine ⟨ts, vs ++ op.token :: us, by simp, hsum, ?_⟩
      exact .term hop hl he

/-- Settling turns a finished signed operand into a finished product. -/
theorem holds_settle
    {stack : List Frame} {e : Expr} {ts : List Token}
    (h : Holds .signed (stack, e) ts) :
    Holds .product (settle stack e) ts := by
  induction stack generalizing e ts with
  | nil =>
      obtain ⟨below, us, rfl, hstack, he⟩ := h
      cases hstack with
      | product hproduct =>
          exact ⟨below, us, rfl, hproduct, .signed he⟩
  | cons frame stack ih =>
      obtain ⟨below, us, rfl, hstack, he⟩ := h
      cases hstack with
      | product hproduct =>
          rw [settle_of_awaits_product hproduct]
          exact ⟨below, us, rfl, hproduct, .signed he⟩
      | @factor _ ts vs l op hop hproduct hl =>
          have hsettle :
              settle (.left l op :: stack) e = (stack, .binary l op e) := by
            simp [settle, isProduct_of_multiplies hop,
              settle_of_awaits_product hproduct]
          rw [hsettle]
          refine ⟨ts, vs ++ op.token :: us, by simp, hproduct, ?_⟩
          exact .factor hop hl he
      | @sign _ ts op hsigned =>
          apply ih
          exact ⟨ts, op.token :: us, by simp, hsigned, .sign op he⟩

/-- A primary at a place that waits for a signed operand is settled to a product. -/
theorem holds_settle_primary
    {stack : List Frame} {e : Expr} {ts us : List Token}
    (hstack : Awaits .signed stack ts)
    (he : Derives .primary us e) :
    Holds .product (settle stack e) (ts ++ us) :=
  holds_settle ⟨ts, us, rfl, hstack, .primary he⟩

/-- The operator of a product waits for its right operand. -/
theorem awaits_factor
    {done : List Frame × Expr} {ts : List Token} {op : BinaryOp}
    (hop : op.Multiplies)
    (h : Holds .product done ts) :
    Awaits .signed (.left done.2 op :: done.1) (ts ++ [op.token]) := by
  obtain ⟨below, us, rfl, hstack, he⟩ := h
  rw [List.append_assoc]
  exact .factor hop hstack he

/-- The operator of a sum waits for its right operand. -/
theorem awaits_term
    {done : List Frame × Expr} {ts : List Token} {op : BinaryOp}
    (hop : op.Adds)
    (h : Holds .product done ts) :
    Awaits .signed (.left (join done.1 done.2).2 op :: (join done.1 done.2).1)
      (ts ++ [op.token]) := by
  obtain ⟨below, us, rfl, hstack, he⟩ := holds_join h
  rw [List.append_assoc]
  exact .product (.term hop hstack he)

/-- What an accepting reader of an operand, and one of an operator, have derived. -/
def AcceptsOnly (stop : Option LexError) (ts : List Token) (e : Expr) : Prop :=
  (∀ (stack : List Frame) (before : List Token),
      Awaits .signed stack before →
      operand stop stack ts = .ok e →
      stop = none ∧ Derives .sum (before ++ ts) e) ∧
  (∀ (done : List Frame × Expr) (before : List Token),
      Holds .product done before →
      operator stop done ts = .ok e →
      stop = none ∧ Derives .sum (before ++ ts) e)

/-- The reader accepts nothing but derivations. -/
theorem acceptsOnly
    (stop : Option LexError)
    (ts : List Token)
    (e : Expr) :
    AcceptsOnly stop ts e := by
  induction ts with
  | nil =>
      constructor
      · intro stack before _ h
        cases stop <;> simp [operand] at h
      · intro done before hdone h
        cases stop with
        | some err =>
            simp [operator] at h
        | none =>
            obtain ⟨below, us, rfl, hstack, he⟩ := holds_join hdone
            simp only [operator] at h
            split at h
            · rename_i e' hjoin
              simp only [hjoin] at hstack he
              cases hstack
              cases h
              simpa using he
            · simp at h
  | cons t ts ih =>
      obtain ⟨ihOperand, ihOperator⟩ := ih
      -- a sign in front, and an operator between: the reader goes on with an operand
      have hsign :
          ∀ (op : UnaryOp) (stack : List Frame) (before : List Token),
            Awaits .signed stack before →
            operand stop stack (op.token :: ts) = .ok e →
            stop = none ∧ Derives .sum (before ++ op.token :: ts) e := by
        intro op stack before hstack h
        rw [operand_sign] at h
        simpa using ihOperand _ _ (.sign op hstack) h
      have hfactor :
          ∀ (op : BinaryOp) (done : List Frame × Expr) (before : List Token),
            op.Multiplies →
            Holds .product done before →
            operator stop done (op.token :: ts) = .ok e →
            stop = none ∧ Derives .sum (before ++ op.token :: ts) e := by
        intro op done before hop hdone h
        rw [operator_factor stop done hop] at h
        simpa using ihOperand _ _ (awaits_factor hop hdone) h
      have hterm :
          ∀ (op : BinaryOp) (done : List Frame × Expr) (before : List Token),
            op.Adds →
            Holds .product done before →
            operator stop done (op.token :: ts) = .ok e →
            stop = none ∧ Derives .sum (before ++ op.token :: ts) e := by
        intro op done before hop hdone h
        rw [operator_term stop done hop] at h
        simpa using ihOperand _ _ (awaits_term hop hdone) h
      constructor
      · intro stack before hstack h
        cases t with
        | number value =>
            rw [operand] at h
            simpa using ihOperator _ _ (holds_settle_primary hstack (.number value)) h
        | name text =>
            by_cases hts : ts.head? = some .leftParen
            · obtain ⟨us, rfl⟩ := List.head?_eq_some_iff.mp hts
              simp [operand] at h
            · rw [operand_name stop stack text hts] at h
              simpa using ihOperator _ _ (holds_settle_primary hstack (.name text)) h
        | plus => exact hsign .plus stack before hstack h
        | minus => exact hsign .minus stack before hstack h
        | leftParen =>
            rw [operand] at h
            simpa using ihOperand _ _ (.product (.sum (.group hstack))) h
        | times => simp [operand] at h
        | divide => simp [operand] at h
        | rightParen => simp [operand] at h
      · intro done before hdone h
        cases t with
        | times => exact hfactor .multiply done before (.inl rfl) hdone h
        | divide => exact hfactor .divide done before (.inr rfl) hdone h
        | plus => exact hterm .add done before (.inl rfl) hdone h
        | minus => exact hterm .subtract done before (.inr rfl) hdone h
        | rightParen =>
            obtain ⟨below, us, rfl, hstack, he⟩ := holds_join hdone
            simp only [operator] at h
            split at h
            · rename_i stack e' hjoin
              simp only [hjoin] at hstack he
              cases hstack with
              | group hbelow =>
                  simpa using
                    ihOperator _ _ (holds_settle_primary hbelow (.group he)) h
            · simp at h
        | number value => simp [operator] at h
        | name text => simp [operator] at h
        | leftParen => simp [operator] at h

/-- An accepted row of tokens has a derivation, and no lexical error behind it. -/
theorem derives_of_operand
    {stop : Option LexError} {ts : List Token} {e : Expr}
    (h : operand stop [] ts = .ok e) :
    stop = none ∧ Derives .sum ts e :=
  (acceptsOnly stop ts e).1 [] [] (.product (.sum .start)) h

end Soundness

section Completeness

/-- The frames below a product: it is not settled into any of them. -/
def Settled (stack : List Frame) : Prop :=
  ∀ e : Expr, settle stack e = (stack, e)

/-- The frames below a sum: it is not joined to any of them either. -/
def Joined (stack : List Frame) : Prop :=
  Settled stack ∧ ∀ e : Expr, join stack e = (stack, e)

theorem joined_nil : Joined [] :=
  ⟨fun _ => rfl, fun _ => rfl⟩

theorem joined_group
    (stack : List Frame) :
    Joined (.group :: stack) :=
  ⟨fun _ => rfl, fun _ => rfl⟩

theorem settled_term
    {op : BinaryOp}
    (hop : op.Adds)
    (l : Expr)
    (stack : List Frame) :
    Settled (.left l op :: stack) := by
  intro e
  simp [settle, isProduct_of_adds hop]

/--
What reading the tokens `ts` of a nonterminal with tree `e` does to the stack below,
whatever tokens but an opening parenthesis follow them.

A sum is joined only when the token after it is seen, so its last product still waits.
-/
def ReadsTo : Nonterminal → List Token → Expr → Prop
  | .sum, ts, e =>
      ∀ stack : List Frame, Joined stack →
        ∃ done : List Frame × Expr,
          join done.1 done.2 = (stack, e) ∧
          ∀ rest : List Token, rest.head? ≠ some .leftParen →
            operand none stack (ts ++ rest) = operator none done rest
  | .product, ts, e =>
      ∀ stack : List Frame, Settled stack →
        ∀ rest : List Token, rest.head? ≠ some .leftParen →
          operand none stack (ts ++ rest) = operator none (stack, e) rest
  | _, ts, e =>
      ∀ (stack : List Frame) (rest : List Token), rest.head? ≠ some .leftParen →
        operand none stack (ts ++ rest) = operator none (settle stack e) rest

theorem head_token_ne_leftParen
    (op : BinaryOp)
    (ts : List Token) :
    (op.token :: ts).head? ≠ some .leftParen := by
  cases op <;> simp [BinaryOp.token]

/-- The tokens of a derivation are read to its tree. -/
theorem readsTo_of_derives
    {n : Nonterminal} {ts : List Token} {e : Expr}
    (h : Derives n ts e) :
    ReadsTo n ts e := by
  induction h with
  | number value =>
      intro stack rest _
      simp [operand]
  | name text =>
      intro stack rest hrest
      exact operand_name none stack text hrest
  | @group ts e _ ih =>
      intro stack rest _
      obtain ⟨done, hjoin, hread⟩ := ih (.group :: stack) (joined_group stack)
      calc operand none stack (.leftParen :: (ts ++ [.rightParen]) ++ rest)
          = operand none (.group :: stack) (ts ++ .rightParen :: rest) := by
            simp [operand]
        _ = operator none done (.rightParen :: rest) := hread _ (by simp)
        _ = operator none (settle stack e) rest := by
            simp [operator, hjoin]
  | primary _ ih =>
      exact ih
  | @sign ts e op _ ih =>
      intro stack rest hrest
      rw [List.cons_append, operand_sign, ih _ rest hrest]
      rfl
  | signed _ ih =>
      intro stack hstack rest hrest
      rw [ih stack rest hrest, hstack]
  | @factor ts us l r op hop _ _ ihLeft ihRight =>
      intro stack hstack rest hrest
      have hsettle :
          settle (.left l op :: stack) r = (stack, .binary l op r) := by
        simp [settle, isProduct_of_multiplies hop, hstack (.binary l op r)]
      rw [List.append_assoc, List.cons_append,
        ihLeft stack hstack _ (head_token_ne_leftParen op _),
        operator_factor none _ hop, ihRight _ rest hrest, hsettle]
  | product _ ih =>
      intro stack hstack
      exact ⟨(stack, _), hstack.2 _, ih stack hstack.1⟩
  | @term ts us l r op hop _ _ ihLeft ihRight =>
      intro stack hstack
      obtain ⟨done, hjoin, hread⟩ := ihLeft stack hstack
      refine ⟨(.left l op :: stack, r), rfl, ?_⟩
      intro rest hrest
      rw [List.append_assoc, List.cons_append,
        hread _ (head_token_ne_leftParen op _),
        operator_term none _ hop, hjoin,
        ihRight _ (settled_term hop l stack) rest hrest]

/-- The reader accepts the tokens of a text exactly when they derive the tree. -/
theorem operand_eq_ok_iff
    {stop : Option LexError} {ts : List Token} {e : Expr} :
    operand stop [] ts = .ok e ↔ stop = none ∧ Derives .sum ts e := by
  constructor
  · exact derives_of_operand
  · rintro ⟨rfl, h⟩
    obtain ⟨done, hjoin, hread⟩ := readsTo_of_derives h [] joined_nil
    have hend := hread [] (by simp)
    rw [List.append_nil] at hend
    rw [hend]
    simp [operator, hjoin]

end Completeness

end Grammar
end LiveForms
