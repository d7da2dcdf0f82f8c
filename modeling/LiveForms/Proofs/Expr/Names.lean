import LiveForms.Proofs.Expr.Reading
import Mathlib.Data.List.Induction

/-!
# Live forms: the names of an expression

Three walks go through the names of an expression. The reader meets them as tokens, in the
order of the text. The list of field names is collected over the tree, each name at its first
occurrence. The evaluation asks for one value after the other, and stops at the first that is
missing. All three go from left to right (`Expr.occurrences`), so the error of an evaluation
is the first unbound name of the list, and the list begins with the first name of the text.

Main definitions:

* `Token.names`: the names in a row of tokens.
* `Expr.occurrences`: the names in a tree, each as often as it occurs.
* `Bindings.FirstUnbound`: the first name of a list without a value.
* `Expr.DecidedByNames`: what the names of an expression say of its value.

Main statements:

* `Grammar.names_of_derives`, `Expr.fieldNames_of_parse`: the names of the text are those of
  the tree.
* `Expr.decidedByNames`: the evaluation of every expression.
-/

namespace LiveForms

/-- The name that a token is. -/
def Token.name? : Token → Option String
  | .name text => some text
  | _ => none

/-- The names in a row of tokens, in their order. -/
def Token.names (ts : List Token) : List String :=
  ts.filterMap Token.name?

/-- Of a list of names, `x` is the first without a value. -/
def Bindings.FirstUnbound (b : Bindings) (names : List String) (x : String) : Prop :=
  ∃ before after, names = before ++ x :: after ∧ b x = none ∧ ∀ y ∈ before, b y ≠ none

namespace Expr

/-- The names in an expression from left to right, each as often as it occurs. -/
def occurrences : Expr → List String
  | .number _ => []
  | .field name => [name]
  | .binary left _ right => left.occurrences ++ right.occurrences
  | .unary _ operand => operand.occurrences

/--
The names of an expression decide whether it has a value and which one. The error is the
first of them without a value, and what other names are bound to does not matter.
-/
structure DecidedByNames (e : Expr) : Prop where
  refused_iff : ∀ b, (∃ err, e.eval b = .error err) ↔ ∃ x ∈ e.fieldNames, b x = none
  refusal : ∀ b err, e.eval b = .error err →
    ∃ x, b.FirstUnbound e.fieldNames x ∧ err = .unbound x ∧
      err.message = "Unbound variable: " ++ x
  congr : ∀ b b' : Bindings, (∀ x ∈ e.fieldNames, b' x = b x) → e.eval b' = e.eval b

section Repetitions

theorem eraseDups_concat
    (names : List String)
    (x : String) :
    (names ++ [x]).eraseDups =
      if x ∈ names then names.eraseDups else names.eraseDups ++ [x] := by
  rw [List.eraseDups_append]
  split
  · rename_i hx
    simp [List.removeAll, hx]
  · rename_i hx
    simp [List.removeAll, hx, List.eraseDups_cons]

/-- The first member of a kind is never a repetition. -/
theorem find?_eraseDups
    (p : String → Bool)
    (names : List String) :
    names.eraseDups.find? p = names.find? p := by
  induction names using List.reverseRecOn with
  | nil =>
      rfl
  | append_singleton names x ih =>
      rw [eraseDups_concat, List.find?_append]
      split
      · rename_i hx
        -- `x` is left out, and it is not the first of its kind
        cases hfirst : names.find? p with
        | some y => rw [ih, hfirst, Option.some_or]
        | none =>
            have hpx := List.find?_eq_none.mp hfirst x hx
            simp [ih, hfirst, hpx]
      · rw [List.find?_append, ih]

/-- The names are collected behind those that were seen before. -/
theorem collect_eraseDups
    (seen : List String)
    (e : Expr) :
    e.collect seen.eraseDups = (seen ++ e.occurrences).eraseDups := by
  induction e generalizing seen with
  | number value =>
      rw [collect, occurrences, List.append_nil]
  | field name =>
      rw [collect, occurrences, eraseDups_concat]
      exact if_congr List.mem_eraseDups rfl rfl
  | binary left op right ihLeft ihRight =>
      rw [collect, occurrences, ihLeft, ihRight, List.append_assoc]
  | unary op operand ih =>
      rw [collect, occurrences, ih]

theorem fieldNames_eq
    (e : Expr) :
    e.fieldNames = e.occurrences.eraseDups :=
  collect_eraseDups [] e

theorem mem_fieldNames_iff
    {e : Expr} {x : String} :
    x ∈ e.fieldNames ↔ x ∈ e.occurrences := by
  rw [fieldNames_eq, List.mem_eraseDups]

end Repetitions

section Evaluation

/-- Whether a name has no value. -/
def unbound (b : Bindings) (x : String) : Bool :=
  (b x).isNone

theorem firstUnbound_iff
    {b : Bindings} {names : List String} {x : String} :
    b.FirstUnbound names x ↔ names.find? (unbound b) = some x := by
  rw [List.find?_eq_some_iff_append, Bindings.FirstUnbound]
  simp only [unbound, Option.isNone_iff_eq_none, Bool.not_eq_true', Option.isNone_eq_false_iff,
    Option.isSome_iff_ne_none]
  constructor
  · rintro ⟨before, after, hnames, hx, hbefore⟩
    exact ⟨hx, before, after, hnames, hbefore⟩
  · rintro ⟨hx, before, after, hnames, hbefore⟩
    exact ⟨before, after, hnames, hx, hbefore⟩

variable {b : Bindings} {e : Expr} {x : String}

/-- With values for all names there is a value. -/
theorem eval_of_bound
    (h : e.occurrences.find? (unbound b) = none) :
    ∃ value, e.eval b = .ok value := by
  induction e with
  | number value =>
      exact ⟨value, rfl⟩
  | field name =>
      obtain ⟨value, hvalue⟩ : ∃ value, b name = some value := by
        rw [← Option.ne_none_iff_exists']
        simpa [occurrences, unbound] using h
      exact ⟨value, by simp only [eval, hvalue]⟩
  | binary left op right ihLeft ihRight =>
      rw [occurrences, List.find?_append, Option.or_eq_none_iff] at h
      obtain ⟨y, hy⟩ := ihLeft h.1
      obtain ⟨z, hz⟩ := ihRight h.2
      exact ⟨op.apply y z, by simp only [eval, hy, hz]⟩
  | unary op operand ih =>
      obtain ⟨y, hy⟩ := ih h
      exact ⟨op.apply y, by simp only [eval, hy]⟩

/-- The evaluation stops at the first name without a value. -/
theorem eval_of_unbound
    (h : e.occurrences.find? (unbound b) = some x) :
    e.eval b = .error (.unbound x) := by
  induction e with
  | number value =>
      cases h
  | field name =>
      rw [occurrences, List.find?_singleton] at h
      split at h
      · rename_i hname
        cases h
        simp only [eval, Option.isNone_iff_eq_none.mp hname]
      · cases h
  | binary left op right ihLeft ihRight =>
      rw [occurrences, List.find?_append] at h
      cases hleft : left.occurrences.find? (unbound b) with
      | some y =>
          rw [hleft] at h ihLeft
          cases h
          simp only [eval, ihLeft rfl]
      | none =>
          rw [hleft] at h
          obtain ⟨y, hy⟩ := eval_of_bound hleft
          simp only [eval, hy, ihRight h]
  | unary op operand ih =>
      simp only [eval, ih h]

/-- Bindings that agree on the names of an expression agree on its value. -/
theorem eval_congr
    {b' : Bindings}
    (h : ∀ x ∈ e.occurrences, b' x = b x) :
    e.eval b' = e.eval b := by
  induction e with
  | number value =>
      rfl
  | field name =>
      rw [eval, eval, h name List.mem_cons_self]
  | binary left op right ihLeft ihRight =>
      have hleft := ihLeft fun x hx => h x (List.mem_append_left _ hx)
      have hright := ihRight fun x hx => h x (List.mem_append_right _ hx)
      rw [eval, eval, hleft, hright]
  | unary op operand ih =>
      rw [eval, eval, ih h]

/-- The error of an evaluation is the first name without a value. -/
theorem eval_eq_error_iff
    {err : EvalError} :
    e.eval b = .error err ↔ ∃ x, b.FirstUnbound e.fieldNames x ∧ err = .unbound x := by
  simp only [firstUnbound_iff, fieldNames_eq, find?_eraseDups]
  cases hfirst : e.occurrences.find? (unbound b) with
  | none =>
      obtain ⟨value, hvalue⟩ := eval_of_bound hfirst
      simp [hvalue]
  | some x =>
      rw [eval_of_unbound hfirst]
      simp [eq_comm]

theorem decidedByNames
    (e : Expr) :
    e.DecidedByNames where
  refused_iff b := by
    simp only [eval_eq_error_iff]
    constructor
    · rintro ⟨_, x, ⟨before, after, hnames, hx, _⟩, _⟩
      exact ⟨x, by simp [hnames], hx⟩
    · rintro ⟨x, hmem, hx⟩
      have hsome : (e.fieldNames.find? (unbound b)).isSome = true := by
        rw [List.find?_isSome]
        exact ⟨x, hmem, Option.isNone_iff_eq_none.mpr hx⟩
      obtain ⟨y, hy⟩ := Option.isSome_iff_exists.mp hsome
      exact ⟨_, y, firstUnbound_iff.mpr hy, rfl⟩
  refusal b err herr := by
    obtain ⟨x, hx, rfl⟩ := eval_eq_error_iff.mp herr
    exact ⟨x, hx, rfl, rfl⟩
  congr b b' h := eval_congr fun x hx => h x (mem_fieldNames_iff.mpr hx)

end Evaluation

end Expr

namespace Grammar

theorem names_append
    (ts us : List Token) :
    Token.names (ts ++ us) = Token.names ts ++ Token.names us :=
  List.filterMap_append

/-- An operator is no name. -/
theorem names_operator
    (op : BinaryOp)
    (ts : List Token) :
    Token.names (op.token :: ts) = Token.names ts := by
  cases op <;> rfl

/-- The tokens of a tree have its names, in the same order and as often. -/
theorem names_of_derives
    {n : Nonterminal} {ts : List Token} {e : Expr}
    (h : Derives n ts e) :
    Token.names ts = e.occurrences := by
  induction h with
  | number value => rfl
  | name text => rfl
  | group inner ih =>
      rw [← List.cons_append, names_append, ← ih]
      exact List.append_nil _
  | primary inner ih => exact ih
  | sign op inner ih =>
      cases op <;> exact ih
  | signed inner ih => exact ih
  | factor hop left right ihLeft ihRight =>
      rw [names_append, names_operator, ihLeft, ihRight, Expr.occurrences]
  | product inner ih => exact ih
  | term hop left right ihLeft ihRight =>
      rw [names_append, names_operator, ihLeft, ihRight, Expr.occurrences]

end Grammar

/-- A text that is an expression has tokens to its end, and their names are its field names. -/
theorem Expr.fieldNames_of_parse
    {text : String} {e : Expr}
    (h : Expr.parse text = .ok e) :
    (Token.run text.toList).2 = none ∧
      e.fieldNames = (Token.names (Token.run text.toList).1).eraseDups := by
  obtain ⟨hstop, hderives⟩ := Grammar.operand_eq_ok_iff.mp h
  exact ⟨hstop, by rw [Expr.fieldNames_eq, Grammar.names_of_derives hderives]⟩

example : (Expr.parse "b * (a + b) - -c / a").toOption.map Expr.fieldNames =
    some ["b", "a", "c"] := by
  decide +kernel

end LiveForms
