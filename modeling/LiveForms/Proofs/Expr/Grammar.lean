import LiveForms.Expr.Reader

/-!
# Live forms: the grammar of expressions

This module says what an expression is without any reading of it. A text is cut into
lexemes with blanks around them; each lexeme spells a token; a row of tokens derives a
tree.

Nothing here looks ahead or takes the longest lexeme, so a text such as `12` has more
than one cut. Which of them derive a tree is the subject of the modules that follow.

Main definitions:

* `Grammar.Derives`: the trees of a row of tokens, for each nonterminal.
* `Grammar.Spells`: the lexemes of a token.
* `Grammar.Cut`: the rows of tokens that a text can be cut into.
* `Grammar.Denotes`: the trees of a text.
-/

namespace LiveForms

/-- The token that writes a sign. -/
def UnaryOp.token : UnaryOp → Token
  | .plus => .plus
  | .minus => .minus

/-- The token that writes an operator. -/
def BinaryOp.token : BinaryOp → Token
  | .add => .plus
  | .subtract => .minus
  | .multiply => .times
  | .divide => .divide

/-- The operators of a product. -/
def BinaryOp.Multiplies (op : BinaryOp) : Prop :=
  op = .multiply ∨ op = .divide

/-- The operators of a sum. -/
def BinaryOp.Adds (op : BinaryOp) : Prop :=
  op = .add ∨ op = .subtract

namespace Grammar

/-- What a row of tokens can be, from the loosest to the tightest binding. -/
inductive Nonterminal where
  | sum
  | product
  | signed
  | primary
deriving DecidableEq, Repr

/--
The trees that a row of tokens derives.

A repetition of operands nests to the left: its last operator is the root, and all that
stands before that operator is the left operand.
-/
inductive Derives : Nonterminal → List Token → Expr → Prop
  | number
      (value : Float) :
      Derives .primary [.number value] (.number value)
  | name
      (text : String) :
      Derives .primary [.name text] (.field text)
  | group
      {ts : List Token} {e : Expr}
      (inner : Derives .sum ts e) :
      Derives .primary (.leftParen :: (ts ++ [.rightParen])) e
  | primary
      {ts : List Token} {e : Expr}
      (inner : Derives .primary ts e) :
      Derives .signed ts e
  | sign
      {ts : List Token} {e : Expr}
      (op : UnaryOp)
      (inner : Derives .signed ts e) :
      Derives .signed (op.token :: ts) (.unary op e)
  | signed
      {ts : List Token} {e : Expr}
      (inner : Derives .signed ts e) :
      Derives .product ts e
  | factor
      {ts us : List Token} {l r : Expr} {op : BinaryOp}
      (hop : op.Multiplies)
      (left : Derives .product ts l)
      (right : Derives .signed us r) :
      Derives .product (ts ++ op.token :: us) (.binary l op r)
  | product
      {ts : List Token} {e : Expr}
      (inner : Derives .product ts e) :
      Derives .sum ts e
  | term
      {ts us : List Token} {l r : Expr} {op : BinaryOp}
      (hop : op.Adds)
      (left : Derives .sum ts l)
      (right : Derives .product us r) :
      Derives .sum (ts ++ op.token :: us) (.binary l op r)

/-- A run of digits, possibly empty. -/
def Digits (cs : List Char) : Prop :=
  ∀ c ∈ cs, c.isDigit = true

/-- A run of blanks, possibly empty. -/
def Blanks (cs : List Char) : Prop :=
  ∀ c ∈ cs, Text.isBlank c = true

/-- The lexemes of a token. A numeral spells the double nearest to it. -/
inductive Spells : List Char → Token → Prop
  | whole
      {ds : List Char}
      (hds : Digits ds)
      (hne : ds ≠ []) :
      Spells ds (.number (Numeral.value ⟨ds, [], 0⟩))
  | point
      {ds fs : List Char}
      (hds : Digits ds)
      (hne : ds ≠ [])
      (hfs : Digits fs) :
      Spells (ds ++ '.' :: fs) (.number (Numeral.value ⟨ds, fs, 0⟩))
  | fraction
      {fs : List Char}
      (hfs : Digits fs)
      (hne : fs ≠ []) :
      Spells ('.' :: fs) (.number (Numeral.value ⟨[], fs, 0⟩))
  | name
      {c : Char} {cs : List Char}
      (hc : c.isAlpha = true ∨ c = '_')
      (hcs : ∀ x ∈ cs, x.isAlphanum = true ∨ x = '_') :
      Spells (c :: cs) (.name (String.ofList (c :: cs)))
  | plus : Spells ['+'] .plus
  | minus : Spells ['-'] .minus
  | times : Spells ['*'] .times
  | divide : Spells ['/'] .divide
  | leftParen : Spells ['('] .leftParen
  | rightParen : Spells [')'] .rightParen

/-- The rows of tokens that a text can be cut into, with blanks between the lexemes. -/
inductive Cut : List Char → List Token → Prop
  | done
      {blanks : List Char}
      (hblanks : Blanks blanks) :
      Cut blanks []
  | lexeme
      {blanks lexeme rest : List Char} {t : Token} {ts : List Token}
      (hblanks : Blanks blanks)
      (hspells : Spells lexeme t)
      (hrest : Cut rest ts) :
      Cut (blanks ++ (lexeme ++ rest)) (t :: ts)

/-- A text denotes a tree when one of its cuts derives that tree. -/
def Denotes (text : String) (e : Expr) : Prop :=
  ∃ ts : List Token,
    Cut text.toList ts ∧ Derives .sum ts e

end Grammar
end LiveForms
