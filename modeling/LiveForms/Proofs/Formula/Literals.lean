import LiveForms.Formula.Value
import LiveForms.Proofs.Decimal.Leading
import LiveForms.Proofs.Document.Runs
import LiveForms.Proofs.Text.Trimming

/-!
# Live forms: the text of an input inside an expression

An expression names an input and means the number in it. The text of that number may as well
stand in the expression itself, and in a cell: wherever it is read, it is the same number. So
nothing is lost if a name is replaced by the text of its input.

Main definition:

* `Expr.replace`: an expression with another one in place of a name.

Main statements:

* `Expr.eval_replace`: a name can be replaced by what has its value.
* `Formula.readCell_parts`: what a cell makes of a numeral.
* `Formula.literal_readers`: an input, a cell and an expression with the same text.
-/

namespace LiveForms

/-- No character of a numeral is a blank. -/
theorem Numeral.not_isBlank_of_mem_parts
    {negative : Bool} {whole : List Char} {fraction? : Option (List Char)} {rest : List Char}
    (h : Complete whole fraction?)
    (hrest : ∀ c ∈ rest, Text.isBlank c = false)
    {c : Char}
    (hc : c ∈ parts negative whole fraction? rest) :
    Text.isBlank c = false := by
  rw [parts, List.mem_append, List.mem_append] at hc
  rcases hc with hc | hc | hc
  · cases negative with
    | false => cases hc
    | true =>
        obtain rfl := List.mem_singleton.mp hc
        decide
  · cases fraction? with
    | none => exact Grammar.isBlank_of_isDigit (h.isDigit c hc)
    | some fs =>
        rw [Token.numeralText, List.mem_append, List.mem_cons] at hc
        rcases hc with hc | rfl | hc
        · exact Grammar.isBlank_of_isDigit (h.isDigit c hc)
        · decide
        · exact Grammar.isBlank_of_isDigit ((h.isDigits fs rfl).isDigit c hc)
  · exact hrest c hc

namespace Expr

/-- The expression with `e` in place of a name. -/
def replace (name : String) (e : Expr) : Expr → Expr
  | .number x => .number x
  | .field other => if other = name then e else .field other
  | .binary left op right => .binary (replace name e left) op (replace name e right)
  | .unary op operand => .unary op (replace name e operand)

/-- A name can be replaced by an expression with the value that the name stands for. -/
theorem eval_replace
    {name : String} {e : Expr} {b : Bindings} {x : Float}
    (hname : b name = some x)
    (he : e.eval b = .ok x)
    (whole : Expr) :
    (replace name e whole).eval b = whole.eval b := by
  induction whole with
  | number x => rfl
  | field other =>
      rw [replace]
      split
      · rename_i heq
        subst heq
        rw [he, eval, hname]
      · rfl
  | binary left op right ihLeft ihRight => rw [replace, eval, eval, ihLeft, ihRight]
  | unary op operand ih => rw [replace, eval, eval, ih]

end Expr

namespace Formula

/-- A numeral is not the empty text. -/
theorem parts_ne_nil
    {negative : Bool} {whole : List Char} {fraction? : Option (List Char)}
    (h : Numeral.Complete whole fraction?)
    (rest : List Char) :
    Numeral.parts negative whole fraction? rest ≠ [] := by
  obtain ⟨c, cs, htext, _⟩ := h.head rest
  rw [Numeral.parts, htext]
  simp

theorem ofList_parts_ne
    {negative : Bool} {whole : List Char} {fraction? : Option (List Char)}
    (h : Numeral.Complete whole fraction?)
    (rest : List Char) :
    String.ofList (Numeral.parts negative whole fraction? rest) ≠ "" := by
  intro hnil
  rw [String.ofList_eq_empty_iff] at hnil
  exact parts_ne_nil h rest hnil

/-- An input reads a numeral by its parts. -/
theorem readField_parts
    {negative : Bool} {whole : List Char} {fraction? : Option (List Char)}
    (h : Numeral.Complete whole fraction?) :
    readField (String.ofList (Numeral.parts negative whole fraction? [])) =
      .ok (Numeral.signed negative (Numeral.value ⟨whole, fraction?.getD [], 0⟩)) := by
  rw [readField, if_neg (ofList_parts_ne h []), String.toList_ofList, Numeral.plain?_parts h]

/-- A numeral with a power of ten is no number to an input. -/
theorem readField_parts_of_mem
    {negative : Bool} {whole : List Char} {fraction? : Option (List Char)} {rest : List Char}
    (h : Numeral.Complete whole fraction?)
    (he : 'e' ∈ rest) :
    readField (String.ofList (Numeral.parts negative whole fraction? rest)) =
      .error .invalid := by
  have hmem : 'e' ∈ Numeral.parts negative whole fraction? rest :=
    List.mem_append_right _ (List.mem_append_right _ he)
  rw [readField, if_neg (ofList_parts_ne h rest), String.toList_ofList, Numeral.plain?_of_mem hmem]

/-- A cell reads a numeral by its parts and the power of ten behind them. -/
theorem readCell_parts
    {negative : Bool} {whole : List Char} {fraction? : Option (List Char)} {rest : List Char}
    (h : Numeral.Complete whole fraction?)
    (hrest : Numeral.Stops fraction? rest)
    (hvisible : ∀ c ∈ rest, Text.isBlank c = false) :
    readCell (String.ofList (Numeral.parts negative whole fraction? rest)) =
      some (Numeral.signed negative
        (Numeral.value ⟨whole, fraction?.getD [], Numeral.leadingPower rest⟩)) := by
  have htext : ∀ c ∈ Numeral.parts negative whole fraction? rest, Text.isBlank c = false :=
    fun _ => Numeral.not_isBlank_of_mem_parts h hvisible
  have htrim := Text.trim_eq_self htext
  have hne : (Numeral.parts negative whole fraction? rest).isEmpty = false := by
    simp [parts_ne_nil h rest]
  rw [readCell, String.toList_ofList, htrim]
  simp only [hne, Numeral.leading?_parts h hrest]
  rfl

/--
Whatever text the value of an input may have besides none, there is a number and a tree such
that the input stands for this number under every name, every cell with the text holds it,
the text denotes the tree, and the tree has the number as its value, whatever is bound. So
an expression keeps its value when a name that stands for the number is replaced by the tree.
-/
theorem literal_readers
    (text : String)
    (htext : Numeral.IsLiteral text.toList) :
    ∃ x e,
      (∀ d name input, d.byId name = some input → d.value? input = some text →
        field d name = .ok x) ∧
      (∀ d row name cell, d.firstWithClass row name = some cell → d.value? cell = some text →
        cell? d row name = some x) ∧
      Expr.parse text = .ok e ∧
      (∀ b, e.eval b = .ok x) ∧
      ∀ whole name b, b name = some x → (Expr.replace name e whole).eval b = whole.eval b := by
  obtain ⟨negative, whole, fraction?, h, hparts⟩ := Numeral.isLiteral_iff.mp htext
  obtain rfl : text = String.ofList (Numeral.parts negative whole fraction? []) := by
    rw [← hparts, String.ofList_toList]
  refine ⟨_, _, ?_, ?_, Numeral.parse_parts h, Numeral.eval_tree negative _, ?_⟩
  · intro d name input hinput hvalue
    rw [field, hinput, Option.bind_some, hvalue]
    exact readField_parts h
  · intro d row name cell hcell hvalue
    simp only [cell?, hcell, hvalue]
    exact readCell_parts h (Numeral.stops_nil _) (by simp)
  · intro whole name b hname
    exact Expr.eval_replace hname (Numeral.eval_tree negative _ b) whole

/-- An element that is an input with an id as well as a cell. -/
def halfBehindPoint : Document :=
  Document.ofChanges [.create Document.root
    { tag := "input", id := some "weight", classes := ["grade"], value := "-.50" }]

/-- No digit is needed in front of the point. -/
theorem literal_readers_halfBehindPoint :
    Numeral.IsLiteral "-.50".toList ∧
    ∃ x e, x = -0.5 ∧ field halfBehindPoint "weight" = .ok x ∧
      cell? halfBehindPoint Document.root "grade" = some x ∧
      Expr.parse "-.50" = .ok e ∧ e.eval (fun _ => none) = .ok x := by
  have hliteral : Numeral.IsLiteral "-.50".toList := by
    have hwhole : ∀ c ∈ ([] : List Char), c.isDigit = true := by simp
    have hzero : Decimal.IsDigits ['0'] := Decimal.isDigits_cons (by decide) (by simp)
    have hlast : Decimal.IsDigits ['5', '0'] := Decimal.isDigits_cons (by decide) hzero.isDigit
    exact .intro (.inr rfl) hwhole (.inr rfl) hlast
  obtain ⟨x, e, hfield, hcell, hparse, heval, _⟩ := literal_readers "-.50" hliteral
  have hinput := hfield halfBehindPoint "weight" 1 (by decide +kernel) (by decide +kernel)
  have hvalue : field halfBehindPoint "weight" = .ok (-0.5) := by decide +kernel
  have hread := hcell halfBehindPoint Document.root "grade" 1 (by decide +kernel)
    (by decide +kernel)
  refine ⟨hliteral, x, e, ?_, hinput, hread, hparse, heval _⟩
  rw [hinput] at hvalue
  exact Except.ok.inj hvalue

end Formula
end LiveForms
