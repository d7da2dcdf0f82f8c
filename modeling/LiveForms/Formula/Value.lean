import LiveForms.Document.Basic
import LiveForms.Expr.Reader
import LiveForms.Formula.Markup

/-!
# Live forms: the value of a formula

A formula either averages rows or evaluates an expression over the inputs of its page.
Its value is a finite number or one of three errors, and it depends on the document
only: computing it changes nothing.

An average weights the grade of each row with its credit. The rows are all elements with
the row class below the parent of the formula; the grade and the credit of a row stand
in the first elements below it with the classes of these cells. The first row that
cannot be used decides the error.

Main definitions:

* `FormulaError`, and `FormulaError.message`, its text.
* `Formula.cell?`, `Formula.field`: the readings of a cell and of a named input.
* `Formula.average`, `Formula.expression`: the two kinds of formula.
* `Formula.compute`: the value of a formula.
* `Formula.display`: a number as a formula shows it.
-/

namespace LiveForms

/-- Why a formula has no value. -/
inductive FormulaError where
  /-- An input or the expression cannot be read, or the result is not finite. -/
  | invalid
  | negativeGradeOrCredit
  | negativeWeightOrHeight
deriving DecidableEq, Repr

/-- The text that a formula shows in place of a value. -/
def FormulaError.message : FormulaError → String
  | .invalid => "Invalid Formula"
  | .negativeGradeOrCredit =>
      "Invalid Formula (Grade and Credit must be positive numbers)"
  | .negativeWeightOrHeight =>
      "Invalid Formula (Weight and Height must be positive numbers)"

namespace Formula

/-- The one expression whose inputs may not be negative. -/
def bmiExpression : String :=
  "weight / (height * height)"

/-- A number as a formula shows it. -/
def display (x : Float) : String :=
  String.ofList (Layout.result.write x)

/-- The number in the text of a cell: nothing counts as zero, text after it is ignored. -/
def readCell (raw : String) : Option Float :=
  let text := Text.trim raw.toList
  if text.isEmpty then some 0.0 else Numeral.leading? text

/-- The number in the first element with a class below `row`. -/
def cell? (d : Document) (row : NodeId) (name : String) : Option Float :=
  match d.firstWithClass row name with
  | none => none
  | some cell =>
      match d.value? cell with
      | none => none
      | some raw => readCell raw

/-- The number in the value of an input: nothing counts as zero. -/
def readField (value : String) : Except FormulaError Float :=
  if value = "" then
    .ok 0.0
  else
    match Numeral.plain? value.toList with
    | some x => .ok x
    | none => .error .invalid

/-- The number that a name stands for; an id that no element has counts as empty. -/
def field (d : Document) (name : String) : Except FormulaError Float :=
  readField (((d.byId name).bind d.value?).getD "")

/-- The two sums of an average. -/
structure Totals where
  /-- The sum of the products of grade and credit. -/
  weighted : Float := 0.0
  /-- The sum of the credits. -/
  credits : Float := 0.0

/-- The sums with one more row. -/
def addRow (m : Markup) (d : Document) (totals : Totals) (row : NodeId) :
    Except FormulaError Totals :=
  match cell? d row m.gradeClass, cell? d row m.creditClass with
  | some grade, some credit =>
      if grade < 0.0 ∨ credit < 0.0 then
        .error .negativeGradeOrCredit
      else
        .ok {
          weighted := totals.weighted + grade * credit
          credits := totals.credits + credit
        }
  | _, _ => .error .invalid

/-- The sums over a list of rows, from left to right. -/
def addRows (m : Markup) (d : Document) (totals : Totals) :
    List NodeId → Except FormulaError Totals
  | [] => .ok totals
  | row :: rows =>
      match addRow m d totals row with
      | .error e => .error e
      | .ok totals => addRows m d totals rows

/-- A finite number is a value, any other is an error. -/
def finite (x : Float) : Except FormulaError Float :=
  if x.isFinite then .ok x else .error .invalid

/-- The average of two sums; it is zero when there are no credits. -/
def quotient (totals : Totals) : Except FormulaError Float :=
  if totals.credits == 0.0 then
    .ok 0.0
  else
    finite (totals.weighted / totals.credits)

/-- The average of the rows around a formula. -/
def average (m : Markup) (d : Document) (formula : NodeId) : Except FormulaError Float :=
  match d.parent? formula with
  | none => .ok 0.0
  | some container =>
      match addRows m d {} (d.withClass container m.rowClass) with
      | .error e => .error e
      | .ok totals => quotient totals

/-- The number that a name stands for in an expression that may ask for a sign. -/
def operand (d : Document) (text name : String) : Except FormulaError Float :=
  match field d name with
  | .error e => .error e
  | .ok x =>
      if text = bmiExpression ∧ x < 0.0 then .error .negativeWeightOrHeight else .ok x

/-- The numbers that the names of an expression stand for. -/
def operands (d : Document) (text : String) :
    List String → Except FormulaError (List (String × Float))
  | [] => .ok []
  | name :: names =>
      match operand d text name with
      | .error e => .error e
      | .ok x =>
          match operands d text names with
          | .error e => .error e
          | .ok rest => .ok ((name, x) :: rest)

/-- The value of an expression over the inputs of a document. -/
def expression (d : Document) (text : String) : Except FormulaError Float :=
  match Expr.parse text with
  | .error _ => .error .invalid
  | .ok e =>
      match operands d text e.fieldNames with
      | .error err => .error err
      | .ok values =>
          match e.eval fun name => values.lookup name with
          | .error _ => .error .invalid
          | .ok x => finite x

/-- The value of a formula. -/
def compute (m : Markup) (d : Document) (formula : NodeId) : Except FormulaError Float :=
  let text := (d.attr? formula m.evaluatorAttr).getD ""
  if text = m.gpaMarker then average m d formula else expression d text

end Formula
end LiveForms
