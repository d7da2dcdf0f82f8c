/-!
# Live forms: markup names

A page tells its formulas, rows and buttons apart by tags, attributes, ids and classes.
The names of these are collected here, with the values used when nothing else is
configured.
-/

namespace LiveForms

/-- The names that tie the elements of a page to what they do. -/
structure Markup where
  formulaTag : String := "formula"
  /-- The attribute of a formula that holds its expression. -/
  evaluatorAttr : String := "evaluator"
  /-- What that attribute holds when the formula is an average of rows. -/
  gpaMarker : String := "calculateGPA"
  /-- The id of the element to which rows are added. -/
  gpaContainerId : String := "gpa-container"
  rowClass : String := "gpa-row"
  gradeClass : String := "grade"
  creditClass : String := "credit"
  /-- The class of a button that adds a row. -/
  addClass : String := "add-course"
  /-- The class of a button that removes its row. -/
  removeClass : String := "remove-course"
  /-- The class that a formula has while it shows an error. -/
  invalidClass : String := "invalid"
deriving DecidableEq, Repr, Inhabited

end LiveForms
