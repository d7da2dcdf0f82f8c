import LiveForms.Formula.Value
import LiveForms.Proofs.Document.Tree

/-!
# Live forms: what a formula reads

Recomputing a formula changes its text and one of its classes. The quiet copy of a
document has neither the texts nor that class. It has the same links, ids and values, and
as long as rows and cells are not told apart by that class, every formula has the same
value there (`Formula.compute_quiet`). So two documents with the same quiet copy agree on
all formulas, and the order in which formulas are recomputed does not matter.
-/

namespace LiveForms

/-- The class that marks an invalid formula marks neither rows nor cells. -/
structure Markup.InvalidApart (m : Markup) : Prop where
  row : m.invalidClass ≠ m.rowClass
  grade : m.invalidClass ≠ m.gradeClass
  credit : m.invalidClass ≠ m.creditClass

/-- An element without its text and without one class. -/
def Element.quiet (name : String) (e : Element) : Element :=
  { e with text := "", classes := e.classes.filter (· != name) }

theorem Element.hasClass_quiet
    {name other : String}
    (hne : name ≠ other)
    (e : Element) :
    (e.quiet name).hasClass other = e.hasClass other := by
  rw [Bool.eq_iff_iff]
  simp [hasClass, quiet, Ne.symm hne]

namespace Document

/-- A document without its texts and without one class. -/
def quiet (name : String) (d : Document) : Document :=
  { d with
    nodes := d.nodes.map fun node => { node with content := node.content.map (.quiet name) } }

variable (name : String) (d : Document)

@[simp] theorem size_quiet : (d.quiet name).size = d.size := by
  simp [quiet, size]

@[simp] theorem parent?_quiet
    (n : NodeId) :
    (d.quiet name).parent? n = d.parent? n := by
  simp only [quiet, parent?, Array.getElem?_map]
  cases d.nodes[n]? <;> rfl

@[simp] theorem children_quiet
    (n : NodeId) :
    (d.quiet name).children n = d.children n := by
  simp only [quiet, children, Array.getElem?_map]
  cases d.nodes[n]? <;> rfl

@[simp] theorem element?_quiet
    (n : NodeId) :
    (d.quiet name).element? n = (d.element? n).map (Element.quiet name) := by
  simp only [quiet, element?, Array.getElem?_map]
  cases d.nodes[n]? <;> rfl

@[simp] theorem byId_quiet
    (id : String) :
    (d.quiet name).byId id = d.byId id :=
  rfl

@[simp] theorem value?_quiet
    (n : NodeId) :
    (d.quiet name).value? n = d.value? n := by
  simp [value?, Function.comp_def, Element.quiet]

@[simp] theorem attr?_quiet
    (n : NodeId)
    (attr : String) :
    (d.quiet name).attr? n attr = d.attr? n attr := by
  simp only [attr?, element?_quiet]
  cases d.element? n <;> rfl

@[simp] theorem descendants_quiet
    (n : NodeId) :
    (d.quiet name).descendants n = d.descendants n :=
  descendants_congr (size_quiet name d) (children_quiet name d) n

theorem nodeIs_quiet
    {p : Element → Bool}
    (hp : ∀ e : Element, p (e.quiet name) = p e) :
    (d.quiet name).nodeIs p = d.nodeIs p := by
  funext n
  rw [nodeIs, nodeIs, element?_quiet]
  cases d.element? n with
  | none => rfl
  | some e => exact hp e

theorem findAll_quiet
    {p : Element → Bool}
    (hp : ∀ e : Element, p (e.quiet name) = p e)
    (scope : NodeId) :
    (d.quiet name).findAll scope p = d.findAll scope p := by
  rw [findAll, findAll, descendants_quiet, nodeIs_quiet name d hp]

@[simp] theorem withTag_quiet
    (scope : NodeId)
    (tag : String) :
    (d.quiet name).withTag scope tag = d.withTag scope tag :=
  findAll_quiet name d (fun _ => rfl) scope

variable {name}

theorem withClass_quiet
    {other : String}
    (hne : name ≠ other)
    (scope : NodeId) :
    (d.quiet name).withClass scope other = d.withClass scope other :=
  findAll_quiet name d (Element.hasClass_quiet hne) scope

theorem firstWithClass_quiet
    {other : String}
    (hne : name ≠ other)
    (scope : NodeId) :
    (d.quiet name).firstWithClass scope other = d.firstWithClass scope other := by
  rw [firstWithClass, firstWithClass, findFirst, findFirst, descendants_quiet,
    nodeIs_quiet name d (Element.hasClass_quiet hne)]

end Document

namespace Formula

/-- Of a name it matters which element it finds, and the value of that element. -/
theorem field_congr
    {d d' : Document} {name : String}
    (hbyId : d'.byId name = d.byId name)
    (hvalue : ∀ n, d.byId name = some n → d'.value? n = d.value? n) :
    field d' name = field d name := by
  rw [field, field, hbyId]
  cases hn : d.byId name with
  | none => rfl
  | some n => rw [Option.bind_some, Option.bind_some, hvalue n hn]

theorem field_quiet
    (invalid : String)
    (d : Document)
    (name : String) :
    field (d.quiet invalid) name = field d name :=
  field_congr rfl fun n _ => Document.value?_quiet invalid d n

/-- Only the names that an expression has matter. -/
theorem operands_congr
    {d d' : Document}
    (text : String)
    {names : List String}
    (h : ∀ name ∈ names, field d' name = field d name) :
    operands d' text names = operands d text names := by
  induction names with
  | nil =>
      rfl
  | cons name names ih =>
      obtain ⟨hfirst, hrest⟩ := List.forall_mem_cons.mp h
      rw [operands, operands, operand, operand, hfirst, ih hrest]

theorem expression_congr
    {d d' : Document} {text : String}
    (h : ∀ e, Expr.parse text = .ok e →
      ∀ name ∈ e.fieldNames, field d' name = field d name) :
    expression d' text = expression d text := by
  rw [expression, expression]
  cases hparse : Expr.parse text with
  | error e => rfl
  | ok e => simp only [operands_congr text (h e hparse)]

theorem expression_quiet
    (invalid : String)
    (d : Document)
    (text : String) :
    expression (d.quiet invalid) text = expression d text :=
  expression_congr fun _ _ name _ => field_quiet invalid d name

theorem cell?_quiet
    {invalid name : String}
    (hne : invalid ≠ name)
    (d : Document)
    (row : NodeId) :
    cell? (d.quiet invalid) row name = cell? d row name := by
  rw [cell?, cell?, Document.firstWithClass_quiet d hne]
  cases d.firstWithClass row name with
  | none => rfl
  | some cell => simp only [Document.value?_quiet]

variable {m : Markup} (hm : m.InvalidApart)
include hm

theorem addRows_quiet
    (d : Document)
    (totals : Totals)
    (rows : List NodeId) :
    addRows m (d.quiet m.invalidClass) totals rows = addRows m d totals rows := by
  induction rows generalizing totals with
  | nil =>
      rfl
  | cons row rows ih =>
      rw [addRows, addRows, addRow, addRow, cell?_quiet hm.grade, cell?_quiet hm.credit]
      simp only [ih]

theorem average_quiet
    (d : Document)
    (formula : NodeId) :
    average m (d.quiet m.invalidClass) formula = average m d formula := by
  rw [average, average, Document.parent?_quiet]
  cases d.parent? formula with
  | none => rfl
  | some container =>
      simp only [Document.withClass_quiet d hm.row, addRows_quiet hm]

/-- A formula reads neither texts nor the class of an invalid formula. -/
theorem compute_quiet
    (d : Document)
    (formula : NodeId) :
    compute m (d.quiet m.invalidClass) formula = compute m d formula := by
  simp only [compute, Document.attr?_quiet, average_quiet hm, expression_quiet]

/-- Documents with the same quiet copy agree on every formula. -/
theorem compute_congr
    {d d' : Document}
    (hquiet : d'.quiet m.invalidClass = d.quiet m.invalidClass)
    (formula : NodeId) :
    compute m d' formula = compute m d formula := by
  rw [← compute_quiet hm d', hquiet, compute_quiet hm d]

end Formula
end LiveForms
