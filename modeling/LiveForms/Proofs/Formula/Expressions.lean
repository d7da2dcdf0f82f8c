import LiveForms.Formula.Value
import LiveForms.Proofs.Expr.Names

/-!
# Live forms: the value of an expression formula

An expression formula looks up its names one by one, in the order of their first occurrence
in the text, and stops at the first that cannot be used. Then every name has a value, so the
evaluation has no error left to report. What is left is whether its value is finite.

Main definitions:

* `Formula.Accepts`, `Formula.Refuses`: the two kinds of names.
* `Formula.Evaluates`: the outcome of an expression over a document.

Main statements:

* `Formula.expression_eq_iff`: every expression has that outcome.
* `Formula.evaluation_by_names`: names, evaluation and outcome together.
-/

namespace LiveForms
namespace Formula

/-- The numbers that the names of a document stand for. -/
def reading (d : Document) : Bindings :=
  fun name => (field d name).toOption

/-- A name stands for the number `x`, and the expression admits it. -/
structure Accepts (d : Document) (text name : String) (x : Float) : Prop where
  field : field d name = .ok x
  sign : ¬ (text = bmiExpression ∧ x < 0.0)

/-- A name stands for no number, or for one that the expression does not admit. -/
inductive Refuses (d : Document) (text name : String) : FormulaError → Prop
  | unreadable
      (hfield : field d name = .error .invalid) :
      Refuses d text name .invalid
  | negative
      {x : Float}
      (hfield : field d name = .ok x)
      (htext : text = bmiExpression)
      (hx : x < 0.0) :
      Refuses d text name .negativeWeightOrHeight

/-- The outcome of an expression over a document. -/
inductive Evaluates (d : Document) (text : String) : Except FormulaError Float → Prop
  | unparsable
      {err : ParseError}
      (hparse : Expr.parse text = .error err) :
      Evaluates d text (.error .invalid)
  | refused
      {e : Expr} {before after : List String} {name : String} {err : FormulaError}
      (hparse : Expr.parse text = .ok e)
      (hnames : e.fieldNames = before ++ name :: after)
      (hbefore : ∀ other ∈ before, ∃ x, Accepts d text other x)
      (hname : Refuses d text name err) :
      Evaluates d text (.error err)
  | notFinite
      {e : Expr} {x : Float}
      (hparse : Expr.parse text = .ok e)
      (hnames : ∀ name ∈ e.fieldNames, ∃ x, Accepts d text name x)
      (hvalue : e.eval (reading d) = .ok x)
      (hfinite : x.isFinite = false) :
      Evaluates d text (.error .invalid)
  | value
      {e : Expr} {x : Float}
      (hparse : Expr.parse text = .ok e)
      (hnames : ∀ name ∈ e.fieldNames, ∃ x, Accepts d text name x)
      (hvalue : e.eval (reading d) = .ok x)
      (hfinite : x.isFinite = true) :
      Evaluates d text (.ok x)

variable {d : Document} {text name : String} {names : List String}

section OneName

theorem operand_of_accepts
    {x : Float}
    (h : Accepts d text name x) :
    operand d text name = .ok x := by
  simp only [operand, h.field]
  exact if_neg h.sign

theorem operand_of_refuses
    {err : FormulaError}
    (h : Refuses d text name err) :
    operand d text name = .error err := by
  cases h with
  | unreadable hfield => simp only [operand, hfield]
  | negative hfield htext hx =>
      simp only [operand, hfield]
      exact if_pos ⟨htext, hx⟩

/-- The only error of a field is that it cannot be read. -/
theorem field_eq_error
    {err : FormulaError}
    (h : field d name = .error err) :
    err = .invalid := by
  rw [field, readField] at h
  split at h
  · cases h
  · split at h
    · cases h
    · cases h
      rfl

theorem accepts_or_refuses
    (d : Document)
    (text name : String) :
    (∃ x, Accepts d text name x) ∨ ∃ err, Refuses d text name err := by
  cases hfield : field d name with
  | error err =>
      obtain rfl := field_eq_error hfield
      exact .inr ⟨_, .unreadable hfield⟩
  | ok x =>
      by_cases hsign : text = bmiExpression ∧ x < 0.0
      · exact .inr ⟨_, .negative hfield hsign.1 hsign.2⟩
      · exact .inl ⟨x, hfield, hsign⟩

end OneName

section AllNames

/-- Either all names are accepted, or one is the first that is refused. -/
theorem all_accepted_or_first_refused
    (d : Document)
    (text : String)
    (names : List String) :
    (∀ name ∈ names, ∃ x, Accepts d text name x) ∨
      ∃ before name after err, names = before ++ name :: after ∧
        (∀ other ∈ before, ∃ x, Accepts d text other x) ∧ Refuses d text name err := by
  induction names with
  | nil =>
      exact .inl fun name hname => absurd hname List.not_mem_nil
  | cons first rest ih =>
      rcases accepts_or_refuses d text first with haccepts | ⟨err, hrefuses⟩
      · rcases ih with hall | ⟨before, name, after, err, rfl, hbefore, hname⟩
        · exact .inl (List.forall_mem_cons.mpr ⟨haccepts, hall⟩)
        · exact .inr ⟨first :: before, name, after, err, rfl,
            List.forall_mem_cons.mpr ⟨haccepts, hbefore⟩, hname⟩
      · exact .inr ⟨[], first, rest, err, rfl,
          fun other hother => absurd hother List.not_mem_nil, hrefuses⟩

/-- Names that are accepted are all bound, each to the number that it stands for. -/
theorem operands_of_accepts
    (h : ∀ name ∈ names, ∃ x, Accepts d text name x) :
    ∃ values, operands d text names = .ok values ∧ values.map Prod.fst = names ∧
      ∀ name ∈ names, values.lookup name = reading d name := by
  induction names with
  | nil =>
      exact ⟨[], rfl, rfl, fun name hname => absurd hname List.not_mem_nil⟩
  | cons first rest ih =>
      obtain ⟨⟨x, hx⟩, hrest⟩ := List.forall_mem_cons.mp h
      obtain ⟨values, hvalues, hfst, hlookup⟩ := ih hrest
      refine ⟨(first, x) :: values, ?_, by simp [hfst], ?_⟩
      · simp only [operands, operand_of_accepts hx, hvalues]
      · intro name hname
        rw [List.lookup_cons]
        by_cases hfirst : name = first
        · subst hfirst
          simp [reading, hx.field, Except.toOption]
        · have hmem : name ∈ rest := (List.mem_cons.mp hname).resolve_left hfirst
          have hne : (name == first) = false := beq_false_of_ne hfirst
          simp [hne, hlookup name hmem]

/-- The first name that is refused decides the error. -/
theorem operands_of_refuses
    {before after : List String} {err : FormulaError}
    (hbefore : ∀ other ∈ before, ∃ x, Accepts d text other x)
    (hname : Refuses d text name err) :
    operands d text (before ++ name :: after) = .error err := by
  induction before with
  | nil =>
      rw [List.nil_append]
      simp only [operands, operand_of_refuses hname]
  | cons first rest ih =>
      obtain ⟨⟨x, hx⟩, hrest⟩ := List.forall_mem_cons.mp hbefore
      rw [List.cons_append]
      simp only [operands, operand_of_accepts hx, ih hrest]

/-- Numbers for all names are what lets an expression be evaluated. -/
theorem accepts_of_operands
    {values : List (String × Float)}
    (h : operands d text names = .ok values) :
    ∀ name ∈ names, ∃ x, Accepts d text name x := by
  rcases all_accepted_or_first_refused d text names with
    hall | ⟨before, name, after, err, rfl, hbefore, hname⟩
  · exact hall
  · rw [operands_of_refuses hbefore hname] at h
    cases h

end AllNames

section Outcome

/-- The numbers that have been looked up are all that the evaluation asks for. -/
theorem eval_operands
    {e : Expr}
    (h : ∀ name ∈ e.fieldNames, ∃ x, Accepts d text name x) :
    ∃ values x, operands d text e.fieldNames = .ok values ∧
      values.map Prod.fst = e.fieldNames ∧
      (e.eval fun name => values.lookup name) = .ok x ∧ e.eval (reading d) = .ok x := by
  obtain ⟨values, hvalues, hfst, hlookup⟩ := operands_of_accepts h
  have hsame := e.decidedByNames.congr (reading d) (fun name => values.lookup name) hlookup
  cases heval : e.eval (reading d) with
  | ok x => exact ⟨values, x, hvalues, hfst, hsame.trans heval, rfl⟩
  | error err =>
      obtain ⟨name, hname, hunbound⟩ := (e.decidedByNames.refused_iff _).mp ⟨err, heval⟩
      obtain ⟨x, hx⟩ := h name hname
      rw [reading, hx.field] at hunbound
      cases hunbound

theorem expression_of_accepts
    {e : Expr} {x : Float}
    (hparse : Expr.parse text = .ok e)
    (hnames : ∀ name ∈ e.fieldNames, ∃ x, Accepts d text name x)
    (hvalue : e.eval (reading d) = .ok x) :
    expression d text = finite x := by
  obtain ⟨values, y, hvalues, _, heval, hy⟩ := eval_operands hnames
  rw [hvalue] at hy
  cases hy
  simp only [expression, hparse, hvalues, heval]

theorem expression_of_evaluates
    {outcome : Except FormulaError Float}
    (h : Evaluates d text outcome) :
    expression d text = outcome := by
  cases h with
  | unparsable hparse => simp only [expression, hparse]
  | refused hparse hnames hbefore hname =>
      simp only [expression, hparse, hnames, operands_of_refuses hbefore hname]
  | notFinite hparse hnames hvalue hfinite =>
      rw [expression_of_accepts hparse hnames hvalue, finite, hfinite]
      rfl
  | value hparse hnames hvalue hfinite =>
      rw [expression_of_accepts hparse hnames hvalue, finite, hfinite]
      rfl

theorem exists_evaluates
    (d : Document)
    (text : String) :
    ∃ outcome, Evaluates d text outcome := by
  cases hparse : Expr.parse text with
  | error err => exact ⟨_, .unparsable hparse⟩
  | ok e =>
      rcases all_accepted_or_first_refused d text e.fieldNames with
        hall | ⟨before, name, after, err, hnames, hbefore, hname⟩
      · obtain ⟨_, x, _, _, _, hvalue⟩ := eval_operands hall
        cases hfinite : x.isFinite with
        | true => exact ⟨_, .value hparse hall hvalue hfinite⟩
        | false => exact ⟨_, .notFinite hparse hall hvalue hfinite⟩
      · exact ⟨_, .refused hparse hnames hbefore hname⟩

theorem expression_eq_iff
    {outcome : Except FormulaError Float} :
    expression d text = outcome ↔ Evaluates d text outcome := by
  constructor
  · rintro rfl
    obtain ⟨outcome, h⟩ := exists_evaluates d text
    rw [expression_of_evaluates h]
    exact h
  · exact expression_of_evaluates

/-- An expression formula is invalid for one of three reasons. -/
theorem invalid_of_expression
    (h : expression d text = .error .invalid) :
    (∃ err, Expr.parse text = .error err) ∨
      ∃ e, Expr.parse text = .ok e ∧
        ((∃ name ∈ e.fieldNames, field d name = .error .invalid) ∨
          ∃ x, e.eval (reading d) = .ok x ∧ x.isFinite = false) := by
  rw [expression_eq_iff] at h
  cases h with
  | unparsable hparse => exact .inl ⟨_, hparse⟩
  | @refused e _ _ name _ hparse hnames _ hname =>
      cases hname with
      | unreadable hfield =>
          exact .inr ⟨e, hparse, .inl ⟨name, by simp [hnames], hfield⟩⟩
  | notFinite hparse _ hvalue hfinite => exact .inr ⟨_, hparse, .inr ⟨_, hvalue, hfinite⟩⟩

/--
The names of an expression are those in its text, repetitions left out. An expression
cannot be evaluated exactly if one of them is unbound, and then the first of these is the
error; other names do not matter. A formula binds just these names before it evaluates its
expression, and then the evaluation succeeds. So the formula is invalid only because its
text is no expression, because a name cannot be read, or because the value is not finite.
-/
theorem evaluation_by_names :
    (∀ text e, Expr.parse text = .ok e →
      (Token.run text.toList).2 = none ∧
        e.fieldNames = (Token.names (Token.run text.toList).1).eraseDups) ∧
    (∀ e : Expr, e.DecidedByNames) ∧
    (∀ d text e values, Expr.parse text = .ok e → operands d text e.fieldNames = .ok values →
      values.map Prod.fst = e.fieldNames ∧
        ∃ x, (e.eval fun name => values.lookup name) = .ok x) ∧
    (∀ d text outcome, expression d text = outcome ↔ Evaluates d text outcome) ∧
    ∀ d text, expression d text = .error .invalid →
      (∃ err, Expr.parse text = .error err) ∨
        ∃ e, Expr.parse text = .ok e ∧
          ((∃ name ∈ e.fieldNames, field d name = .error .invalid) ∨
            ∃ x, e.eval (reading d) = .ok x ∧ x.isFinite = false) := by
  refine ⟨fun _ _ => Expr.fieldNames_of_parse, Expr.decidedByNames, ?_,
    fun _ _ _ => expression_eq_iff, fun _ _ => invalid_of_expression⟩
  intro d text e values _ hvalues
  obtain ⟨values', x, hvalues', hfst, heval, _⟩ := eval_operands (accepts_of_operands hvalues)
  rw [hvalues] at hvalues'
  cases hvalues'
  exact ⟨hfst, x, heval⟩

end Outcome

end Formula
end LiveForms
