import LiveForms.Proofs.Expr.Parsing

/-!
# Live forms: texts without the blanks around them

Trimming a text takes away its leading and trailing blanks. There is one text that this can
leave: it neither starts nor ends with a blank, and only blanks stand around it.

Main definition:

* `Text.IsTrimmed`: what is left of a text without the blanks at both ends.

Main statements:

* `Text.trim_eq_iff`: trimming leaves this, and it is the only text of this kind.
* `Text.exists_trim_append`: trimming a text with another one in front of it.
-/

namespace LiveForms
namespace Text

open Grammar (Blanks)

/-- A text between blanks that neither starts nor ends with one. -/
inductive IsTrimmed : List Char → List Char → Prop
  | intro
      {before visible after : List Char}
      (hbefore : Blanks before)
      (hafter : Blanks after)
      (hhead : ∀ c ∈ visible.head?, isBlank c = false)
      (hlast : ∀ c ∈ visible.getLast?, isBlank c = false) :
      IsTrimmed (before ++ (visible ++ after)) visible

theorem trimStart_append
    {blanks visible : List Char}
    (hblanks : Blanks blanks)
    (hhead : ∀ c ∈ visible.head?, isBlank c = false) :
    trimStart (blanks ++ visible) = visible :=
  (Grammar.span_run hblanks hhead).2

theorem blanks_reverse
    {blanks : List Char}
    (h : Blanks blanks) :
    Blanks blanks.reverse :=
  fun c hc => h c (List.mem_reverse.mp hc)

theorem trim_of_isTrimmed
    {cs visible : List Char}
    (h : IsTrimmed cs visible) :
    trim cs = visible := by
  obtain ⟨hbefore, hafter, hhead, hlast⟩ := h
  rename_i before after
  cases visible with
  | nil =>
      have hblanks : Blanks (before ++ after) := List.forall_mem_append.mpr ⟨hbefore, hafter⟩
      have hnone : trimStart (before ++ after ++ []) = [] := trimStart_append hblanks (by simp)
      rw [List.append_nil] at hnone
      rw [List.nil_append, trim, hnone]
      rfl
  | cons c cs =>
      have hstart : trimStart (before ++ (c :: cs ++ after)) = c :: cs ++ after :=
        trimStart_append hbefore (by simpa using hhead)
      have hend : trimStart (after.reverse ++ (c :: cs).reverse) = (c :: cs).reverse := by
        refine trimStart_append (blanks_reverse hafter) ?_
        rwa [List.head?_reverse]
      rw [trim, hstart, List.reverse_append, hend, List.reverse_reverse]

/-- What stands in front of the trailing blanks. -/
theorem exists_trailing_blanks
    (cs : List Char) :
    ∃ visible blanks, cs = visible ++ blanks ∧ Blanks blanks ∧
      ∀ c ∈ visible.getLast?, isBlank c = false := by
  obtain ⟨blanks, visible, heq, hblanks, hhead⟩ := Grammar.exists_blanks cs.reverse
  refine ⟨visible.reverse, blanks.reverse, ?_, blanks_reverse hblanks, ?_⟩
  · rw [← List.reverse_append, ← heq, List.reverse_reverse]
  · rwa [List.getLast?_reverse]

theorem isTrimmed_trim
    (cs : List Char) :
    IsTrimmed cs (trim cs) := by
  obtain ⟨before, visible, rfl, hbefore, hhead⟩ := Grammar.exists_blanks cs
  obtain ⟨visible, after, rfl, hafter, hlast⟩ := exists_trailing_blanks visible
  have htrimmed : IsTrimmed (before ++ (visible ++ after)) visible := by
    refine .intro hbefore hafter (fun c hc => hhead c ?_) hlast
    obtain ⟨cs, rfl⟩ := List.head?_eq_some_iff.mp hc
    rfl
  rwa [trim_of_isTrimmed htrimmed]

/-- Trimming takes away the blanks at both ends, and nothing else. -/
theorem trim_eq_iff
    {cs visible : List Char} :
    trim cs = visible ↔ IsTrimmed cs visible := by
  constructor
  · rintro rfl
    exact isTrimmed_trim cs
  · exact trim_of_isTrimmed

theorem IsTrimmed.head
    {cs visible : List Char}
    (h : IsTrimmed cs visible) :
    ∀ c ∈ visible.head?, isBlank c = false := by
  obtain ⟨-, -, hhead, -⟩ := h
  exact hhead

theorem IsTrimmed.last
    {cs visible : List Char}
    (h : IsTrimmed cs visible) :
    ∀ c ∈ visible.getLast?, isBlank c = false := by
  obtain ⟨-, -, -, hlast⟩ := h
  exact hlast

/-- A text without blanks has none to lose. -/
theorem trim_eq_self
    {cs : List Char}
    (h : ∀ c ∈ cs, isBlank c = false) :
    trim cs = cs := by
  have hnone : Blanks [] := by simp [Blanks]
  have htrimmed := IsTrimmed.intro hnone hnone
    (fun c hc => h c (List.mem_of_head? hc)) (fun c hc => h c (List.mem_of_getLast? hc))
  rw [List.nil_append, List.append_nil] at htrimmed
  exact trim_of_isTrimmed htrimmed

/-- Behind a text that is trimmed, only the trailing blanks are lost. -/
theorem exists_trim_append
    {cs visible : List Char}
    (h : IsTrimmed cs visible)
    (hne : visible ≠ [])
    (more : List Char) :
    ∃ kept blanks, more = kept ++ blanks ∧ trim (visible ++ more) = visible ++ kept := by
  obtain ⟨kept, blanks, rfl, hblanks, hlast⟩ := exists_trailing_blanks more
  refine ⟨kept, blanks, rfl, ?_⟩
  have hnone : Blanks [] := by simp [Blanks]
  have hhead : ∀ c ∈ (visible ++ kept).head?, isBlank c = false := by
    rw [List.head?_append_of_ne_nil _ hne]
    exact h.head
  have hlast : ∀ c ∈ (visible ++ kept).getLast?, isBlank c = false := by
    cases kept with
    | nil =>
        rw [List.append_nil]
        exact h.last
    | cons c kept =>
        rw [List.getLast?_append_of_ne_nil _ (List.cons_ne_nil c kept)]
        exact hlast
  have htrimmed := IsTrimmed.intro hnone hblanks hhead hlast
  rw [List.nil_append, List.append_assoc] at htrimmed
  exact trim_of_isTrimmed htrimmed

end Text
end LiveForms
