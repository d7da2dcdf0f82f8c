import LiveForms.Proofs.Session.Editing

/-!
# Live forms: the text that draws a control

An input is drawn between brackets: while it is edited as its text, with a space for a cursor
at the end, and otherwise as its value or, if it has none, as its placeholder, filled up with
spaces. A button stands between brackets with a space inside of them, and a formula behind an
equals sign. A label may stand in front of all that, filled up with spaces and with one more
space behind it.

None of this mentions the pieces that a control is drawn from. They are joined here, so that
what stands on a page can be said character by character.

Main definitions:

* `Text.IsPadded`: a text filled up to a least width.
* `Screen.FaceText`: the text of a control without its label.
* `Screen.ControlText`: the text of a control, with its label if it has one and shows it.

Main statements:

* `Screen.spansText_faceSpans`, `Screen.exists_faceText`: every control has one such text.
* `Screen.controlText_iff`: the text that draws a control.
-/

namespace LiveForms
namespace Text

/-- A text with the spaces behind it that it lacks to a least width, and no others. -/
inductive IsPadded (width : Nat) (cs : List Char) : List Char → Prop
  | wide
      (hwidth : width ≤ cs.length) :
      IsPadded width cs cs
  | filled
      {blanks : List Char}
      (hblanks : ∀ c ∈ blanks, c = ' ')
      (hwidth : cs.length + blanks.length = width) :
      IsPadded width cs (cs ++ blanks)

theorem toList_padRight
    (width : Nat)
    (s : String) :
    (padRight width s).toList = s.toList ++ List.replicate (width - s.toList.length) ' ' := by
  rw [padRight, String.toList_append, String.toList_ofList, String.length_toList]

theorem toList_padRight_of_isPadded
    {width : Nat} {s : String} {cs : List Char}
    (h : IsPadded width s.toList cs) :
    (padRight width s).toList = cs := by
  rw [toList_padRight]
  cases h with
  | wide hwidth => rw [Nat.sub_eq_zero_of_le hwidth, List.replicate_zero, List.append_nil]
  | filled hblanks hwidth =>
      rw [← hwidth, Nat.add_sub_cancel_left, List.eq_replicate_of_mem hblanks,
        List.length_replicate]

theorem isPadded_padRight
    (width : Nat)
    (s : String) :
    IsPadded width s.toList (padRight width s).toList := by
  rw [toList_padRight]
  by_cases hwidth : width ≤ s.toList.length
  · rw [Nat.sub_eq_zero_of_le hwidth, List.replicate_zero, List.append_nil]
    exact .wide hwidth
  · refine .filled (fun c hc => List.eq_of_mem_replicate hc) ?_
    rw [List.length_replicate]
    omega

end Text

namespace Screen

open Text (IsPadded)

/-- Pieces of text, one behind the other. -/
def spansText (spans : List Span) : List Char :=
  spans.flatMap fun span => span.text.toList

@[simp] theorem spansText_nil : spansText [] = [] :=
  rfl

@[simp] theorem spansText_cons
    (span : Span)
    (spans : List Span) :
    spansText (span :: spans) = span.text.toList ++ spansText spans :=
  rfl

theorem spansText_append
    (xs ys : List Span) :
    spansText (xs ++ ys) = spansText xs ++ spansText ys :=
  List.flatMap_append

/-- The text of a control without its label. -/
inductive FaceText (s : Session) (n : NodeId) (e : Element) : List Char → Prop
  | edited
      {z : Zipper}
      (hinput : e.isInput = true)
      (hedits : s.Edits n z) :
      FaceText s n e ('[' :: (z.text ++ (if z.after = [] then [' '] else []) ++ [']']))
  | held
      {padded : List Char}
      (hinput : e.isInput = true)
      (hidle : ∀ z, ¬ s.Edits n z)
      (hvalue : e.value ≠ "")
      (hpadded : IsPadded 10 e.value.toList padded) :
      FaceText s n e ('[' :: (padded ++ [']']))
  | hint
      {padded : List Char}
      (hinput : e.isInput = true)
      (hidle : ∀ z, ¬ s.Edits n z)
      (hvalue : e.value = "")
      (hpadded : IsPadded 10 (e.placeholder.getD "").toList padded) :
      FaceText s n e ('[' :: (padded ++ [']']))
  | button
      (hbutton : e.isButton = true) :
      FaceText s n e ('[' :: ' ' :: (e.text.toList ++ [' ', ']']))
  | formula
      (hinput : e.isInput = false)
      (hbutton : e.isButton = false) :
      FaceText s n e ('=' :: ' ' :: e.text.toList)

/-- The text of a control, which may be drawn with its label. -/
inductive ControlText (s : Session) (n : NodeId) (e : Element) (withLabel : Bool) :
    List Char → Prop
  | bare
      {face : List Char}
      (hlabel : withLabel = true → e.label = none)
      (hface : FaceText s n e face) :
      ControlText s n e withLabel face
  | labelled
      {label : String} {padded face : List Char}
      (hwith : withLabel = true)
      (hlabel : e.label = some label)
      (hpadded : IsPadded 14 label.toList padded)
      (hface : FaceText s n e face) :
      ControlText s n e withLabel (padded ++ ' ' :: face)

section Faces

variable {s : Session} {n : NodeId} {e : Element}

/-- Every control has a text, whatever is being edited. -/
theorem exists_faceText
    (s : Session)
    (n : NodeId)
    (e : Element) :
    ∃ face, FaceText s n e face := by
  cases hinput : e.isInput with
  | true =>
      by_cases hedits : ∃ z, s.Edits n z
      · obtain ⟨z, hz⟩ := hedits
        exact ⟨_, .edited hinput hz⟩
      · rw [not_exists] at hedits
        by_cases hvalue : e.value = ""
        · exact ⟨_, .hint hinput hedits hvalue (Text.isPadded_padRight _ _)⟩
        · exact ⟨_, .held hinput hedits hvalue (Text.isPadded_padRight _ _)⟩
  | false =>
      cases hbutton : e.isButton with
      | true => exact ⟨_, .button hbutton⟩
      | false => exact ⟨_, .formula hinput hbutton⟩

/-- An input that is not being edited does not have the focus during an edit. -/
theorem not_editing_of_not_edits
    (hkinds : s.Idle ∨ ∃ n z, s.Edits n z)
    (hnot : ∀ z, ¬ s.Edits n z) :
    (s.isFocused n && decide (s.mode = .editing)) = false := by
  rw [Bool.and_eq_false_iff, decide_eq_false_iff_not]
  rcases hkinds with hidle | ⟨edited, z, hedits⟩
  · exact .inr hidle.mode
  · refine .inl ?_
    rw [Session.isFocused, decide_eq_false_iff_not, hedits.focused]
    intro hsame
    exact hnot z (Option.some.inj hsame ▸ hedits)

theorem spansText_valueSpans
    (e : Element)
    (focused : Bool) :
    spansText (valueSpans e focused) =
      '[' :: ((Text.padRight 10 (if e.value = "" then e.placeholder.getD "" else e.value)).toList
        ++ [']']) := by
  rw [valueSpans]
  split
  · simp [inputWidth]
  · simp [inputWidth]

/-- The pieces that draw a control make up its text. -/
theorem spansText_faceSpans
    (hkinds : s.Idle ∨ ∃ n z, s.Edits n z)
    {face : List Char}
    (h : FaceText s n e face) :
    spansText (faceSpans s n e) = face := by
  cases h with
  | @edited z hinput hedits =>
      have hfocused : s.isFocused n = true := by rw [Session.isFocused, hedits.focused]; simp
      rw [faceSpans, if_pos hinput, inputSpans, hfocused, hedits.mode, hedits.buffer]
      cases hafter : z.after <;> simp [bufferSpans, Zipper.text, hafter]
  | held hinput hidle hvalue hpadded =>
      rw [faceSpans, if_pos hinput, inputSpans, not_editing_of_not_edits hkinds hidle,
        if_neg Bool.false_ne_true, spansText_valueSpans, if_neg hvalue,
        Text.toList_padRight_of_isPadded hpadded]
  | hint hinput hidle hvalue hpadded =>
      rw [faceSpans, if_pos hinput, inputSpans, not_editing_of_not_edits hkinds hidle,
        if_neg Bool.false_ne_true, spansText_valueSpans, if_pos hvalue,
        Text.toList_padRight_of_isPadded hpadded]
  | button hbutton =>
      have hinput := Element.isInput_of_isButton hbutton
      simp [faceSpans, hinput, hbutton, buttonSpans]
  | formula hinput hbutton => simp [faceSpans, hinput, hbutton, formulaSpans]

/-- What stands in front of a control is its label, if it has one and shows it. -/
theorem spansText_controlSpans
    (s : Session)
    (n : NodeId)
    (e : Element)
    (withLabel : Bool) :
    spansText (controlSpans s n e withLabel) =
      (if withLabel then
        e.label.elim [] fun label => (Text.padRight 14 label).toList ++ [' ']
      else
        []) ++ spansText (faceSpans s n e) := by
  rw [controlSpans, spansText_append]
  congr 1
  cases withLabel with
  | false => rfl
  | true => cases hlabel : e.label <;> simp [labelSpans, labelWidth, hlabel]

/-- The text that draws a control. -/
theorem controlText_iff
    (hkinds : s.Idle ∨ ∃ n z, s.Edits n z)
    {withLabel : Bool} {text : List Char} :
    spansText (controlSpans s n e withLabel) = text ↔ ControlText s n e withLabel text := by
  rw [spansText_controlSpans]
  constructor
  · rintro rfl
    obtain ⟨face, hface⟩ := exists_faceText s n e
    rw [spansText_faceSpans hkinds hface]
    cases withLabel with
    | false => exact .bare (fun hwith => absurd hwith Bool.false_ne_true) hface
    | true =>
        cases hlabel : e.label with
        | none => exact .bare (fun _ => hlabel) hface
        | some label =>
            have htext := ControlText.labelled rfl hlabel (Text.isPadded_padRight 14 label) hface
            simpa using htext
  · intro h
    cases h with
    | bare hlabel hface =>
        rw [spansText_faceSpans hkinds hface]
        cases withLabel with
        | false => rfl
        | true => simp [hlabel rfl]
    | labelled hwith hlabel hpadded hface =>
        rw [spansText_faceSpans hkinds hface, if_pos hwith, hlabel, Option.elim_some,
          Text.toList_padRight_of_isPadded hpadded, List.append_assoc, List.singleton_append]

end Faces

end Screen
end LiveForms
