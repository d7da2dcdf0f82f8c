import LiveForms.Session.Keys
import Mathlib.Data.List.Basic

/-!
# Live forms: the edit buffer as a zipper

The cursor of an edit buffer counts bytes. What a user works with are two lists, the
characters before the cursor and the characters after it. A zipper is such a pair; every
zipper has a buffer, and these buffers are the ones whose cursor stands between two
characters. On them the operations of the buffer are the obvious ones on the two lists.

Main definitions:

* `Zipper`, and `Zipper.toBuffer`, the buffer of a zipper.
* `Zipper.press`: what a key makes of a zipper.
* `Key.endsEdit`: the keys that end an edit.

Main statements:

* `EditBuffer.split?_eq_some_iff`, `EditBuffer.isSome_split?_iff`: a buffer can be split
  exactly if it is that of a zipper, and exactly if its cursor is a position of its text.
* `EditBuffer.insert_toBuffer` and its companions: the operations.
-/

namespace LiveForms

/-- A text with a place in it. -/
structure Zipper where
  /-- The characters before the cursor. -/
  before : List Char := []
  /-- The characters after the cursor. -/
  after : List Char := []
deriving DecidableEq, Repr

/-- The keys that end an edit. -/
def Key.endsEdit : Key → Bool
  | .enter => true
  | .tab => true
  | .backTab => true
  | .up => true
  | .down => true
  | .escape => true
  | _ => false

namespace Zipper

def text (z : Zipper) : List Char :=
  z.before ++ z.after

/-- The buffer with the text of a zipper, its cursor behind the characters before it. -/
def toBuffer (z : Zipper) : EditBuffer where
  text := z.text
  cursor := EditBuffer.byteLength z.before

/-- What a key makes of a zipper; keys that do not edit leave it as it is. -/
def press (z : Zipper) : Key → Zipper
  | .char c => ⟨z.before ++ [c], z.after⟩
  | .backspace => ⟨z.before.dropLast, z.after⟩
  | .delete => ⟨z.before, z.after.tail⟩
  | .left => ⟨z.before.dropLast, z.before.getLast?.toList ++ z.after⟩
  | .right => ⟨z.before ++ z.after.head?.toList, z.after.tail⟩
  | .home => ⟨[], z.before ++ z.after⟩
  | .toEnd => ⟨z.before ++ z.after, []⟩
  | _ => z

section Press

variable (z : Zipper)

@[simp] theorem press_char
    (c : Char) :
    z.press (.char c) = ⟨z.before ++ [c], z.after⟩ :=
  rfl

@[simp] theorem press_backspace : z.press .backspace = ⟨z.before.dropLast, z.after⟩ :=
  rfl

@[simp] theorem press_delete : z.press .delete = ⟨z.before, z.after.tail⟩ :=
  rfl

@[simp] theorem press_left :
    z.press .left = ⟨z.before.dropLast, z.before.getLast?.toList ++ z.after⟩ :=
  rfl

@[simp] theorem press_right :
    z.press .right = ⟨z.before ++ z.after.head?.toList, z.after.tail⟩ :=
  rfl

@[simp] theorem press_toEnd : z.press .toEnd = ⟨z.before ++ z.after, []⟩ :=
  rfl

end Press

/-- Whether a key only moves the cursor. -/
def isMove : Key → Bool
  | .left => true
  | .right => true
  | .home => true
  | .toEnd => true
  | _ => false

theorem text_press_of_isMove
    (z : Zipper)
    {key : Key}
    (hkey : isMove key = true) :
    (z.press key).text = z.text := by
  cases key with
  | left =>
      rcases List.eq_nil_or_concat z.before with hbefore | ⟨before, c, hbefore⟩
      · simp [text, hbefore]
      · simp [text, hbefore]
  | right => cases hafter : z.after <;> simp [text, hafter]
  | home => rfl
  | toEnd => simp [text]
  | _ => simp [isMove] at hkey

theorem press_backspace_of_nil
    {z : Zipper}
    (hbefore : z.before = []) :
    z.press .backspace = z := by
  cases z
  cases hbefore
  rfl

theorem press_delete_of_nil
    {z : Zipper}
    (hafter : z.after = []) :
    z.press .delete = z := by
  cases z
  cases hafter
  rfl

end Zipper

namespace EditBuffer

theorem byteLength_append
    (xs ys : List Char) :
    byteLength (xs ++ ys) = byteLength xs + byteLength ys := by
  induction xs with
  | nil => simp [byteLength]
  | cons c xs ih => simp [byteLength, ih, Nat.add_assoc]

theorem byteLength_concat
    (xs : List Char)
    (c : Char) :
    byteLength (xs ++ [c]) = byteLength xs + c.utf8Size := by
  simp [byteLength_append, byteLength]

theorem byteLength_eq
    (cs : List Char) :
    byteLength cs = (String.ofList cs).utf8ByteSize := by
  induction cs with
  | nil => rfl
  | cons c cs ih =>
      rw [byteLength, ih, String.ofList_cons, String.utf8ByteSize_append,
        String.utf8ByteSize_singleton]

section Splitting

theorem splitAtByte_append
    (before after : List Char) :
    splitAtByte (byteLength before) (before ++ after) = some (before, after) := by
  induction before with
  | nil => cases after <;> simp [byteLength, splitAtByte]
  | cons c before ih =>
      have hne : c.utf8Size + byteLength before ≠ 0 := by
        have hpos := c.utf8Size_pos
        omega
      have hle : ¬ c.utf8Size + byteLength before < c.utf8Size := by omega
      rw [List.cons_append, byteLength, splitAtByte, if_neg hne, if_neg hle,
        Nat.add_sub_cancel_left, ih]
      rfl

theorem splitAtByte_eq_some
    {offset : Nat} {text before after : List Char}
    (h : splitAtByte offset text = some (before, after)) :
    text = before ++ after ∧ offset = byteLength before := by
  induction text generalizing offset before after with
  | nil =>
      by_cases hoffset : offset = 0
      · obtain ⟨rfl, rfl⟩ : before = [] ∧ after = [] := by
          simpa [splitAtByte, hoffset, eq_comm] using h
        exact ⟨rfl, hoffset⟩
      · simp [splitAtByte, hoffset] at h
  | cons c cs ih =>
      by_cases hoffset : offset = 0
      · obtain ⟨rfl, rfl⟩ : before = [] ∧ after = c :: cs := by
          simpa [splitAtByte, hoffset, eq_comm] using h
        exact ⟨rfl, hoffset⟩
      · rw [splitAtByte, if_neg hoffset] at h
        split at h
        · simp at h
        · rename_i hle
          obtain ⟨⟨before', after'⟩, hrest, heq⟩ := Option.map_eq_some_iff.mp h
          obtain ⟨rfl, rfl⟩ := Prod.mk.inj heq
          obtain ⟨rfl, hlength⟩ := ih hrest
          refine ⟨rfl, ?_⟩
          rw [byteLength]
          omega

/-- A buffer can be split exactly if its cursor stands between two characters. -/
theorem split?_eq_some_iff
    {b : EditBuffer} {before after : List Char} :
    b.split? = some (before, after) ↔ b = Zipper.toBuffer ⟨before, after⟩ := by
  constructor
  · intro h
    obtain ⟨htext, hcursor⟩ := splitAtByte_eq_some h
    cases b
    simp_all [Zipper.toBuffer, Zipper.text]
  · rintro rfl
    exact splitAtByte_append before after

@[simp] theorem split?_toBuffer
    (z : Zipper) :
    z.toBuffer.split? = some (z.before, z.after) :=
  split?_eq_some_iff.mpr rfl

/-- A buffer can be split where its cursor is a position in the UTF-8 form of its text. -/
theorem isSome_split?_iff
    (b : EditBuffer) :
    b.split?.isSome = true ↔ String.Pos.Raw.IsValid (String.ofList b.text) ⟨b.cursor⟩ := by
  rw [String.Pos.Raw.isValid_iff_exists_append, Option.isSome_iff_exists]
  constructor
  · rintro ⟨⟨before, after⟩, hsplit⟩
    rw [split?_eq_some_iff] at hsplit
    refine ⟨String.ofList before, String.ofList after, ?_, ?_⟩
    · rw [hsplit, ← String.ofList_append]
      rfl
    · rw [hsplit, Zipper.toBuffer, byteLength_eq]
      rfl
  · rintro ⟨s₁, s₂, htext, hcursor⟩
    refine ⟨(s₁.toList, s₂.toList), split?_eq_some_iff.mpr ?_⟩
    have htext' : b.text = s₁.toList ++ s₂.toList := by
      have h := congrArg String.toList htext
      rwa [String.toList_ofList, String.toList_append] at h
    have hcursor' : b.cursor = byteLength s₁.toList := by
      rw [byteLength_eq, String.ofList_toList]
      exact congrArg String.Pos.Raw.byteIdx hcursor
    cases b
    simp_all [Zipper.toBuffer, Zipper.text]

theorem ofText_eq_toBuffer
    (text : List Char) :
    ofText text = Zipper.toBuffer ⟨text, []⟩ := by
  simp [ofText, Zipper.toBuffer, Zipper.text]

end Splitting

section Moves

variable (z : Zipper)

theorem insert_toBuffer
    (c : Char) :
    z.toBuffer.insert c = (z.press (.char c)).toBuffer := by
  rw [insert, split?_toBuffer]
  simp [Zipper.toBuffer, Zipper.text, byteLength_concat]

theorem deleteForward?_toBuffer :
    z.toBuffer.deleteForward? =
      if z.after = [] then none else some (z.press .delete).toBuffer := by
  rw [deleteForward?, split?_toBuffer]
  cases hafter : z.after <;> simp [Zipper.toBuffer, Zipper.text, hafter]

theorem right_toBuffer : z.toBuffer.right = (z.press .right).toBuffer := by
  rw [right, split?_toBuffer]
  cases hafter : z.after <;>
    simp [Zipper.toBuffer, Zipper.text, hafter, byteLength_concat]

theorem home_toBuffer : z.toBuffer.home = (z.press .home).toBuffer :=
  rfl

theorem toEnd_toBuffer : z.toBuffer.toEnd = (z.press .toEnd).toBuffer := by
  simp [toEnd, Zipper.toBuffer, Zipper.text]

theorem behind?_toBuffer :
    z.toBuffer.behind? =
      z.before.getLast?.map fun c => (z.before.dropLast, c, z.after) := by
  rw [behind?, split?_toBuffer]

theorem deleteBackward?_toBuffer :
    z.toBuffer.deleteBackward? =
      if z.before = [] then none else some (z.press .backspace).toBuffer := by
  rw [deleteBackward?, behind?_toBuffer]
  rcases List.eq_nil_or_concat z.before with hbefore | ⟨before, c, hbefore⟩
  · simp [hbefore]
  · simp [hbefore, Zipper.toBuffer, Zipper.text, byteLength_concat]

theorem left_toBuffer : z.toBuffer.left = (z.press .left).toBuffer := by
  rw [left, behind?_toBuffer]
  rcases List.eq_nil_or_concat z.before with hbefore | ⟨before, c, hbefore⟩
  · simp [hbefore, Zipper.toBuffer, Zipper.text]
  · simp [hbefore, Zipper.toBuffer, Zipper.text, byteLength_concat]

end Moves

end EditBuffer
end LiveForms
