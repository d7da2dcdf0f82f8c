import LiveForms.Proofs.Screen.Layout
import LiveForms.Screen.Frame

/-!
# Live forms: what is scrolled into view

Two boxes of the screen scroll. The box of the page is scrolled as far as it needs to show
the line of the focus, by a number of sixteen bits. The box of the help text is scrolled by
keys: they move a position that has no upper bound, and the box shows the text from there on,
or its last lines if the position is behind them.

So the line of the focus is shown as long as its distance fits into sixteen bits, and then no
more. A key that scrolls the help text up moves what is shown only once it has made up for
what other keys scrolled past the end.

Main definitions:

* `Screen.InView`: the lines that a page box shows.
* `Screen.helpTop`, `Screen.overscroll`: the first line of the help text that a box shows,
  and how far the position is past it.
* `Screen.HelpScrolls`: what keys do to these two.
* `Key.helpUp`, `Key.helpDown`, `Stroke.totalUp`: how far keys scroll the help text.

Main statements:

* `Screen.getElem?_pageBox`, `Screen.getElem?_helpBox`: the rows of the two boxes.
* `Screen.inView_focusLine_iff`: when sixteen bits are enough.
* `Screen.focusShown_pressAll`: when the control with the focus is shown.
* `Screen.helpTop_stroke`, `Screen.helpTop_of_helpUp`: what one key does to the help text,
  and keys that scroll up one after the other.
* `Screen.helpTop_pressAll`: all this in every session that keys lead to.
-/

namespace LiveForms

namespace Key

/-- By how many lines a key scrolls the help text up. -/
def helpUp : Key → Nat
  | .up => 1
  | .char 'k' => 1
  | .pageUp => 5
  | _ => 0

/-- By how many lines a key scrolls the help text down. -/
def helpDown : Key → Nat
  | .down => 1
  | .char 'j' => 1
  | .pageDown => 5
  | _ => 0

theorem helpUp_eq_zero_or_helpDown_eq_zero
    (key : Key) :
    key.helpUp = 0 ∨ key.helpDown = 0 := by
  unfold helpUp helpDown
  split <;> simp

end Key

/-- By how many lines keys scroll the help text up in all. -/
def Stroke.totalUp : List Stroke → Nat
  | [] => 0
  | k :: ks => k.key.helpUp + totalUp ks

namespace Session

variable {m : Markup} {s : Session} {k : Stroke}

/-- A key in help mode, other than the one for the start, moves the position by its lines. -/
theorem helpScroll_stroke
    (hmode : s.mode = .help)
    (hkey : k.key ≠ .home) :
    (s.stroke k).helpScroll = s.helpScroll - k.key.helpUp + k.key.helpDown := by
  rw [stroke, press, hmode]
  dsimp only
  unfold pressHelp
  split
  case h_11 hhome => exact absurd hhome hkey
  case h_12 =>
    have hstill : k.key.helpUp = 0 ∧ k.key.helpDown = 0 := by
      unfold Key.helpUp Key.helpDown
      split <;> split <;> simp_all
    rw [hstill.1, hstill.2]
    rfl
  all_goals
    rename_i hname
    rw [hname]
    rfl

/-- A key that scrolls up does nothing else. -/
theorem stroke_of_helpUp
    (hmode : s.mode = .help)
    (hkey : 0 < k.key.helpUp) :
    s.stroke k = s.scrollHelp (s.helpScroll - k.key.helpUp) := by
  rw [stroke, press, hmode]
  dsimp only
  unfold Key.helpUp at hkey ⊢
  split at hkey
  case h_4 => exact absurd hkey (Nat.lt_irrefl 0)
  all_goals
    rename_i hname
    rw [hname]
    rfl

/-- Keys that scroll up add to one step. -/
theorem pressAll_of_helpUp
    {ups : List Stroke}
    (hmode : s.mode = .help)
    (hups : ∀ k ∈ ups, 0 < k.key.helpUp) :
    s.pressAll ups = s.scrollHelp (s.helpScroll - Stroke.totalUp ups) := by
  induction ups generalizing s with
  | nil => rfl
  | cons k ups ih =>
      obtain ⟨hk, hups⟩ := List.forall_mem_cons.mp hups
      have hnext : s.pressAll (k :: ups) = (s.stroke k).pressAll ups := rfl
      have hmode' : (s.scrollHelp (s.helpScroll - k.key.helpUp)).mode = .help := hmode
      rw [hnext, stroke_of_helpUp hmode hk, ih hmode' hups, Stroke.totalUp, Nat.sub_add_eq]
      rfl

/-- The help text opens at its first line. -/
theorem helpScroll_of_opened
    (hup : s.UpToDate m)
    (h : s.Idle ∨ ∃ n z, s.Edits n z)
    (hclosed : s.mode ≠ .help)
    (hopen : (s.stroke k).mode = .help) :
    (s.stroke k).helpScroll = 0 := by
  rcases h with hidle | ⟨n, z, hedits⟩
  · have hmode : s.mode = .normal := by
      cases hmode : s.mode with
      | normal => rfl
      | editing => exact absurd hmode hidle.mode
      | help => exact absurd hmode hclosed
    have hcommand : s.Command (s.stroke k) := command_press s hmode k.clipboard k.key k.mods
    generalize s.stroke k = s' at hcommand hopen ⊢
    cases hcommand with
    | moved => exact absurd hopen hclosed
    | added => exact absurd hopen hclosed
    | removed => exact absurd hopen hclosed
    | cleared => exact absurd hopen hclosed
    | started hn =>
        obtain ⟨text, hedits⟩ := edits_startEditing hn
        rw [hedits.mode] at hopen
        cases hopen
    | @startedWith n c hn =>
        obtain ⟨text, hedits⟩ := edits_startEditing hn
        rw [insertChar, hedits.buffer, EditBuffer.insert_toBuffer,
          (edits_change hup.startEditing hedits.mode hedits.focusedInput?).mode] at hopen
        cases hopen
    | helped => rfl
  · rw [stroke, press, hedits.mode] at hopen
    dsimp only at hopen
    cases hkey : k.key.endsEdit with
    | false =>
        rw [(hedits.pressEditing hup hkey).mode] at hopen
        cases hopen
    | true =>
        rw [(normal_of_endsEdit s hkey).1] at hopen
        cases hopen

end Session

namespace Screen

/-- A row of a page box, which shows a line of the page or is empty. -/
def pageRow (width : Nat) (line? : Option PageLine) : List Cell :=
  borderedRow width .plain "│" "│"
    (fit (width - 2) .plain ((line?.map fun line => lineCells .plain line.spans).getD []))

/-- A row of a help box, which shows a line of the help text or is empty. -/
def helpRow (width : Nat) (line? : Option String) : List Cell :=
  borderedRow width (.ink .cyan) "│" "│"
    (fit (width - 2) (.ink .white) ((line?.map (textCells (.ink .white))).getD []))

/-- A page box of some height shows the line with a number. -/
def InView (s : Session) (height line : Nat) : Prop :=
  pageScroll (focusLine (pageLines s)) height ≤ line ∧
    line < pageScroll (focusLine (pageLines s)) height + (height - 2)

/-- The last line with which a help box of some height can start. -/
def lastTop (height : Nat) : Nat :=
  helpText.length - (height - 2)

/-- The first line that a help box of some height shows. -/
def helpTop (s : Session) (height : Nat) : Nat :=
  helpStart s.helpScroll (height - 2)

/-- By how many lines the help text was scrolled past the end. -/
def overscroll (s : Session) (height : Nat) : Nat :=
  s.helpScroll - lastTop height

/-- What the next keys do to a help text that is open. -/
structure HelpScrolls (s : Session) (height : Nat) : Prop where
  atStart : ∀ k : Stroke, k.key = .home →
    helpTop (s.stroke k) height = 0 ∧ overscroll (s.stroke k) height = 0
  /-- Lines past the end are made up for before what is shown moves up, and what is scrolled
  down further than to the end adds to them. -/
  moved : ∀ k : Stroke, k.key ≠ .home →
    helpTop (s.stroke k) height =
        min (helpTop s height - (k.key.helpUp - overscroll s height) + k.key.helpDown)
          (lastTop height) ∧
      overscroll (s.stroke k) height =
        overscroll s height - k.key.helpUp +
          (k.key.helpDown - (lastTop height - helpTop s height))
  /-- So keys that scroll up one after the other move it by what is left of them. -/
  movedUp : ∀ ups : List Stroke, (∀ k ∈ ups, 0 < k.key.helpUp) →
    helpTop (s.pressAll ups) height =
      helpTop s height - (Stroke.totalUp ups - overscroll s height)
  /-- A single step is lost as long as there is a line past the end. -/
  stepped : ∀ k : Stroke, k.key = .up ∨ k.key = .char 'k' → helpTop s height ≠ 0 →
    (helpTop (s.stroke k) height + 1 = helpTop s height ↔ overscroll s height = 0)

section Rows

/-- Inside its border a box shows its rows from the first on, and then empty ones. -/
theorem getElem?_boxed
    {width height i : Nat}
    (frame ground : Style)
    (title : String)
    (rows : List (List Cell))
    (hi : i < height - 2) :
    (boxed width height frame ground title rows)[i + 1]? =
      some (borderedRow width frame "│" "│" (fit (width - 2) ground (rows[i]?.getD []))) := by
  have hinner : ((rows ++ List.replicate (height - 2) []).take (height - 2))[i]? =
      some (rows[i]?.getD []) := by
    rw [List.getElem?_take_of_lt hi]
    by_cases hrow : i < rows.length
    · rw [List.getElem?_append_left hrow, List.getElem?_eq_getElem hrow, Option.getD_some]
    · have hrest : i - rows.length < height - 2 := by omega
      rw [List.getElem?_append_right (by omega), List.getElem?_replicate_of_lt hrest,
        List.getElem?_eq_none (by omega), Option.getD_none]
  have hmiddle := congrArg (Option.map fun row =>
    borderedRow width frame "│" "│" (fit (width - 2) ground row)) hinner
  rw [← List.getElem?_map, Option.map_some] at hmiddle
  obtain ⟨hlength, -⟩ := List.getElem?_eq_some_iff.mp hmiddle
  simp only [boxed]
  rw [List.getElem?_take_of_lt (by omega), List.getElem?_cons_succ,
    List.getElem?_append_left hlength, hmiddle]

/-- A page box shows the lines of the page from its scroll offset on. -/
theorem getElem?_pageBox
    (s : Session)
    (width : Nat)
    {height i : Nat}
    (hi : i < height - 2) :
    (pageBox s width height)[i + 1]? =
      some (pageRow width
        (pageLines s)[pageScroll (focusLine (pageLines s)) height + i]?) := by
  simp only [pageBox]
  rw [getElem?_boxed _ _ _ _ hi, List.getElem?_map, List.getElem?_drop]
  rfl

/-- A help box shows the lines of the help text from its first one on. -/
theorem getElem?_helpBox
    (s : Session)
    (width : Nat)
    {height i : Nat}
    (hi : i < height - 2) :
    (helpBox s.helpScroll width height)[i + 1]? =
      some (helpRow width helpText[helpTop s height + i]?) := by
  simp only [helpBox]
  rw [getElem?_boxed _ _ _ _ hi, List.getElem?_map, List.getElem?_drop]
  rfl

end Rows

section Page

/--
The line of the focus is shown exactly if that takes no more than 65535 lines to be scrolled
past, the largest number of sixteen bits.
-/
theorem inView_focusLine_iff
    (s : Session)
    {height : Nat}
    (hheight : 0 < height - 2) :
    InView s height (focusLine (pageLines s)) ↔
      focusLine (pageLines s) < height - 2 + 65535 := by
  have hbits : Nat.pow 2 16 = 65536 := rfl
  simp only [InView, pageScroll, scrollFor, hheight, true_and, hbits]
  split <;> omega

example : pageScroll 65535 3 = 65535 ∧ pageScroll 65536 3 = 0 := by decide

/--
Every page opens, and whatever keys are pressed after that: a page box shows the lines of the
page from the scroll offset on. If the control with the focus is drawn, exactly one line draws
it, and a box with room for a line shows that one exactly if no more than 65535 lines have to
be scrolled past for it. If the control is not drawn, as it is below another one, the box is
not scrolled.
-/
theorem focusShown_pressAll
    (page : Page)
    (m : Markup)
    (strokes : List Stroke) :
    ∃ opened reached,
      Session.ofPage page m = .ok opened ∧
      opened.pressAll strokes = reached ∧
      ∀ height, 0 < height - 2 →
        (∀ width i, i < height - 2 →
          (pageBox reached width height)[i + 1]? =
            some (pageRow width
              (pageLines reached)[pageScroll (focusLine (pageLines reached)) height + i]?)) ∧
        ∀ n, reached.focused? = some n →
          (isOutermost reached n = true →
            ∃ line, (∀ i, DrawnAt reached n i ↔ i = line) ∧
              (InView reached height line ↔ line < height - 2 + 65535)) ∧
          (isOutermost reached n = false →
            (∀ i, ¬ DrawnAt reached n i) ∧
              pageScroll (focusLine (pageLines reached)) height = 0) := by
  obtain ⟨opened, hopened, hfirst⟩ := Session.ofPage_spec page m
  have h := (hfirst.pressAll strokes).settled.wellFormed
  refine ⟨opened, _, hopened, rfl, fun height hheight => ⟨?_, fun n hn => ⟨?_, ?_⟩⟩⟩
  · intro width i hi
    exact getElem?_pageBox _ width hi
  · intro houter
    exact ⟨_, fun i => drawnAt_iff h hn houter, inView_focusLine_iff _ hheight⟩
  · intro hinner
    have hfirst : focusLine (pageLines (opened.pressAll strokes)) = 0 := by
      apply focusLine_eq_zero h
      intro n' hn'
      obtain rfl : n = n' := Option.some.inj (hn.symm.trans hn')
      exact hinner
    refine ⟨not_drawnAt h hinner, ?_⟩
    rw [hfirst, pageScroll, scrollFor, if_neg (by omega)]

end Page

section Help

variable {s : Session} {k : Stroke} (height : Nat)

theorem helpTop_eq
    (s : Session) :
    helpTop s height = min s.helpScroll (lastTop height) :=
  rfl

theorem helpTop_of_helpScroll_zero
    (hposition : s.helpScroll = 0) :
    helpTop s height = 0 ∧ overscroll s height = 0 := by
  simp [helpTop_eq, overscroll, hposition]

theorem helpTop_stroke
    (hmode : s.mode = .help)
    (hkey : k.key ≠ .home) :
    helpTop (s.stroke k) height =
        min (helpTop s height - (k.key.helpUp - overscroll s height) + k.key.helpDown)
          (lastTop height) ∧
      overscroll (s.stroke k) height =
        overscroll s height - k.key.helpUp +
          (k.key.helpDown - (lastTop height - helpTop s height)) := by
  have hposition := Session.helpScroll_stroke hmode hkey
  have hway := k.key.helpUp_eq_zero_or_helpDown_eq_zero
  simp only [helpTop_eq, overscroll, hposition]
  omega

/-- Keys that scroll up move what is shown by what is left of them. -/
theorem helpTop_of_helpUp
    {ups : List Stroke}
    (hmode : s.mode = .help)
    (hups : ∀ k ∈ ups, 0 < k.key.helpUp) :
    helpTop (s.pressAll ups) height =
      helpTop s height - (Stroke.totalUp ups - overscroll s height) := by
  rw [Session.pressAll_of_helpUp hmode hups]
  simp only [helpTop_eq, overscroll, Session.scrollHelp]
  omega

/-- A single step up moves what is shown exactly if nothing lies past the end. -/
theorem helpTop_up_iff
    (hmode : s.mode = .help)
    (hkey : k.key.helpUp = 1)
    (htop : helpTop s height ≠ 0) :
    helpTop (s.stroke k) height + 1 = helpTop s height ↔ overscroll s height = 0 := by
  have hups : ∀ j ∈ [k], 0 < j.key.helpUp := by simp [hkey]
  have hone : s.pressAll [k] = s.stroke k := rfl
  have hup := helpTop_of_helpUp height hmode hups
  rw [hone, Stroke.totalUp, Stroke.totalUp, hkey] at hup
  omega

theorem helpScrolls_of_help
    (hmode : s.mode = .help) :
    HelpScrolls s height where
  atStart k hkey := by
    apply helpTop_of_helpScroll_zero
    rw [Session.stroke, Session.press, hmode, hkey]
    rfl
  moved _ hkey := helpTop_stroke height hmode hkey
  movedUp _ hups := helpTop_of_helpUp height hmode hups
  stepped k hkey htop := by
    have hone : k.key.helpUp = 1 := by
      rcases hkey with hkey | hkey <;> rw [hkey] <;> rfl
    exact helpTop_up_iff height hmode hone htop

end Help

/--
Every page opens, and whatever keys are pressed after that: a help box shows the help text
from its first line on, and the help text opens at its start with nothing past the end. While
it is open, keys scroll down past the end without a bound, and what they scrolled past it is
lost for the keys that scroll up. So a step up moves the first line that is shown exactly if
nothing lies past the end.
-/
theorem helpTop_pressAll
    (page : Page)
    (m : Markup)
    (strokes : List Stroke) :
    ∃ opened reached,
      Session.ofPage page m = .ok opened ∧
      opened.pressAll strokes = reached ∧
      ∀ height,
        (∀ width i, i < height - 2 →
          (helpBox reached.helpScroll width height)[i + 1]? =
            some (helpRow width helpText[helpTop reached height + i]?)) ∧
        (reached.mode ≠ .help → ∀ k, (reached.stroke k).mode = .help →
          helpTop (reached.stroke k) height = 0 ∧ overscroll (reached.stroke k) height = 0) ∧
        (reached.mode = .help → HelpScrolls reached height) := by
  obtain ⟨opened, hopened, hfirst, hidle⟩ := Session.ofPage_idle page m
  have hup := hfirst.pressAll strokes
  have hstate := Session.idle_or_edits_pressAll hfirst (.inl hidle) strokes
  refine ⟨opened, _, hopened, rfl, fun height => ⟨?_, ?_, helpScrolls_of_help height⟩⟩
  · intro width i hi
    exact getElem?_helpBox _ width hi
  · intro hclosed k hopen
    exact helpTop_of_helpScroll_zero height
      (Session.helpScroll_of_opened hup hstate hclosed hopen)

end Screen
end LiveForms
