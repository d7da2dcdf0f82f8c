import LiveForms.Proofs.Screen.Controls

/-!
# Live forms: what the lines of a page show

The lines of a page come from one walk through its document, which stops at every control
and lets the controls of an unlabelled container share a line. The controls that can have
the focus come from another walk, which stops nowhere. This module lays the first beside the
second: the controls that are drawn are those without a control above them, in the same
order, and each of them once.

A layout says of every line what it holds. It is taken from the same walk, gives back the
lines, and lists the drawings of controls on each.

Main definitions:

* `Screen.LineContent`, `Screen.pageLayout`: what every line of a page holds.
* `Screen.isOutermost`, `Screen.showsLabel`: which controls are drawn, and which with their
  label.
* `Screen.drawPage`: the page as it is drawn node by node, with the line of the focus.

Main statements:

* `Screen.pageLines_eq`: the lines of a page are those of its layout.
* `Screen.drawings_pageLayout`: the drawings of controls, as they follow on a page.
* `Screen.drawnAt_iff`: the line of the focus is the one that draws it.
* `Screen.drawings_pressAll`: all this in every session that keys lead to.
-/

namespace LiveForms
namespace Screen

/-- The drawing of a control, and whether its label belongs to it. -/
structure Drawing where
  node : NodeId
  withLabel : Bool
deriving DecidableEq, Repr

/-- What a line of a page holds. -/
inductive LineContent where
  /-- A label or a text, or nothing at all. -/
  | text (spans : List Span)
  /-- A control by itself. -/
  | control (depth : Nat) (n : NodeId)
  /-- Controls that share the line. -/
  | shared (depth : Nat) (ns : List NodeId)
deriving DecidableEq, Repr

/-- The pieces of text that draw a control. -/
def Drawing.spans (s : Session) (x : Drawing) : List Span :=
  match s.document.element? x.node with
  | some e => controlSpans s x.node e x.withLabel
  | none => []

namespace LineContent

/-- The drawings on a line, from left to right. -/
def drawings : LineContent → List Drawing
  | text _ => []
  | control _ n => [⟨n, true⟩]
  | shared _ ns => ns.map (⟨·, false⟩)

/-- The pieces of text on a line. -/
def spans (s : Session) : LineContent → List Span
  | text spans => spans
  | control depth n => ⟨indent depth, .plain⟩ :: Drawing.spans s ⟨n, true⟩
  | shared depth ns =>
      ⟨indent depth, .plain⟩ ::
        ns.flatMap fun n => Drawing.spans s ⟨n, false⟩ ++ [⟨" ", .plain⟩]

/-- The line itself. -/
def line (s : Session) (x : LineContent) : PageLine where
  spans := x.spans s
  focused := x.drawings.any fun drawing => s.isFocused drawing.node

end LineContent

/-- The layout of a node and of all that is below it, at most `fuel` levels deep. -/
def nodeLayout (s : Session) : Nat → Nat → NodeId → List LineContent
  | 0, _, _ => []
  | fuel + 1, depth, n =>
      match s.document.element? n with
      | none => []
      | some e =>
          let children := s.document.children n
          if Form.isControl s.markup e then
            [.control depth n]
          else if isInline s e children then
            [.shared depth children]
          else
            let inner := if e.label.isSome then depth + 1 else depth
            (headingLines depth e).map (fun line => .text line.spans) ++
              children.flatMap (nodeLayout s fuel inner) ++
                (closingLines depth e).map fun line => .text line.spans

/-- The layout of a page. -/
def pageLayout (s : Session) : List LineContent :=
  (s.document.children Document.root).flatMap (nodeLayout s s.document.size 0)

/-- Whether a node has no control above it. -/
def isOutermost (s : Session) (n : NodeId) : Bool :=
  (s.document.ancestors n).all fun a => !s.focusables.contains a

/-- Whether a node is drawn as a control. -/
def isDrawn (s : Session) (n : NodeId) : Bool :=
  isControlNode s n && isOutermost s n

/--
Whether a control that is drawn has its label with it: it does below the root, below a
labelled element, and beside a child that is no control.
-/
def showsLabel (s : Session) (n : NodeId) : Bool :=
  match s.document.parent? n with
  | none => false
  | some p =>
      p = Document.root ||
        s.document.nodeIs (fun e => e.label.isSome) p ||
          (s.document.children p).any fun c => !isControlNode s c

/-- A control as a page draws it. -/
def drawing (s : Session) (n : NodeId) : Drawing where
  node := n
  withLabel := showsLabel s n

/-- The line with a number draws a control. -/
def DrawnAt (s : Session) (n : NodeId) (i : Nat) : Prop :=
  ∃ x, (pageLayout s)[i]? = some x ∧ n ∈ x.drawings.map Drawing.node

/-- The pieces of text are what stands above or below the children of some element that is
no control. -/
def IsContainerLine (s : Session) (spans : List Span) : Prop :=
  ∃ n e depth, s.document.element? n = some e ∧ Form.isControl s.markup e = false ∧
    spans ∈ (headingLines depth e ++ closingLines depth e).map PageLine.spans

variable {s : Session}

section Lines

theorem element?_of_isControlNode
    {n : NodeId}
    (hn : isControlNode s n = true) :
    ∃ e, s.document.element? n = some e :=
  let ⟨e, he, _⟩ := Document.nodeIs_iff.mp hn
  ⟨e, he⟩

/-- Nothing that stands above or below the children of a container has the focus. -/
theorem map_line_text
    {lines : List PageLine}
    (hlines : ∀ line ∈ lines, line.focused = false) :
    (lines.map fun line => LineContent.text line.spans).map (LineContent.line s) = lines := by
  rw [List.map_map]
  refine (List.map_congr_left fun line hline => ?_).trans (List.map_id _)
  cases line with
  | mk spans focused =>
      obtain rfl : focused = false := hlines _ hline
      rfl

theorem headingLines_unfocused
    (depth : Nat)
    (e : Element) :
    ∀ line ∈ headingLines depth e, line.focused = false := by
  unfold headingLines
  split
  · simp
  · split <;> simp

theorem closingLines_unfocused
    (depth : Nat)
    (e : Element) :
    ∀ line ∈ closingLines depth e, line.focused = false := by
  unfold closingLines
  split <;> simp

theorem inlineLine_eq
    {depth : Nat} {ns : List NodeId}
    (hns : ∀ n ∈ ns, isControlNode s n = true) :
    inlineLine s depth ns = LineContent.line s (.shared depth ns) := by
  have hspans : ns.flatMap (sharedSpans s) =
      ns.flatMap fun n => Drawing.spans s ⟨n, false⟩ ++ [⟨" ", .plain⟩] := by
    apply List.flatMap_congr
    intro n hn
    obtain ⟨e, he⟩ := element?_of_isControlNode (hns n hn)
    simp only [sharedSpans, Drawing.spans, he]
  simp only [inlineLine, LineContent.line, LineContent.spans, LineContent.drawings, hspans,
    List.any_map]
  rfl

/-- The lines of a node are those of its layout. -/
theorem nodeLines_eq
    (fuel depth : Nat)
    (n : NodeId) :
    nodeLines s fuel depth n = (nodeLayout s fuel depth n).map (LineContent.line s) := by
  induction fuel generalizing depth n with
  | zero => rfl
  | succ fuel ih =>
      rw [nodeLines, nodeLayout]
      cases he : s.document.element? n with
      | none => rfl
      | some e =>
          dsimp only
          split
          · simp [controlLine, LineContent.line, LineContent.spans, LineContent.drawings,
              Drawing.spans, he]
          · split
            · rename_i hinline
              simp only [isInline, Bool.and_eq_true, List.all_eq_true] at hinline
              rw [inlineLine_eq hinline.2]
              rfl
            · rw [List.map_append, List.map_append, List.map_flatMap,
                map_line_text (headingLines_unfocused depth e),
                map_line_text (closingLines_unfocused depth e)]
              congr 2
              exact List.flatMap_congr fun c _ => ih _ c

/-- The lines of a page are those of its layout. -/
theorem pageLines_eq
    (s : Session) :
    pageLines s = (pageLayout s).map (LineContent.line s) := by
  rw [pageLines, pageLayout, List.map_flatMap]
  exact List.flatMap_congr fun c _ => nodeLines_eq _ _ c

/-- Lines without a control belong to elements that are none. -/
theorem isContainerLine_of_mem_nodeLayout
    {fuel depth : Nat} {n : NodeId} {spans : List Span}
    (hspans : .text spans ∈ nodeLayout s fuel depth n) :
    IsContainerLine s spans := by
  induction fuel generalizing depth n with
  | zero => simp [nodeLayout] at hspans
  | succ fuel ih =>
      rw [nodeLayout] at hspans
      cases he : s.document.element? n with
      | none => simp [he] at hspans
      | some e =>
          simp only [he] at hspans
          split at hspans
          · simp at hspans
          · rename_i hcontrol
            split at hspans
            · simp at hspans
            · rw [List.mem_append, List.mem_append, List.mem_flatMap] at hspans
              rcases hspans with (hheading | ⟨c, -, hc⟩) | hclosing
              · obtain ⟨line, hline, heq⟩ := List.mem_map.mp hheading
                cases heq
                exact ⟨n, e, depth, he, by simpa using hcontrol,
                  List.mem_map_of_mem (List.mem_append_left _ hline)⟩
              · exact ih hc
              · obtain ⟨line, hline, heq⟩ := List.mem_map.mp hclosing
                cases heq
                exact ⟨n, e, depth, he, by simpa using hcontrol,
                  List.mem_map_of_mem (List.mem_append_right _ hline)⟩

end Lines

theorem isFocused_iff
    {n : NodeId} :
    s.isFocused n = true ↔ s.focused? = some n := by
  rw [Session.isFocused, decide_eq_true_eq]

/-- No control is drawn above or below the children of a container. -/
theorem flatMap_drawings_text
    (lines : List PageLine) :
    (lines.map fun line => LineContent.text line.spans).flatMap LineContent.drawings = [] := by
  rw [List.flatMap_map]
  simp [LineContent.drawings]

section Drawn

variable (h : s.document.WellFormed)
include h

theorem mem_focusables_iff
    {n : NodeId} :
    n ∈ s.focusables ↔ s.document.Above Document.root n ∧ isControlNode s n = true := by
  rw [Session.focusables, Document.findAll, List.mem_filter, h.mem_descendants_iff]
  rfl

theorem isControlNode_root :
    isControlNode s Document.root = false := by
  rw [isControlNode, Document.nodeIs, h.element_root]
  rfl

/-- No control is above an outermost one. -/
theorem isOutermost_iff
    {n : NodeId}
    (hn : s.document.Above Document.root n) :
    isOutermost s n = true ↔ ∀ a, s.document.Above a n → isControlNode s a = false := by
  simp only [isOutermost, List.all_eq_true, h.mem_ancestors_iff, Bool.not_eq_true',
    List.contains_eq_mem, decide_eq_false_iff_not, mem_focusables_iff h]
  constructor
  · intro hnone a ha
    rcases Document.above_total (.inr hn) (.inr ha) with rfl | hroot | hover
    · exact isControlNode_root h
    · simpa [hroot] using hnone a ha
    · exact absurd hover (Document.not_above_of_parent?_none h.parent_root)
  · intro hnone a ha hcontrol
    rw [hnone a ha] at hcontrol
    exact absurd hcontrol.2 (by decide)

/-- Of a control without controls above it and the nodes below it, it alone is drawn. -/
theorem filter_isDrawn_of_isControlNode
    {n : NodeId}
    (hn : s.document.Above Document.root n)
    (hcontrol : isControlNode s n = true)
    (htop : ∀ a, s.document.Above a n → isControlNode s a = false) :
    (n :: s.document.descendants n).filter (isDrawn s) = [n] := by
  have hself : isDrawn s n = true := by
    rw [isDrawn, hcontrol, (isOutermost_iff h hn).mpr htop]
    rfl
  have hbelow : (s.document.descendants n).filter (isDrawn s) = [] := by
    rw [List.filter_eq_nil_iff]
    intro m hm hdrawn
    rw [h.mem_descendants_iff] at hm
    rw [isDrawn, Bool.and_eq_true, isOutermost_iff h (hn.trans hm)] at hdrawn
    rw [hdrawn.2 n hm] at hcontrol
    exact absurd hcontrol (by decide)
  rw [List.filter_cons, if_pos hself, hbelow]

/-- Of a node that is no control and the nodes below it, those below its children are drawn. -/
theorem filter_isDrawn_of_not_isControlNode
    {n : NodeId}
    (hcontrol : isControlNode s n = false) :
    (n :: s.document.descendants n).filter (isDrawn s) =
      (s.document.children n).flatMap fun c =>
        (c :: s.document.descendants c).filter (isDrawn s) := by
  have hself : isDrawn s n = false := by
    rw [isDrawn, hcontrol]
    rfl
  rw [List.filter_cons, hself, if_neg Bool.false_ne_true, h.descendants_eq, List.filter_flatMap]

/-- A child of an element shows its label unless all the children share one line. -/
theorem showsLabel_of_parent?
    {n c : NodeId} {e : Element}
    (he : s.document.element? n = some e)
    (hc : c ∈ s.document.children n) :
    showsLabel s c = !isInline s e (s.document.children n) := by
  have hparent := (h.mem_children n c).mp hc
  have hroot : (n = Document.root) = False := by simp [h.ne_root_of_element? he]
  have hne : (s.document.children n).isEmpty = false := by
    rw [List.isEmpty_eq_false_iff]
    exact List.ne_nil_of_mem hc
  simp only [showsLabel, hparent, hroot, decide_false, Bool.false_or, Document.nodeIs, he,
    Option.any_some, isInline, hne, Bool.not_and, Bool.not_false, Bool.not_true, Bool.or_false,
    List.not_all_eq_any_not]
  cases e.label <;> rfl

/--
The drawings below a node without controls above it are the controls there that have none
above them.
-/
theorem drawings_nodeLayout
    {fuel : Nat}
    (depth : Nat)
    {n : NodeId}
    (hfuel : s.document.size ≤ fuel + (s.document.ancestors n).length)
    (hn : s.document.Above Document.root n)
    (htop : ∀ a, s.document.Above a n → isControlNode s a = false)
    (hlabel : showsLabel s n = true) :
    (nodeLayout s fuel depth n).flatMap LineContent.drawings =
      ((n :: s.document.descendants n).filter (isDrawn s)).map (drawing s) := by
  -- on the levels that are left; a node lies one level below its parent
  induction fuel generalizing depth n with
  | zero =>
      have := h.length_ancestors_lt n
      omega
  | succ fuel ih =>
      obtain ⟨p, hp, -⟩ := Document.above_iff.mp hn
      obtain ⟨e, he⟩ := h.element_of_lt n (Document.lt_size_of_parent? hp) (h.ne_of_above hn).symm
      have hnode : isControlNode s n = Form.isControl s.markup e := by
        rw [isControlNode, Document.nodeIs, he, Option.any_some]
      rw [nodeLayout]
      simp only [he]
      by_cases hcontrol : Form.isControl s.markup e = true
      · rw [if_pos hcontrol, filter_isDrawn_of_isControlNode h hn (hnode.trans hcontrol) htop]
        simp [LineContent.drawings, drawing, hlabel]
      · rw [if_neg hcontrol]
        have hnot : isControlNode s n = false := by simpa [hcontrol] using hnode
        have hchild : ∀ c ∈ s.document.children n, s.document.parent? c = some n :=
          fun c hc => (h.mem_children n c).mp hc
        have hbelow : ∀ c ∈ s.document.children n, ∀ a, s.document.Above a c →
            isControlNode s a = false := by
          intro c hc a ha
          rcases (Document.above_iff_of_parent? (hchild c hc)).mp ha with rfl | ha
          · exact hnot
          · exact htop a ha
        have hattached : ∀ c ∈ s.document.children n, s.document.Above Document.root c :=
          fun c hc => hn.trans (Document.above_of_parent? (hchild c hc))
        rw [filter_isDrawn_of_not_isControlNode h hnot, List.map_flatMap]
        by_cases hinline : isInline s e (s.document.children n) = true
        · rw [if_pos hinline, List.flatMap_singleton, LineContent.drawings, List.map_eq_flatMap]
          refine List.flatMap_congr fun c hc => ?_
          have hchildren := hinline
          rw [isInline, Bool.and_eq_true, List.all_eq_true] at hchildren
          rw [filter_isDrawn_of_isControlNode h (hattached c hc) (hchildren.2 c hc) (hbelow c hc),
            List.map_singleton, drawing, showsLabel_of_parent? h he hc, hinline]
          rfl
        · rw [if_neg hinline, List.flatMap_append, List.flatMap_append, flatMap_drawings_text,
            flatMap_drawings_text, List.nil_append, List.append_nil, List.flatMap_assoc]
          refine List.flatMap_congr fun c hc => ih _ ?_ (hattached c hc) (hbelow c hc) ?_
          · rw [h.ancestors_of_parent? (hchild c hc), List.length_cons]
            omega
          · simpa [showsLabel_of_parent? h he hc] using hinline

/-- The drawings of a page are the controls without a control above them, in their order. -/
theorem drawings_pageLayout :
    (pageLayout s).flatMap LineContent.drawings =
      (s.focusables.filter (isOutermost s)).map (drawing s) := by
  have hfocusables : s.focusables.filter (isOutermost s) =
      (s.document.descendants Document.root).filter (isDrawn s) := by
    rw [Session.focusables, Document.findAll, List.filter_filter]
    exact List.filter_congr fun n _ => Bool.and_comm _ _
  rw [hfocusables, h.descendants_eq, List.filter_flatMap, List.map_flatMap, pageLayout,
    List.flatMap_assoc]
  refine List.flatMap_congr fun c hc => ?_
  have hparent := (h.mem_children Document.root c).mp hc
  refine drawings_nodeLayout h 0 (by omega) (Document.above_of_parent? hparent) ?_ ?_
  · intro a ha
    rcases (Document.above_iff_of_parent? hparent).mp ha with rfl | ha
    · exact isControlNode_root h
    · exact absurd ha (Document.not_above_of_parent?_none h.parent_root)
  · simp [showsLabel, hparent]

theorem nodes_drawings_pageLayout :
    ((pageLayout s).flatMap LineContent.drawings).map Drawing.node =
      s.focusables.filter (isOutermost s) := by
  rw [drawings_pageLayout h, List.map_map]
  exact List.map_id _

theorem mem_nodes_pageLayout_iff
    {n : NodeId} :
    n ∈ ((pageLayout s).flatMap LineContent.drawings).map Drawing.node ↔
      n ∈ s.focusables ∧ isOutermost s n = true := by
  rw [nodes_drawings_pageLayout h, List.mem_filter]

end Drawn

theorem focused_line_iff
    {x : LineContent} :
    (x.line s).focused = true ↔ ∃ n, s.focused? = some n ∧ n ∈ x.drawings.map Drawing.node := by
  simp only [LineContent.line, List.any_eq_true, isFocused_iff, List.mem_map]
  constructor
  · rintro ⟨drawing, hmem, hfocused⟩
    exact ⟨drawing.node, hfocused, drawing, hmem, rfl⟩
  · rintro ⟨n, hfocused, drawing, hmem, rfl⟩
    exact ⟨drawing, hmem, hfocused⟩

section Focus

variable (h : s.document.WellFormed)
include h

/-- At most one line has the focus. -/
theorem pairwise_pageLines :
    (pageLines s).Pairwise fun a b => a.focused = true → b.focused = false := by
  have hnodes : ((pageLayout s).flatMap fun x => x.drawings.map Drawing.node).Nodup := by
    rw [← List.map_flatMap, nodes_drawings_pageLayout h]
    exact ((h.nodup_descendants Document.root).filter _).filter _
  rw [pageLines_eq, List.pairwise_map]
  refine (List.nodup_flatMap.mp hnodes).2.imp fun hdisjoint ha => ?_
  rw [Bool.eq_false_iff]
  intro hb
  obtain ⟨n, hn, hna⟩ := focused_line_iff.mp ha
  obtain ⟨n', hn', hnb⟩ := focused_line_iff.mp hb
  obtain rfl : n = n' := Option.some.inj (hn.symm.trans hn')
  exact hdisjoint hna hnb

/-- If the control with the focus is drawn, the line of the focus is the one that draws it. -/
theorem drawnAt_iff
    {n : NodeId}
    (hn : s.focused? = some n)
    (houter : isOutermost s n = true)
    {i : Nat} :
    DrawnAt s n i ↔ i = focusLine (pageLines s) := by
  have honly : ∀ i, DrawnAt s n i → i = focusLine (pageLines s) := by
    rintro i ⟨x, hx, hmem⟩
    have hline : (pageLines s)[i]? = some (x.line s) := by
      rw [pageLines_eq, List.getElem?_map, hx, Option.map_some]
    obtain ⟨hi, hget⟩ := List.getElem?_eq_some_iff.mp hline
    have hfocused : ((pageLines s)[i]).focused = true :=
      hget ▸ focused_line_iff.mpr ⟨n, hn, hmem⟩
    have hfind : (pageLines s).findIdx? PageLine.focused = some i := by
      rw [List.findIdx?_eq_some_iff_getElem]
      refine ⟨hi, hfocused, fun j hj hbefore => ?_⟩
      have hnot := List.pairwise_iff_getElem.mp (pairwise_pageLines h) j i (by omega) hi hj hbefore
      rw [hfocused] at hnot
      exact Bool.noConfusion hnot
    rw [focusLine, hfind, Option.getD_some]
  refine ⟨honly i, ?_⟩
  rintro rfl
  have hmem : n ∈ ((pageLayout s).flatMap LineContent.drawings).map Drawing.node :=
    (mem_nodes_pageLayout_iff h).mpr ⟨List.mem_of_getElem? hn, houter⟩
  rw [List.map_flatMap, List.mem_flatMap] at hmem
  obtain ⟨x, hx, hmem⟩ := hmem
  obtain ⟨j, hj⟩ := List.mem_iff_getElem?.mp hx
  have hdrawn : DrawnAt s n j := ⟨x, hj, hmem⟩
  rwa [honly j hdrawn] at hdrawn

/-- A control below another one is on no line. -/
theorem not_drawnAt
    {n : NodeId}
    (hinner : isOutermost s n = false)
    (i : Nat) :
    ¬ DrawnAt s n i := by
  rintro ⟨x, hx, hmem⟩
  have hdrawn : n ∈ ((pageLayout s).flatMap LineContent.drawings).map Drawing.node := by
    rw [List.map_flatMap, List.mem_flatMap]
    exact ⟨x, List.mem_of_getElem? hx, hmem⟩
  rw [mem_nodes_pageLayout_iff h, hinner] at hdrawn
  exact Bool.false_ne_true hdrawn.2

/-- If the focus is on no control that is drawn, its line is the first. -/
theorem focusLine_eq_zero
    (hinner : ∀ n, s.focused? = some n → isOutermost s n = false) :
    focusLine (pageLines s) = 0 := by
  have hfind : (pageLines s).findIdx? PageLine.focused = none := by
    rw [List.findIdx?_eq_none_iff, pageLines_eq]
    intro line hline
    obtain ⟨x, hx, rfl⟩ := List.mem_map.mp hline
    rw [Bool.eq_false_iff]
    intro hfocused
    obtain ⟨n, hn, hmem⟩ := focused_line_iff.mp hfocused
    obtain ⟨i, hi⟩ := List.mem_iff_getElem?.mp hx
    exact not_drawnAt h (hinner n hn) i ⟨x, hi, hmem⟩
  rw [focusLine, hfind, Option.getD_none]

end Focus

section LineByLine

/-- A page on which lines have been drawn, and which of them had the focus last. -/
structure Drawn where
  lines : List PageLine := []
  focusLine : Nat := 0

/-- Draws a line below those that are there. -/
def Drawn.add (w : Drawn) (line : PageLine) : Drawn where
  lines := w.lines ++ [line]
  focusLine := if line.focused then w.lines.length else w.focusLine

/-- Draws a node and all that is below it, at most `fuel` levels deep. -/
def drawNode (s : Session) : Nat → Nat → NodeId → Drawn → Drawn
  | 0, _, _, w => w
  | fuel + 1, depth, n, w =>
      match s.document.element? n with
      | none => w
      | some e =>
          let children := s.document.children n
          if Form.isControl s.markup e then
            w.add (controlLine s depth n e)
          else if isInline s e children then
            w.add (inlineLine s depth children)
          else
            let inner := if e.label.isSome then depth + 1 else depth
            let headed := (headingLines depth e).foldl Drawn.add w
            let filled := children.foldl (fun w c => drawNode s fuel inner c w) headed
            (closingLines depth e).foldl Drawn.add filled

/-- Draws a page. -/
def drawPage (s : Session) : Drawn :=
  (s.document.children Document.root).foldl (fun w c => drawNode s s.document.size 0 c w) {}

/-- Drawing a node adds its lines. -/
theorem drawNode_eq
    (fuel depth : Nat)
    (n : NodeId)
    (w : Drawn) :
    drawNode s fuel depth n w = (nodeLines s fuel depth n).foldl Drawn.add w := by
  induction fuel generalizing depth n w with
  | zero => rfl
  | succ fuel ih =>
      rw [drawNode, nodeLines]
      cases s.document.element? n with
      | none => rfl
      | some e =>
          dsimp only
          split
          · rfl
          · split
            · rfl
            · rw [List.foldl_append, List.foldl_append, List.foldl_flatMap]
              simp only [ih]

/-- The line that had the focus last is the first with the focus, if there is one at most. -/
theorem foldl_add
    {lines : List PageLine}
    (hlines : lines.Pairwise fun a b => a.focused = true → b.focused = false)
    (w : Drawn) :
    lines.foldl Drawn.add w =
      ⟨w.lines ++ lines,
        ((lines.findIdx? PageLine.focused).map (w.lines.length + ·)).getD w.focusLine⟩ := by
  induction lines generalizing w with
  | nil => simp
  | cons line lines ih =>
      obtain ⟨hline, hlines⟩ := List.pairwise_cons.mp hlines
      rw [List.foldl_cons, ih hlines, List.findIdx?_cons]
      cases hfocused : line.focused with
      | true =>
          have hnone : lines.findIdx? PageLine.focused = none := by
            rw [List.findIdx?_eq_none_iff]
            exact fun other hother => hline other hother hfocused
          simp [Drawn.add, hfocused, hnone]
      | false =>
          cases lines.findIdx? PageLine.focused with
          | none => simp [Drawn.add, hfocused]
          | some i =>
              simp [Drawn.add, hfocused]
              omega

/-- Drawing a page gives its lines and the line of the focus. -/
theorem drawPage_eq
    (h : s.document.WellFormed) :
    drawPage s = ⟨pageLines s, focusLine (pageLines s)⟩ := by
  have hadded : drawPage s = (pageLines s).foldl Drawn.add {} := by
    rw [drawPage, pageLines, List.foldl_flatMap]
    simp only [drawNode_eq]
  rw [hadded, foldl_add (pairwise_pageLines h), focusLine]
  simp

end LineByLine

/--
Every page opens, and whatever keys are pressed after that: drawing the page node by node
gives its lines and the line of the focus. The lines are those of the layout; a line without
controls is a label, a text or the end of an element that is no control. Line by line and
from left to right, the controls are drawn that have no control above them, in the order of
the focus and none of them twice. The text of a drawing is that of the control, and in front
of it stands the label, filled up with spaces to fourteen characters and with a space behind
it, exactly if the control has a label and stands below the root, below a labelled element, or
beside a child that is no control. If the control with the focus is drawn, the line of the
focus is the one that draws it, and otherwise it is the first.
-/
theorem drawings_pressAll
    (page : Page)
    (m : Markup)
    (strokes : List Stroke) :
    ∃ opened reached,
      Session.ofPage page m = .ok opened ∧
      opened.pressAll strokes = reached ∧
      drawPage reached = ⟨pageLines reached, focusLine (pageLines reached)⟩ ∧
      pageLines reached = (pageLayout reached).map (LineContent.line reached) ∧
      (∀ spans, .text spans ∈ pageLayout reached → IsContainerLine reached spans) ∧
      (pageLayout reached).flatMap LineContent.drawings =
        (reached.focusables.filter (isOutermost reached)).map (drawing reached) ∧
      reached.focusables.Nodup ∧
      (∀ n e text, reached.document.element? n = some e →
        (spansText ((drawing reached n).spans reached) = text ↔
          ControlText reached n e (showsLabel reached n) text)) ∧
      (∀ n, reached.focused? = some n → isOutermost reached n = true →
        ∀ i, DrawnAt reached n i ↔ i = focusLine (pageLines reached)) ∧
      ((∀ n, reached.focused? = some n → isOutermost reached n = false) →
        focusLine (pageLines reached) = 0) := by
  obtain ⟨opened, hopened, hfirst, hidle⟩ := Session.ofPage_idle page m
  have h := (hfirst.pressAll strokes).settled.wellFormed
  have hkinds := Session.idle_or_edits_pressAll hfirst (.inl hidle) strokes
  refine ⟨opened, _, hopened, rfl, drawPage_eq h, pageLines_eq _, ?_, drawings_pageLayout h,
    (h.nodup_descendants Document.root).filter _, ?_, ?_, focusLine_eq_zero h⟩
  · intro spans hspans
    obtain ⟨c, -, hc⟩ := List.mem_flatMap.mp hspans
    exact isContainerLine_of_mem_nodeLayout hc
  · intro n e text he
    have hspans : (drawing (opened.pressAll strokes) n).spans (opened.pressAll strokes) =
        controlSpans (opened.pressAll strokes) n e (showsLabel (opened.pressAll strokes) n) := by
      simp only [Drawing.spans, drawing, he]
    rw [hspans]
    exact controlText_iff hkinds
  · intro n hn houter i
    exact drawnAt_iff h hn houter

/-- Three controls with labels. The first stands below the root, and the other two share a
line. -/
def threeLabels : Page where
  body :=
    .cons { tag := "input", label := some "Weight (kg)" } .nil <|
    .cons { tag := "p" }
      (Page.leaves
        [{ tag := "input", label := some "Grade", placeholder := some "0-20" },
         { tag := "button", label := some "Remove", text := some "-" }]
        .nil)
      .nil

/-- The first control is drawn with its label while a digit goes into it, the others without. -/
theorem drawings_pressAll_threeLabels :
    ∃ opened reached input grade,
      Session.ofPage threeLabels {} = .ok opened ∧
      opened.pressAll [{ key := .char '7' }] = reached ∧
      (pageLines reached).map (fun line => String.ofList (spansText line.spans)) =
        ["Weight (kg)    [7 ]", "[0-20      ] [ - ] "] ∧
      (pageLayout reached).flatMap LineContent.drawings = [⟨1, true⟩, ⟨3, false⟩, ⟨4, false⟩] ∧
      ControlText reached 1 input true "Weight (kg)    [7 ]".toList ∧
      ControlText reached 3 grade false "[0-20      ]".toList := by
  obtain ⟨opened, reached, hopened, hreached, _, _, _, hdrawings, _, htext, _, _⟩ :=
    drawings_pressAll threeLabels {} [{ key := .char '7' }]
  have hcontrols : (Session.ofPage threeLabels {}).map (fun s =>
      let reached := s.pressAll [{ key := .char '7' }]
      ((reached.focusables.filter (isOutermost reached)).map (drawing reached),
        (pageLines reached).map fun line => String.ofList (spansText line.spans))) =
      .ok ([⟨1, true⟩, ⟨3, false⟩, ⟨4, false⟩],
        ["Weight (kg)    [7 ]", "[0-20      ] [ - ] "]) := by
    decide +kernel
  have hspans : (Session.ofPage threeLabels {}).map (fun s =>
      let reached := s.pressAll [{ key := .char '7' }]
      [1, 3].map fun n =>
        ((reached.document.element? n).isSome, showsLabel reached n,
          spansText ((drawing reached n).spans reached))) =
      .ok [(true, true, "Weight (kg)    [7 ]".toList),
        (true, false, "[0-20      ]".toList)] := by
    decide +kernel
  rw [hopened] at hcontrols hspans
  obtain ⟨houtermost, hlines⟩ := Prod.mk.inj (Except.ok.inj hcontrols)
  have hinputs := Except.ok.inj hspans
  rw [hreached] at houtermost hlines
  simp only [hreached, List.map_cons, List.map_nil, List.cons.injEq, Prod.mk.injEq,
    and_true, Option.isSome_iff_exists] at hinputs
  obtain ⟨⟨⟨input, hinput⟩, hshown, htyped⟩, ⟨grade, hgrade⟩, hhidden, hhint⟩ := hinputs
  refine ⟨opened, reached, input, grade, hopened, hreached, hlines, hdrawings.trans houtermost,
    ?_, ?_⟩
  · rw [← hshown]
    exact (htext 1 input _ hinput).mp htyped
  · rw [← hhidden]
    exact (htext 3 grade _ hgrade).mp hhint

end Screen
end LiveForms
