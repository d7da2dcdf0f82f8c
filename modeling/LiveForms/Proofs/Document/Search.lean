import LiveForms.Proofs.Document.Creation
import LiveForms.Proofs.Document.Order

/-!
# Live forms: searches

A search goes through the nodes below a node in document order. What it finds are
elements, and it finds the same ones after a change that leaves alone what it looks at. In a
document that has only grown it finds at least as many.
-/

namespace LiveForms
namespace Document

variable {d d' : Document}

theorem nodeIs_of_edited
    {n : NodeId} {f : Element → Element} {p : Element → Bool}
    (hd : Edited d d' n f)
    (hp : ∀ e : Element, p (f e) = p e) :
    d'.nodeIs p = d.nodeIs p := by
  funext m
  rw [nodeIs, nodeIs, hd.element?]
  split
  · cases d.element? m with
    | none => rfl
    | some e => exact hp e
  · rfl

/-- A search does not notice the change of an element that is of its kind before and after,
or neither before nor after. -/
theorem findAll_of_edited
    {n : NodeId} {f : Element → Element} {p : Element → Bool}
    (hd : Edited d d' n f)
    (hp : ∀ e : Element, p (f e) = p e)
    (scope : NodeId) :
    d'.findAll scope p = d.findAll scope p := by
  rw [findAll, findAll, descendants_congr hd.size hd.children, nodeIs_of_edited hd hp]

/-- Changes of elements that keep the tags do not change where a tag is found. -/
theorem withTag_of_edited
    {n : NodeId} {f : Element → Element}
    (hd : Edited d d' n f)
    (hf : ∀ e : Element, e.SameIdentity (f e))
    (scope : NodeId)
    (tag : String) :
    d'.withTag scope tag = d.withTag scope tag :=
  findAll_of_edited hd (fun e => by rw [(hf e).tag]) scope

theorem nodeIs_iff
    {p : Element → Bool} {n : NodeId} :
    d.nodeIs p n = true ↔ ∃ e, d.element? n = some e ∧ p e = true := by
  rw [nodeIs, Option.any_eq_true]

theorem element_of_mem_withTag
    {scope n : NodeId} {tag : String}
    (hn : n ∈ d.withTag scope tag) :
    ∃ e, d.element? n = some e := by
  obtain ⟨e, he, _⟩ := nodeIs_iff.mp (List.mem_filter.mp hn).2
  exact ⟨e, he⟩

/-- The elements with a tag are found in document order. -/
theorem WellFormed.pairwise_withTag
    (h : d.WellFormed)
    {scope : NodeId}
    (tag : String) :
    (d.withTag scope tag).Pairwise d.Precedes :=
  (h.pairwise_descendants scope).filter _

theorem WellFormed.mem_withTag_root_iff
    (h : d.WellFormed)
    {n : NodeId} {tag : String} :
    n ∈ d.withTag root tag ↔
      d.isAttached n = true ∧ ∃ e, d.element? n = some e ∧ e.tag = tag := by
  rw [withTag, findAll, List.mem_filter, nodeIs_iff, h.mem_descendants_root_iff]
  simp only [beq_iff_eq]
  constructor
  · rintro ⟨⟨_, hn⟩, he⟩
    exact ⟨hn, he⟩
  · rintro ⟨hn, e, he, htag⟩
    exact ⟨⟨h.ne_root_of_element? he, hn⟩, e, he, htag⟩

/-- Everything that a search in the tree has found is found when the document has grown. -/
theorem WellFormed.length_findAll_le_of_grown
    (h : d.WellFormed)
    (hd : d.Grown d')
    (p : Element → Bool) :
    (d.findAll root p).length ≤ (d'.findAll root p).length := by
  have h' := h.steps hd.steps
  have hnodup : (d.findAll root p).Nodup := (h.nodup_descendants root).filter _
  refine (List.subperm_of_subset hnodup ?_).length_le
  intro n hn
  rw [findAll, List.mem_filter, h.mem_descendants_iff] at hn
  obtain ⟨habove, hkind⟩ := hn
  obtain ⟨parent, hparent, _⟩ := above_iff.mp habove
  rw [nodeIs, ← hd.element? n (lt_size_of_parent? hparent)] at hkind
  rw [findAll, List.mem_filter, h'.mem_descendants_iff]
  exact ⟨hd.above habove, hkind⟩

end Document
end LiveForms
