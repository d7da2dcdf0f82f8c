/-!
# Live forms: patterns with an order of preference

A pattern may match several texts at the start of a longer one. Which of them counts is a
matter of preference: the first side of a choice comes before the second, a repetition would
rather go on than stop, and what comes earlier in a sequence decides first. The match found in
this way need not be the longest one; whether it is depends on the pattern.

Main definitions:

* `Pattern`: patterns built from classes of characters.
* `Pattern.rests`: what the matches of a pattern leave of a text, in the order of preference.
* `Pattern.find?`: what the preferred match leaves.
* `Pattern.Matches`: the texts that a pattern matches, in any order.

Main statements:

* `Pattern.mem_rests_iff`: the matches at the start of a text.
* `Pattern.find?_eq_none_iff`: when there is none.
* `Pattern.find?_seq`, `Pattern.find?_either_right`: where the preferred match of a part decides.
-/

namespace LiveForms

/-- A pattern for the start of a text. -/
inductive Pattern where
  /-- No character. -/
  | nothing
  /-- One character of a class. -/
  | one (p : Char → Bool)
  /-- Any number of characters of a class, the more the better. -/
  | many (p : Char → Bool)
  | seq (first second : Pattern)
  /-- The first pattern, or the second if the first one leads to no match. -/
  | either (first second : Pattern)

namespace Pattern

/-- A pattern or nothing, and nothing only if the pattern leads to no match. -/
def optional (p : Pattern) : Pattern :=
  either p nothing

/-- The characters of a text, one after the other. -/
def word : List Char → Pattern
  | [] => nothing
  | c :: cs => seq (one fun x => x == c) (word cs)

/-- What characters of a class leave of a text, the shortest rest first. -/
def restsOfMany (p : Char → Bool) : List Char → List (List Char)
  | [] => [[]]
  | c :: cs => if p c then restsOfMany p cs ++ [c :: cs] else [c :: cs]

/-- What the matches of a pattern leave of a text, that of the preferred match first. -/
def rests : Pattern → List Char → List (List Char)
  | nothing, cs => [cs]
  | one _, [] => []
  | one p, c :: cs => if p c then [cs] else []
  | many p, cs => restsOfMany p cs
  | seq first second, cs => (first.rests cs).flatMap second.rests
  | either first second, cs => first.rests cs ++ second.rests cs

/-- What the preferred match of a pattern leaves of a text. -/
def find? (p : Pattern) (cs : List Char) : Option (List Char) :=
  (p.rests cs).head?

/-- The texts that a pattern matches. -/
def Matches : Pattern → List Char → Prop
  | nothing, cs => cs = []
  | one p, cs => ∃ c, p c = true ∧ cs = [c]
  | many p, cs => ∀ c ∈ cs, p c = true
  | seq first second, cs => ∃ us vs, first.Matches us ∧ second.Matches vs ∧ cs = us ++ vs
  | either first second, cs => first.Matches cs ∨ second.Matches cs

section Matching

theorem mem_restsOfMany_iff
    {p : Char → Bool} {cs rest : List Char} :
    rest ∈ restsOfMany p cs ↔ ∃ run, cs = run ++ rest ∧ ∀ c ∈ run, p c = true := by
  induction cs with
  | nil =>
      rw [restsOfMany, List.mem_singleton]
      constructor
      · rintro rfl
        exact ⟨[], rfl, by simp⟩
      · rintro ⟨run, hrun, -⟩
        exact (List.append_eq_nil_iff.mp hrun.symm).2
  | cons c cs ih =>
      have hself : ∃ run, c :: cs = run ++ (c :: cs) ∧ ∀ x ∈ run, p x = true :=
        ⟨[], rfl, by simp⟩
      rw [restsOfMany]
      split
      · rename_i hc
        rw [List.mem_append, List.mem_singleton, ih]
        constructor
        · rintro (⟨run, rfl, hrun⟩ | rfl)
          · exact ⟨c :: run, rfl, List.forall_mem_cons.mpr ⟨hc, hrun⟩⟩
          · exact hself
        · rintro ⟨run, heq, hrun⟩
          cases run with
          | nil => exact .inr heq.symm
          | cons x run =>
              obtain ⟨rfl, rfl⟩ := List.cons.inj heq
              exact .inl ⟨run, rfl, fun y hy => hrun y (List.mem_cons_of_mem _ hy)⟩
      · rename_i hc
        rw [List.mem_singleton]
        constructor
        · rintro rfl
          exact hself
        · rintro ⟨run, heq, hrun⟩
          cases run with
          | nil => exact heq.symm
          | cons x run =>
              obtain ⟨rfl, -⟩ := List.cons.inj heq
              exact absurd (hrun c List.mem_cons_self) hc

/-- The rests are those behind a text that the pattern matches. -/
theorem mem_rests_iff
    {p : Pattern} {cs rest : List Char} :
    rest ∈ p.rests cs ↔ ∃ lexeme, cs = lexeme ++ rest ∧ p.Matches lexeme := by
  induction p generalizing cs rest with
  | nothing =>
      simp only [rests, Matches, List.mem_singleton]
      constructor
      · rintro rfl
        exact ⟨[], rfl, rfl⟩
      · rintro ⟨lexeme, rfl, rfl⟩
        rfl
  | one p =>
      simp only [Matches]
      cases cs with
      | nil => simp [rests]
      | cons c cs =>
          rw [rests]
          constructor
          · intro hrest
            split at hrest
            · rename_i hc
              obtain rfl := List.mem_singleton.mp hrest
              exact ⟨[c], rfl, c, hc, rfl⟩
            · cases hrest
          · rintro ⟨-, heq, x, hx, rfl⟩
            obtain ⟨rfl, rfl⟩ := List.cons.inj heq
            rw [if_pos hx]
            exact List.mem_cons_self
  | many p => exact mem_restsOfMany_iff
  | seq first second ihFirst ihSecond =>
      simp only [rests, Matches, List.mem_flatMap, ihFirst, ihSecond]
      constructor
      · rintro ⟨middle, ⟨us, rfl, hus⟩, vs, rfl, hvs⟩
        exact ⟨us ++ vs, (List.append_assoc us vs rest).symm, us, vs, hus, hvs, rfl⟩
      · rintro ⟨-, rfl, us, vs, hus, hvs, rfl⟩
        exact ⟨vs ++ rest, ⟨us, List.append_assoc us vs rest, hus⟩, vs, rfl, hvs⟩
  | either first second ihFirst ihSecond =>
      simp only [rests, Matches, List.mem_append, ihFirst, ihSecond, ← exists_or, ← and_or_left]

theorem exists_of_find?
    {p : Pattern} {cs rest : List Char}
    (h : p.find? cs = some rest) :
    ∃ lexeme, cs = lexeme ++ rest ∧ p.Matches lexeme :=
  mem_rests_iff.mp (List.mem_of_head? h)

/-- Nothing is found exactly if the text starts with nothing that the pattern matches. -/
theorem find?_eq_none_iff
    {p : Pattern} {cs : List Char} :
    p.find? cs = none ↔ ∀ lexeme rest, cs = lexeme ++ rest → ¬ p.Matches lexeme := by
  rw [find?, List.head?_eq_none_iff, List.eq_nil_iff_forall_not_mem]
  simp only [mem_rests_iff, not_exists, not_and]
  exact forall_comm

theorem matches_optional_iff
    {p : Pattern} {cs : List Char} :
    (optional p).Matches cs ↔ p.Matches cs ∨ cs = [] :=
  Iff.rfl

theorem matches_word_iff
    {text cs : List Char} :
    (word text).Matches cs ↔ cs = text := by
  induction text generalizing cs with
  | nil => rfl
  | cons c text ih =>
      simp only [word, Matches, ih, beq_iff_eq]
      constructor
      · rintro ⟨-, -, ⟨x, rfl, rfl⟩, rfl, rfl⟩
        rfl
      · rintro rfl
        exact ⟨[c], text, ⟨c, rfl, rfl⟩, rfl, rfl⟩

end Matching

section Preferred

variable {first second : Pattern} {cs middle rest : List Char}

theorem find?_one
    {kind : Char → Bool} {c : Char}
    (hc : kind c = true) :
    (one kind).find? (c :: rest) = some rest := by
  rw [find?, rests, if_pos hc, List.head?_cons]

/-- Of a run of a class nothing is left. -/
theorem find?_many
    {kind : Char → Bool} {run : List Char}
    (hrun : ∀ c ∈ run, kind c = true)
    (hrest : ∀ c ∈ rest.head?, kind c = false) :
    (many kind).find? (run ++ rest) = some rest := by
  induction run with
  | nil =>
      cases rest with
      | nil => rfl
      | cons c rest =>
          have hc := hrest c rfl
          simp [find?, rests, restsOfMany, hc]
  | cons c run ih =>
      obtain ⟨hc, hrun⟩ := List.forall_mem_cons.mp hrun
      have hrunFind := ih hrun
      rw [find?, rests] at hrunFind
      rw [List.cons_append, find?, rests, restsOfMany, if_pos hc, List.head?_append, hrunFind,
        Option.some_or]

/-- The preferred match of a sequence, if the second pattern matches behind the first one. -/
theorem find?_seq
    (hfirst : first.find? cs = some middle)
    (hsecond : second.find? middle = some rest) :
    (seq first second).find? cs = some rest := by
  obtain ⟨others, hothers⟩ := List.head?_eq_some_iff.mp hfirst
  rw [find?, rests, hothers, List.flatMap_cons, List.head?_append]
  rw [find?] at hsecond
  rw [hsecond, Option.some_or]

theorem find?_either_left
    (hfirst : first.find? cs = some rest) :
    (either first second).find? cs = some rest := by
  rw [find?] at hfirst
  rw [find?, rests, List.head?_append, hfirst, Option.some_or]

theorem find?_either_right
    (hfirst : first.find? cs = none) :
    (either first second).find? cs = second.find? cs := by
  rw [find?] at hfirst
  rw [find?, find?, rests, List.head?_append, hfirst, Option.none_or]

theorem find?_word
    (text : List Char) :
    (word text).find? (text ++ rest) = some rest := by
  induction text with
  | nil => rfl
  | cons c text ih => exact find?_seq (find?_one (beq_self_eq_true c)) ih

end Preferred

end Pattern
end LiveForms
