import LiveForms.Proofs.Decimal.Leading
import LiveForms.Proofs.Text.Patterns

/-!
# Live forms: the pattern of a number at the start of a text

The texts of numbers are those of one pattern, written here with its choices in their order of
preference. Taking the preferred match of a pattern is not the same as taking the longest one:
a choice stays with its first side even where the second one would get further, and a
repetition that gives back what it took can make a later part match. Neither happens here. For
every text, what the preferred match leaves is what the longest number leaves.

Main definition:

* `Numeral.leadingPattern`: the pattern of a number at the start of a text.

Main statements:

* `Numeral.matches_leadingPattern_iff`: the texts that it matches.
* `Numeral.find?_leadingPattern_iff`: its preferred match is the longest one.
-/

namespace LiveForms
namespace Numeral

open Decimal (IsDigits)
open Grammar (IsNumber Longest)
open Pattern (find?_seq find?_one)

/-- The pattern `[0-9]+`. -/
def digitsPattern : Pattern :=
  .seq (.one Char.isDigit) (.many Char.isDigit)

/-- The pattern `[+-]?`. -/
def signPattern : Pattern :=
  .optional (.one fun c => c == '+' || c == '-')

/-- The pattern `\.`. -/
def pointPattern : Pattern :=
  .one fun c => c == '.'

/-- The pattern `[0-9]+\.?[0-9]*|\.[0-9]+`. -/
def mantissaPattern : Pattern :=
  .either
    (.seq digitsPattern (.seq (.optional pointPattern) (.many Char.isDigit)))
    (.seq pointPattern digitsPattern)

/-- The pattern `[eE][+-]?[0-9]+`. -/
def exponentPattern : Pattern :=
  .seq (.one fun c => c == 'e' || c == 'E') (.seq signPattern digitsPattern)

/-- The pattern `Infinity|([0-9]+\.?[0-9]*|\.[0-9]+)([eE][+-]?[0-9]+)?`. -/
def unsignedPattern : Pattern :=
  .either (.word infinityWord) (.seq mantissaPattern (.optional exponentPattern))

/-- The pattern `[+-]?(Infinity|([0-9]+\.?[0-9]*|\.[0-9]+)([eE][+-]?[0-9]+)?)`. -/
def leadingPattern : Pattern :=
  .seq signPattern unsignedPattern

section Matches

variable {cs : List Char}

theorem matches_digitsPattern_iff :
    digitsPattern.Matches cs ↔ IsDigits cs := by
  constructor
  · rintro ⟨-, ds, ⟨d, hd, rfl⟩, hds, rfl⟩
    exact Decimal.isDigits_cons hd hds
  · intro h
    obtain ⟨d, ds, rfl⟩ := List.exists_cons_of_ne_nil h.ne_nil
    obtain ⟨hd, hds⟩ := List.forall_mem_cons.mp h.isDigit
    exact ⟨[d], ds, ⟨d, hd, rfl⟩, hds, rfl⟩

theorem matches_signPattern_iff :
    signPattern.Matches cs ↔ ∃ negative, IsSign cs negative := by
  constructor
  · rintro (⟨c, hc, rfl⟩ | hnil)
    · rw [Bool.or_eq_true, beq_iff_eq, beq_iff_eq] at hc
      rcases hc with rfl | rfl
      · exact ⟨_, .plus⟩
      · exact ⟨_, .minus⟩
    · obtain rfl : cs = [] := hnil
      exact ⟨_, .absent⟩
  · rintro ⟨negative, h⟩
    cases h with
    | absent => exact .inr rfl
    | plus => exact .inl ⟨'+', rfl, rfl⟩
    | minus => exact .inl ⟨'-', rfl, rfl⟩

theorem matches_pointPattern_iff :
    pointPattern.Matches cs ↔ cs = ['.'] := by
  constructor
  · rintro ⟨c, hc, rfl⟩
    rw [beq_iff_eq.mp hc]
  · rintro rfl
    exact ⟨'.', rfl, rfl⟩

theorem matches_mantissaPattern_iff :
    mantissaPattern.Matches cs ↔ IsNumber cs := by
  constructor
  · rintro (⟨ds, -, hds, ⟨point, fs, hpoint, hfs, rfl⟩, rfl⟩ | ⟨point, fs, hpoint, hfs, rfl⟩)
    · rw [matches_digitsPattern_iff] at hds
      rcases hpoint with hpoint | hpoint
      · obtain rfl := matches_pointPattern_iff.mp hpoint
        exact ⟨_, .point hds.isDigit hds.ne_nil hfs⟩
      · obtain rfl : point = [] := hpoint
        refine ⟨_, .whole (List.forall_mem_append.mpr ⟨hds.isDigit, hfs⟩) ?_⟩
        simp [hds.ne_nil]
    · rw [matches_digitsPattern_iff] at hfs
      obtain rfl := matches_pointPattern_iff.mp hpoint
      exact ⟨_, .fraction hfs.isDigit hfs.ne_nil⟩
  · rintro ⟨x, h⟩
    have hpoint := matches_pointPattern_iff.mpr rfl
    have hnone : ∀ c ∈ ([] : List Char), c.isDigit = true := by simp
    cases h with
    | whole hds hne =>
        refine .inl ⟨cs, [], matches_digitsPattern_iff.mpr ⟨hne, hds⟩, ?_, by simp⟩
        exact ⟨[], [], .inr rfl, hnone, rfl⟩
    | @point ds fs hds hne hfs =>
        refine .inl ⟨ds, '.' :: fs, matches_digitsPattern_iff.mpr ⟨hne, hds⟩, ?_, rfl⟩
        exact ⟨['.'], fs, .inl hpoint, hfs, rfl⟩
    | @fraction fs hfs hne =>
        exact .inr ⟨['.'], fs, hpoint, matches_digitsPattern_iff.mpr ⟨hne, hfs⟩, rfl⟩

theorem matches_exponentPattern_iff :
    exponentPattern.Matches cs ↔ cs ≠ [] ∧ IsPowerText cs := by
  constructor
  · rintro ⟨-, -, ⟨mark, hmark, rfl⟩, ⟨text, ds, htext, hds, rfl⟩, rfl⟩
    obtain ⟨negative, hsign⟩ := matches_signPattern_iff.mp htext
    rw [Bool.or_eq_true, beq_iff_eq, beq_iff_eq] at hmark
    have hpower := IsPower.marked hmark hsign (matches_digitsPattern_iff.mp hds)
    exact ⟨List.cons_ne_nil _ _, _, hpower⟩
  · rintro ⟨hne, e, h⟩
    cases h with
    | absent => exact absurd rfl hne
    | @marked mark text ds negative hmark hsign hds =>
        refine ⟨[mark], text ++ ds, ⟨mark, by simpa using hmark, rfl⟩, ?_, rfl⟩
        exact ⟨text, ds, matches_signPattern_iff.mpr ⟨_, hsign⟩,
          matches_digitsPattern_iff.mpr hds, rfl⟩

theorem matches_optional_exponentPattern_iff :
    (Pattern.optional exponentPattern).Matches cs ↔ IsPowerText cs := by
  rw [Pattern.matches_optional_iff, matches_exponentPattern_iff]
  constructor
  · rintro (⟨-, h⟩ | rfl)
    · exact h
    · exact ⟨_, .absent⟩
  · intro h
    by_cases hnil : cs = []
    · exact .inr hnil
    · exact .inl ⟨hnil, h⟩

theorem matches_unsignedPattern_iff :
    unsignedPattern.Matches cs ↔ IsUnsigned cs := by
  constructor
  · rintro (hword | ⟨mantissa, power, hmantissa, hpower, rfl⟩)
    · obtain rfl := Pattern.matches_word_iff.mp hword
      exact ⟨_, .infinity⟩
    · obtain ⟨whole, fraction?, hparts, rfl⟩ :=
        exists_isMantissa_of_isNumber (matches_mantissaPattern_iff.mp hmantissa)
      obtain ⟨e, he⟩ := matches_optional_exponentPattern_iff.mp hpower
      exact ⟨_, .decimal hparts he⟩
  · rintro ⟨x, h⟩
    cases h with
    | infinity => exact .inl (Pattern.matches_word_iff.mpr rfl)
    | decimal hmantissa hpower =>
        exact .inr ⟨_, _, matches_mantissaPattern_iff.mpr (isNumber_of_isMantissa hmantissa),
          matches_optional_exponentPattern_iff.mpr ⟨_, hpower⟩, rfl⟩

/-- The texts that the pattern matches are those of numbers. -/
theorem matches_leadingPattern_iff :
    leadingPattern.Matches cs ↔ IsSigned cs := by
  constructor
  · rintro ⟨text, unsigned, htext, hunsigned, rfl⟩
    obtain ⟨negative, hsign⟩ := matches_signPattern_iff.mp htext
    obtain ⟨x, hx⟩ := matches_unsignedPattern_iff.mp hunsigned
    exact ⟨_, .intro hsign hx⟩
  · rintro ⟨-, ⟨hsign, hunsigned⟩⟩
    exact ⟨_, _, matches_signPattern_iff.mpr ⟨_, hsign⟩,
      matches_unsignedPattern_iff.mpr ⟨_, hunsigned⟩, rfl⟩

end Matches

section Preferred

variable {cs rest : List Char}

theorem find?_digitsPattern
    {ds : List Char}
    (hds : IsDigits ds)
    (hrest : ∀ c ∈ rest.head?, c.isDigit = false) :
    digitsPattern.find? (ds ++ rest) = some rest := by
  obtain ⟨d, ds, rfl⟩ := List.exists_cons_of_ne_nil hds.ne_nil
  obtain ⟨hd, hds⟩ := List.forall_mem_cons.mp hds.isDigit
  exact find?_seq (find?_one hd) (Pattern.find?_many hds hrest)

/-- Where no character of a class stands, an optional one is left out. -/
theorem find?_optional_one
    {kind : Char → Bool}
    (hcs : ∀ c ∈ cs.head?, kind c = false) :
    (Pattern.optional (.one kind)).find? cs = some cs := by
  refine (Pattern.find?_either_right ?_).trans rfl
  cases cs with
  | nil => rfl
  | cons c cs =>
      rw [Pattern.find?, Pattern.rests, hcs c rfl]
      rfl

theorem find?_signPattern
    {text : List Char} {negative : Bool}
    (hsign : IsSign text negative)
    (hcs : StartsUnsigned cs) :
    signPattern.find? (text ++ cs) = some cs := by
  cases hsign with
  | absent =>
      refine find?_optional_one fun c hc => ?_
      obtain ⟨hplus, hminus⟩ := hcs c hc
      simp [hplus, hminus]
  | plus => exact Pattern.find?_either_left (find?_one rfl)
  | minus => exact Pattern.find?_either_left (find?_one rfl)

theorem find?_mantissaPattern
    {whole : List Char} {fraction? : Option (List Char)}
    (h : IsMantissa whole fraction?)
    (hrest : Stops fraction? rest) :
    mantissaPattern.find? (Token.numeralText whole fraction? ++ rest) = some rest := by
  by_cases hwhole : whole = []
  · -- no digits in front: the first side of the choice has no match
    subst hwhole
    cases fraction? with
    | none => exact absurd h.ne_nil (by simp)
    | some fs =>
        have hfs : IsDigits fs := ⟨by simpa using h.ne_nil, h.isDigit_fraction fs rfl⟩
        refine (Pattern.find?_either_right ?_).trans
          (find?_seq (find?_one rfl) (find?_digitsPattern hfs hrest.digit))
        rfl
  · have hds : IsDigits whole := ⟨hwhole, h.isDigit⟩
    refine Pattern.find?_either_left ?_
    cases fraction? with
    | none =>
        have hpoint : (Pattern.optional pointPattern).find? rest = some rest := by
          refine find?_optional_one fun c hc => ?_
          rw [beq_eq_false_iff_ne]
          rintro rfl
          exact hrest.point rfl hc
        have hmany : (Pattern.many Char.isDigit).find? ([] ++ rest) = some rest :=
          Pattern.find?_many (by simp) hrest.digit
        exact find?_seq (find?_digitsPattern hds hrest.digit) (find?_seq hpoint hmany)
    | some fs =>
        have hpoint : (Pattern.optional pointPattern).find? ('.' :: (fs ++ rest)) =
            some (fs ++ rest) :=
          Pattern.find?_either_left (find?_one rfl)
        have hmany := Pattern.find?_many (h.isDigit_fraction fs rfl) hrest.digit
        rw [Token.numeralText, List.append_assoc]
        exact find?_seq (find?_digitsPattern hds (by simp)) (find?_seq hpoint hmany)

theorem find?_optional_exponentPattern
    {power : List Char} {e : Int}
    (hpower : IsPower power e)
    (hlongest : Longest IsPowerText power rest) :
    (Pattern.optional exponentPattern).find? (power ++ rest) = some rest := by
  cases hpower with
  | absent =>
      refine (Pattern.find?_either_right ?_).trans rfl
      rw [Pattern.find?_eq_none_iff]
      intro lexeme after heq hmatches
      obtain ⟨hne, hpower⟩ := matches_exponentPattern_iff.mp hmatches
      have hle := hlongest.length_le lexeme after heq hpower
      exact hne (List.eq_nil_of_length_eq_zero (Nat.le_zero.mp hle))
  | @marked mark text ds negative hmark hsign hds =>
      have hrest := not_isDigit_of_longest_power (.marked hmark hsign hds)
        (List.cons_ne_nil _ _) hlongest
      refine Pattern.find?_either_left ?_
      rw [List.cons_append, List.append_assoc]
      refine find?_seq (find?_one (by simpa using hmark)) ?_
      exact find?_seq (find?_signPattern hsign (startsUnsigned_of_isDigits hds))
        (find?_digitsPattern hds hrest)

theorem find?_unsignedPattern
    {lexeme : List Char} {x : Float}
    (h : DenotesUnsigned lexeme x)
    (hlongest : Longest IsUnsigned lexeme rest) :
    unsignedPattern.find? (lexeme ++ rest) = some rest := by
  cases h with
  | infinity => exact Pattern.find?_either_left (Pattern.find?_word infinityWord)
  | @decimal whole power fraction? e hmantissa hpower =>
      obtain ⟨hstops, hpowers⟩ := longest_parts hmantissa hpower hlongest
      rw [List.append_assoc]
      refine (Pattern.find?_either_right ?_).trans (find?_seq
        (find?_mantissaPattern hmantissa hstops) (find?_optional_exponentPattern hpower hpowers))
      rw [Pattern.find?_eq_none_iff]
      intro word after heq hword
      rw [Pattern.matches_word_iff] at hword
      have hnot := not_isPrefixOf_infinityWord (isNumber_of_isMantissa hmantissa) (power ++ rest)
      rw [← Bool.not_eq_true, List.isPrefixOf_iff_prefix, ← hword] at hnot
      exact hnot ⟨after, heq.symm⟩

/-- What the preferred match leaves is what the longest number leaves. -/
theorem find?_leadingPattern_iff :
    leadingPattern.find? cs = some rest ↔
      ∃ lexeme, cs = lexeme ++ rest ∧ Longest IsSigned lexeme rest := by
  have hlongest : ∀ lexeme after, Longest IsSigned lexeme after →
      leadingPattern.find? (lexeme ++ after) = some after := by
    intro lexeme after hlongest
    obtain ⟨x, hsign, hunsigned⟩ := hlongest.isForm
    have hbehind := longest_behind_sign hsign ⟨_, hunsigned⟩ hlongest
    rw [List.append_assoc]
    exact find?_seq (find?_signPattern hsign (hunsigned.startsUnsigned after))
      (find?_unsignedPattern hunsigned hbehind)
  constructor
  · intro hfind
    obtain ⟨lexeme, heq, hmatches⟩ := Pattern.exists_of_find? hfind
    obtain ⟨longest, after, rfl, hafter⟩ :=
      Grammar.exists_longest_of_form heq (matches_leadingPattern_iff.mp hmatches)
    rw [hlongest longest after hafter] at hfind
    obtain rfl := Option.some.inj hfind
    exact ⟨longest, rfl, hafter⟩
  · rintro ⟨lexeme, rfl, hafter⟩
    exact hlongest lexeme rest hafter

end Preferred

end Numeral
end LiveForms
