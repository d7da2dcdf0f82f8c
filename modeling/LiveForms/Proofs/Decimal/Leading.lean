import LiveForms.Proofs.Decimal.Readers
import LiveForms.Proofs.Expr.Lexing

/-!
# Live forms: the number that a text starts with

The reader of cells takes a number from the start of a text and does not look at what follows.
This module says which number that is, without the reader: the longest text of a number with
which the text starts. A sign may stand in front of it, a complete power of ten behind its
digits, and the word for an unbounded number in place of both.

The reader goes from left to right and never back. It can do so because at each place at most
one part of a number can go on: a digit or a point does not start a power of ten, and a mark
does not go on with a mantissa.

Main definitions:

* `Numeral.IsSign`, `Numeral.IsPower`: what stands around a mantissa.
* `Numeral.Denotes`: the texts of a number, and the number.
* `Numeral.IsSigned`: the texts of numbers.
* `Numeral.Continues`: the characters that a number may go on with.

Main statements:

* `Numeral.leading?_of_longest`: the reader takes the longest text of a number.
* `Numeral.leading?_eq_none_iff`: there is no number at the start if the reader finds none.
* `Numeral.existsUnique_denotes`: the text of a number denotes one number.
* `Numeral.leading?_numeralText`: a mantissa and the power of ten behind it.
* `Numeral.leading?_of_incomplete`, `Numeral.longest_append`: what may stand behind a number.
-/

namespace LiveForms

namespace Grammar

/-- A text that starts with a text of a form starts with a longest one. -/
theorem exists_longest_of_form
    {form : List Char → Prop} {cs lexeme rest : List Char}
    (heq : cs = lexeme ++ rest)
    (h : form lexeme) :
    ∃ longest after, cs = longest ++ after ∧ Longest form longest after := by
  -- on the length of what is left behind the text
  induction hlength : rest.length using Nat.strong_induction_on generalizing lexeme rest with
  | _ length ih =>
      by_cases hlonger : ∃ other after,
          cs = other ++ after ∧ form other ∧ lexeme.length < other.length
      · obtain ⟨other, after, hother, hform, hlt⟩ := hlonger
        refine ih after.length ?_ hother hform rfl
        have htotal := congrArg List.length (heq.symm.trans hother)
        simp only [List.length_append] at htotal
        omega
      · refine ⟨lexeme, rest, heq, h, ?_⟩
        intro other after hother hform
        by_contra hlt
        exact hlonger ⟨other, after, heq.trans hother, hform, by omega⟩

/-- The end of a longest text is a longest one itself. -/
theorem Longest.behind
    {form form' : List Char → Prop} {front lexeme rest : List Char}
    (h : Longest form (front ++ lexeme) rest)
    (hlexeme : form' lexeme)
    (hform : ∀ other, form' other → form (front ++ other)) :
    Longest form' lexeme rest := by
  refine ⟨hlexeme, ?_⟩
  intro other after heq hother
  have hwhole : front ++ lexeme ++ rest = front ++ other ++ after := by
    rw [List.append_assoc, heq, List.append_assoc]
  have hle := h.length_le _ _ hwhole (hform other hother)
  simp only [List.length_append] at hle
  omega

/-- A text as a whole is the longest one. -/
theorem longest_whole
    {form : List Char → Prop} {lexeme : List Char}
    (h : form lexeme) :
    Longest form lexeme [] := by
  refine ⟨h, ?_⟩
  intro other after heq _
  have htotal := congrArg List.length heq
  simp only [List.length_append, List.length_nil] at htotal
  omega

end Grammar

namespace Numeral

open Decimal (IsDigits)
open Grammar (IsNumber Longest)

section Parts

/-- A sign or none, and whether it is a minus. -/
inductive IsSign : List Char → Bool → Prop
  | absent : IsSign [] false
  | plus : IsSign ['+'] false
  | minus : IsSign ['-'] true

/-- A complete power of ten or none, and its exponent. -/
inductive IsPower : List Char → Int → Prop
  | absent : IsPower [] 0
  | marked
      {mark : Char} {sign ds : List Char} {negative : Bool}
      (hmark : mark = 'e' ∨ mark = 'E')
      (hsign : IsSign sign negative)
      (hds : IsDigits ds) :
      IsPower (mark :: (sign ++ ds))
        (if negative then -(Nat.ofDigitChars 10 ds 0 : Int) else Nat.ofDigitChars 10 ds 0)

/-- The texts of a complete power of ten, and the empty one. -/
def IsPowerText (text : List Char) : Prop :=
  ∃ exponent, IsPower text exponent

/-- The texts of a number without a sign, and the number. -/
inductive DenotesUnsigned : List Char → Float → Prop
  | infinity : DenotesUnsigned infinityWord (Binary64.ofRank Binary64.infinityRank)
  | decimal
      {whole power : List Char} {fraction? : Option (List Char)} {exponent : Int}
      (hmantissa : IsMantissa whole fraction?)
      (hpower : IsPower power exponent) :
      DenotesUnsigned (Token.numeralText whole fraction? ++ power)
        (value ⟨whole, fraction?.getD [], exponent⟩)

/-- The texts of a number, and the number. -/
inductive Denotes : List Char → Float → Prop
  | intro
      {sign unsigned : List Char} {negative : Bool} {x : Float}
      (hsign : IsSign sign negative)
      (hunsigned : DenotesUnsigned unsigned x) :
      Denotes (sign ++ unsigned) (signed negative x)

/-- The texts of numbers without a sign. -/
def IsUnsigned (lexeme : List Char) : Prop :=
  ∃ x, DenotesUnsigned lexeme x

/-- The texts of numbers. -/
def IsSigned (lexeme : List Char) : Prop :=
  ∃ x, Denotes lexeme x

theorem isNumber_of_isMantissa
    {whole : List Char} {fraction? : Option (List Char)}
    (h : IsMantissa whole fraction?) :
    IsNumber (Token.numeralText whole fraction?) :=
  Grammar.isNumber_iff.mpr
    ⟨whole, fraction?, h.isDigit, h.isDigit_fraction, h.ne_nil, rfl⟩

theorem exists_isMantissa_of_isNumber
    {lexeme : List Char}
    (h : IsNumber lexeme) :
    ∃ whole fraction?, IsMantissa whole fraction? ∧
      lexeme = Token.numeralText whole fraction? := by
  obtain ⟨whole, fraction?, hwhole, hfraction, hne, htext⟩ := Grammar.isNumber_iff.mp h
  exact ⟨whole, fraction?, ⟨hwhole, hfraction, hne⟩, htext⟩

/-- A mantissa is a number without a power of ten. -/
theorem isUnsigned_of_isNumber
    {lexeme : List Char}
    (h : IsNumber lexeme) :
    IsUnsigned lexeme := by
  obtain ⟨whole, fraction?, hmantissa, rfl⟩ := exists_isMantissa_of_isNumber h
  have hdenotes := DenotesUnsigned.decimal hmantissa .absent
  rw [List.append_nil] at hdenotes
  exact ⟨_, hdenotes⟩

/-- A number without a sign starts with a digit, with a point or with the word. -/
theorem DenotesUnsigned.head
    {lexeme : List Char} {x : Float}
    (h : DenotesUnsigned lexeme x) :
    ∃ c cs, lexeme = c :: cs ∧ (Token.startsNumber c = true ∨ c = 'I') := by
  cases h with
  | infinity => exact ⟨'I', _, rfl, .inr rfl⟩
  | decimal hmantissa hpower =>
      obtain ⟨c, cs, htext, hc⟩ := Grammar.head_of_isNumber (isNumber_of_isMantissa hmantissa)
      exact ⟨c, _, congrArg (· ++ _) htext, .inl hc⟩

end Parts

section Signs

/-- A text that does not start with a sign. -/
def StartsUnsigned (cs : List Char) : Prop :=
  ∀ c ∈ cs.head?, c ≠ '+' ∧ c ≠ '-'

theorem startsUnsigned_cons
    {c : Char}
    (hc : Token.startsNumber c = true ∨ c = 'I')
    (cs : List Char) :
    StartsUnsigned (c :: cs) := by
  rintro x hx
  obtain rfl := Option.some.inj hx
  constructor
  · rintro rfl
    exact absurd hc (by decide)
  · rintro rfl
    exact absurd hc (by decide)

theorem startsUnsigned_of_isDigits
    {ds rest : List Char}
    (hds : IsDigits ds) :
    StartsUnsigned (ds ++ rest) := by
  obtain ⟨d, ds, rfl⟩ := List.exists_cons_of_ne_nil hds.ne_nil
  have hd := hds.isDigit d List.mem_cons_self
  exact startsUnsigned_cons (.inl (by simp [Token.startsNumber, hd])) _

theorem DenotesUnsigned.startsUnsigned
    {lexeme : List Char} {x : Float}
    (h : DenotesUnsigned lexeme x)
    (rest : List Char) :
    StartsUnsigned (lexeme ++ rest) := by
  obtain ⟨c, cs, rfl, hc⟩ := h.head
  exact startsUnsigned_cons hc _

theorem sign_append
    {text cs : List Char} {negative : Bool}
    (hsign : IsSign text negative)
    (hcs : StartsUnsigned cs) :
    sign (text ++ cs) = (negative, cs) := by
  cases hsign with
  | absent =>
      rw [List.nil_append, sign]
      · rintro cs' rfl
        exact (hcs '-' rfl).2 rfl
      · rintro cs' rfl
        exact (hcs '+' rfl).1 rfl
  | plus => rfl
  | minus => rfl

theorem sign_spec
    (cs : List Char) :
    ∃ text, IsSign text (sign cs).1 ∧ cs = text ++ (sign cs).2 := by
  unfold sign
  split
  · exact ⟨_, .minus, rfl⟩
  · exact ⟨_, .plus, rfl⟩
  · exact ⟨_, .absent, rfl⟩

/-- Where a sign ends does not depend on what the text is taken for. -/
theorem IsSign.append_inj
    {text text' cs cs' : List Char} {negative negative' : Bool}
    (h : IsSign text negative)
    (h' : IsSign text' negative')
    (hcs : StartsUnsigned cs)
    (hcs' : StartsUnsigned cs')
    (heq : text ++ cs = text' ++ cs') :
    text = text' ∧ cs = cs' := by
  have hsign := sign_append h hcs
  rw [heq, sign_append h' hcs'] at hsign
  obtain rfl : cs' = cs := congrArg Prod.snd hsign
  exact ⟨List.append_cancel_right heq, rfl⟩

end Signs

section Powers

/-- What is read behind a mark. -/
theorem leadingPower_of_mark
    {mark : Char}
    (hmark : mark = 'e' ∨ mark = 'E')
    (cs : List Char) :
    leadingPower (mark :: cs) =
      if (sign cs).1 then
        -(Nat.ofDigitChars 10 (digits (sign cs).2).1 0 : Int)
      else
        Nat.ofDigitChars 10 (digits (sign cs).2).1 0 := by
  rw [leadingPower, if_pos (by simpa using hmark)]

/-- A text starts with no power of ten, which is read as zero, or with a complete one. -/
theorem leadingPower_eq_zero_or
    (cs : List Char) :
    leadingPower cs = 0 ∨
      ∃ power rest exponent, IsPower power exponent ∧ power ≠ [] ∧ cs = power ++ rest := by
  cases cs with
  | nil => exact .inl rfl
  | cons mark cs =>
      by_cases hmark : mark = 'e' ∨ mark = 'E'
      · obtain ⟨text, hsign, hcs⟩ := sign_spec cs
        obtain ⟨hds, hsplit⟩ := Grammar.digits_spec (sign cs).2
        by_cases hne : (digits (sign cs).2).1 = []
        · refine .inl ?_
          rw [leadingPower_of_mark hmark, hne]
          simp
        · refine .inr ⟨_, (digits (sign cs).2).2, _, .marked hmark hsign ⟨hne, hds⟩,
            List.cons_ne_nil _ _, ?_⟩
          rw [List.cons_append, List.append_assoc, ← hsplit, ← hcs]
      · exact .inl (by rw [leadingPower, if_neg (by simpa using hmark)])

/-- No digit follows a complete power of ten that is the longest. -/
theorem not_isDigit_of_longest_power
    {power rest : List Char} {exponent : Int}
    (hpower : IsPower power exponent)
    (hne : power ≠ [])
    (hlongest : Longest IsPowerText power rest) :
    ∀ c ∈ rest.head?, c.isDigit = false := by
  intro c hc
  rw [Bool.eq_false_iff]
  intro hdigit
  refine hlongest.not_form_concat c hc ?_
  cases hpower with
  | absent => exact absurd rfl hne
  | @marked mark text ds negative hmark hsign hds =>
      have hdigits : IsDigits (ds ++ [c]) := by
        refine ⟨by simp, ?_⟩
        intro d hd
        rcases List.mem_append.mp hd with hd | hd
        · exact hds.isDigit d hd
        · rwa [List.mem_singleton.mp hd]
      have hlonger := IsPower.marked hmark hsign hdigits
      rw [← List.append_assoc, ← List.cons_append] at hlonger
      exact ⟨_, hlonger⟩

/-- The power of ten that is read is the longest one. -/
theorem leadingPower_of_longest
    {power rest : List Char} {exponent : Int}
    (hpower : IsPower power exponent)
    (hlongest : Longest IsPowerText power rest) :
    leadingPower (power ++ rest) = exponent := by
  cases hpower with
  | absent =>
      rcases leadingPower_eq_zero_or rest with hzero | ⟨power, after, e, hpower, hne, rfl⟩
      · exact hzero
      · have hle := hlongest.length_le power after rfl ⟨e, hpower⟩
        exact absurd (List.eq_nil_of_length_eq_zero (Nat.le_zero.mp hle)) hne
  | marked hmark hsign hds =>
      have hrest := not_isDigit_of_longest_power (.marked hmark hsign hds)
        (List.cons_ne_nil _ _) hlongest
      rw [List.cons_append, List.append_assoc, leadingPower_of_mark hmark,
        sign_append hsign (startsUnsigned_of_isDigits hds), Grammar.digits_append hds.isDigit hrest]

end Powers

section Unsigned

/-- The number without a sign that a text starts with. -/
def leadingUnsigned? (cs : List Char) : Option Float :=
  if infinityWord.isPrefixOf cs then
    some (Binary64.ofRank Binary64.infinityRank)
  else
    (mantissa? cs).map fun parts =>
      value ⟨parts.1, parts.2.1, leadingPower parts.2.2⟩

theorem leading?_eq
    (cs : List Char) :
    leading? cs = (leadingUnsigned? (sign cs).2).map (signed (sign cs).1) := by
  simp only [leading?, leadingUnsigned?]
  split
  · rfl
  · cases mantissa? (sign cs).2 <;> rfl

/-- Behind a mantissa that is the longest, neither a digit nor a fraction can follow. -/
theorem stops_of_longest
    {whole rest : List Char} {fraction? : Option (List Char)}
    (h : IsMantissa whole fraction?)
    (hlongest : Longest IsNumber (Token.numeralText whole fraction?) rest) :
    Stops fraction? rest := by
  have hstops := hlongest.not_form_concat
  refine ⟨?_, ?_⟩
  · intro c hc
    rw [Bool.eq_false_iff]
    intro hdigit
    exact hstops c hc (Grammar.isNumber_concat_digit (isNumber_of_isMantissa h) hdigit)
  · rintro rfl hpoint
    have hmantissa : IsMantissa whole (some []) := ⟨h.isDigit, by simp, by simpa using h.ne_nil⟩
    exact hstops '.' hpoint (isNumber_of_isMantissa hmantissa)

/-- A mark ends a mantissa. -/
theorem stops_of_mark
    {mark : Char}
    (hmark : mark = 'e' ∨ mark = 'E')
    (fraction? : Option (List Char))
    (rest : List Char) :
    Stops fraction? (mark :: rest) := by
  refine ⟨?_, ?_⟩
  · intro c hc
    obtain rfl := Option.some.inj hc
    rcases hmark with rfl | rfl
    · rfl
    · rfl
  · rintro - hpoint
    obtain rfl := Option.some.inj hpoint
    exact absurd hmark (by decide)

/-- Where the parts of a longest number end. -/
theorem longest_parts
    {whole power rest : List Char} {fraction? : Option (List Char)} {exponent : Int}
    (hmantissa : IsMantissa whole fraction?)
    (hpower : IsPower power exponent)
    (hlongest : Longest IsUnsigned (Token.numeralText whole fraction? ++ power) rest) :
    Stops fraction? (power ++ rest) ∧ Longest IsPowerText power rest := by
  refine ⟨?_, hlongest.behind ⟨_, hpower⟩ fun other hother => ?_⟩
  · cases hpower with
    | absent =>
        refine stops_of_longest hmantissa ⟨isNumber_of_isMantissa hmantissa, ?_⟩
        intro other after heq hother
        have hle := hlongest.length_le other after (by simpa using heq)
          (isUnsigned_of_isNumber hother)
        simpa using hle
    | marked hmark hsign hds => exact stops_of_mark hmark _ _
  · obtain ⟨e, hother⟩ := hother
    exact ⟨_, .decimal hmantissa hother⟩

theorem not_isPrefixOf_infinityWord
    {lexeme : List Char}
    (h : IsNumber lexeme)
    (rest : List Char) :
    infinityWord.isPrefixOf (lexeme ++ rest) = false := by
  obtain ⟨c, cs, rfl, hc⟩ := Grammar.head_of_isNumber h
  have hne : ('I' == c) = false := by
    rw [beq_eq_false_iff_ne]
    rintro rfl
    exact absurd hc (by decide)
  rw [infinityWord, List.cons_append, List.isPrefixOf, hne, Bool.false_and]

/-- The mantissa at the start of a text ends where the numeral stops. -/
theorem mantissa?_numeralText
    {whole : List Char} {fraction? : Option (List Char)} {rest : List Char}
    (h : IsMantissa whole fraction?)
    (hrest : Stops fraction? rest) :
    mantissa? (Token.numeralText whole fraction? ++ rest) =
      some (whole, fraction?.getD [], rest) := by
  simp only [mantissa?, Grammar.digits_numeralText h.isDigit hrest.digit]
  cases fraction? with
  | none =>
      have hne : whole ≠ [] := by simpa using h.ne_nil
      cases rest with
      | nil => simp [Token.numeralText, hne]
      | cons c rest =>
          have hc : c ≠ '.' := by simpa using hrest.point rfl
          simp [Token.numeralText, hne, hc]
  | some fs =>
      have hne : ¬ (whole.isEmpty && fs.isEmpty) = true := by
        rw [Bool.and_eq_true, List.isEmpty_iff, List.isEmpty_iff, not_and_or]
        exact h.ne_nil
      simp only [Token.numeralText, List.nil_append, List.cons_append, digits_fraction h hrest,
        if_neg hne, Option.getD_some]

/-- A number that starts with a mantissa has it up to where it stops. -/
theorem leadingUnsigned?_numeralText
    {whole rest : List Char} {fraction? : Option (List Char)}
    (h : IsMantissa whole fraction?)
    (hrest : Stops fraction? rest) :
    leadingUnsigned? (Token.numeralText whole fraction? ++ rest) =
      some (value ⟨whole, fraction?.getD [], leadingPower rest⟩) := by
  rw [leadingUnsigned?, not_isPrefixOf_infinityWord (isNumber_of_isMantissa h),
    if_neg Bool.false_ne_true, mantissa?_numeralText h hrest, Option.map_some]

theorem leadingUnsigned?_of_longest
    {lexeme rest : List Char} {x : Float}
    (h : DenotesUnsigned lexeme x)
    (hlongest : Longest IsUnsigned lexeme rest) :
    leadingUnsigned? (lexeme ++ rest) = some x := by
  cases h with
  | infinity =>
      rw [leadingUnsigned?, if_pos]
      exact List.isPrefixOf_iff_prefix.mpr (List.prefix_append _ _)
  | @decimal whole power fraction? exponent hmantissa hpower =>
      obtain ⟨hstops, hpowers⟩ := longest_parts hmantissa hpower hlongest
      rw [List.append_assoc, leadingUnsigned?_numeralText hmantissa hstops,
        leadingPower_of_longest hpower hpowers]

/-- A text of which the reader of mantissas makes something starts with one. -/
theorem exists_isNumber_of_mantissa?
    {cs : List Char}
    (h : mantissa? cs ≠ none) :
    ∃ lexeme rest, cs = lexeme ++ rest ∧ IsNumber lexeme := by
  obtain ⟨ds, fraction?, rest, rfl, hds, hfs, hdigit, hpoint⟩ := Grammar.exists_numeralText cs
  refine ⟨_, rest, rfl, Grammar.isNumber_iff.mpr ⟨ds, fraction?, hds, hfs, ?_, rfl⟩⟩
  by_contra hempty
  simp only [not_or, not_not] at hempty
  obtain ⟨rfl, hfraction⟩ := hempty
  refine h ?_
  simp only [mantissa?, Grammar.digits_numeralText hds hdigit]
  cases fraction? with
  | none =>
      cases rest with
      | nil => rfl
      | cons c rest =>
          have hc : c ≠ '.' := by simpa using hpoint rfl
          simp [Token.numeralText, hc]
  | some fs =>
      obtain rfl : fs = [] := hfraction
      have hnone : digits rest = ([], rest) := Grammar.digits_append hds hdigit
      simp [Token.numeralText, hnone]

theorem exists_isUnsigned_of_leadingUnsigned?
    {cs : List Char}
    (h : leadingUnsigned? cs ≠ none) :
    ∃ lexeme rest, cs = lexeme ++ rest ∧ IsUnsigned lexeme := by
  rw [leadingUnsigned?] at h
  split at h
  · rename_i hword
    obtain ⟨rest, rfl⟩ := List.isPrefixOf_iff_prefix.mp hword
    exact ⟨infinityWord, rest, rfl, _, .infinity⟩
  · have hmantissa : mantissa? cs ≠ none := by simpa using h
    obtain ⟨lexeme, rest, heq, hnumber⟩ := exists_isNumber_of_mantissa? hmantissa
    exact ⟨lexeme, rest, heq, isUnsigned_of_isNumber hnumber⟩

end Unsigned

section Signed

/-- Behind its sign, a longest number is a longest one without a sign. -/
theorem longest_behind_sign
    {text unsigned rest : List Char} {negative : Bool}
    (hsign : IsSign text negative)
    (hunsigned : IsUnsigned unsigned)
    (hlongest : Longest IsSigned (text ++ unsigned) rest) :
    Longest IsUnsigned unsigned rest := by
  refine hlongest.behind hunsigned ?_
  rintro other ⟨x, hother⟩
  exact ⟨_, .intro hsign hother⟩

/-- The reader of cells takes the longest text of a number. -/
theorem leading?_of_longest
    {lexeme rest : List Char} {x : Float}
    (h : Denotes lexeme x)
    (hlongest : Longest IsSigned lexeme rest) :
    leading? (lexeme ++ rest) = some x := by
  obtain ⟨hsign, hunsigned⟩ := h
  have hbehind := longest_behind_sign hsign ⟨_, hunsigned⟩ hlongest
  rw [List.append_assoc, leading?_eq, sign_append hsign (hunsigned.startsUnsigned rest),
    leadingUnsigned?_of_longest hunsigned hbehind, Option.map_some]

/-- The reader of cells finds nothing exactly if a text starts with no number. -/
theorem leading?_eq_none_iff
    {cs : List Char} :
    leading? cs = none ↔ ∀ lexeme rest, cs = lexeme ++ rest → ¬ IsSigned lexeme := by
  constructor
  · rintro hnone lexeme rest rfl hlexeme
    obtain ⟨longest, after, heq, hlongest⟩ := Grammar.exists_longest_of_form rfl hlexeme
    obtain ⟨x, hx⟩ := hlongest.isForm
    rw [heq, leading?_of_longest hx hlongest] at hnone
    cases hnone
  · intro hnot
    by_contra hsome
    rw [leading?_eq, Option.map_eq_none_iff] at hsome
    obtain ⟨unsigned, rest, hsplit, x, hx⟩ := exists_isUnsigned_of_leadingUnsigned? hsome
    obtain ⟨text, hsign, hcs⟩ := sign_spec cs
    rw [hsplit, ← List.append_assoc] at hcs
    exact hnot _ rest hcs ⟨_, .intro hsign hx⟩

/-- What the reader of cells makes of a text. -/
theorem leading?_eq_some_iff
    {cs : List Char} {x : Float} :
    leading? cs = some x ↔
      ∃ lexeme rest, cs = lexeme ++ rest ∧ Longest IsSigned lexeme rest ∧ Denotes lexeme x := by
  constructor
  · intro hsome
    have hne : leading? cs ≠ none := by
      rw [hsome]
      exact Option.some_ne_none x
    rw [Ne, leading?_eq_none_iff] at hne
    simp only [not_forall, not_not] at hne
    obtain ⟨lexeme, rest, heq, hlexeme⟩ := hne
    obtain ⟨longest, after, rfl, hlongest⟩ := Grammar.exists_longest_of_form heq hlexeme
    obtain ⟨y, hy⟩ := hlongest.isForm
    rw [leading?_of_longest hy hlongest] at hsome
    obtain rfl := Option.some.inj hsome
    exact ⟨longest, after, rfl, hlongest, hy⟩
  · rintro ⟨lexeme, rest, rfl, hlongest, hx⟩
    exact leading?_of_longest hx hlongest

/-- The text of a number denotes one number. -/
theorem existsUnique_denotes
    {lexeme : List Char}
    (h : IsSigned lexeme) :
    ∃! x, Denotes lexeme x := by
  obtain ⟨x, hx⟩ := h
  have hread : ∀ y, Denotes lexeme y → leading? (lexeme ++ []) = some y :=
    fun y hy => leading?_of_longest hy (Grammar.longest_whole ⟨y, hy⟩)
  refine ⟨x, hx, fun y hy => ?_⟩
  have hsame := hread y hy
  rw [hread x hx] at hsame
  exact (Option.some.inj hsame).symm

end Signed

section Behind

/-- The reader of cells reads a mantissa and the power of ten behind it. -/
theorem leading?_numeralText
    {text whole rest : List Char} {fraction? : Option (List Char)} {negative : Bool}
    (hsign : IsSign text negative)
    (hmantissa : IsMantissa whole fraction?)
    (hrest : Stops fraction? rest) :
    leading? (text ++ (Token.numeralText whole fraction? ++ rest)) =
      some (signed negative (value ⟨whole, fraction?.getD [], leadingPower rest⟩)) := by
  obtain ⟨x, hx⟩ := isUnsigned_of_isNumber (isNumber_of_isMantissa hmantissa)
  rw [leading?_eq, sign_append hsign (hx.startsUnsigned rest),
    leadingUnsigned?_numeralText hmantissa hrest, Option.map_some]

theorem leading?_parts
    {negative : Bool} {whole : List Char} {fraction? : Option (List Char)} {rest : List Char}
    (h : Complete whole fraction?)
    (hrest : Stops fraction? rest) :
    leading? (parts negative whole fraction? rest) =
      some (signed negative (value ⟨whole, fraction?.getD [], leadingPower rest⟩)) := by
  have hsign : IsSign (if negative then ['-'] else []) negative := by
    cases negative with
    | false => exact .absent
    | true => exact .minus
  exact leading?_numeralText hsign h.isMantissa hrest

/-- A power of ten that is not complete is cut off. -/
theorem leading?_of_incomplete
    {text whole rest : List Char} {fraction? : Option (List Char)} {negative : Bool} {mark : Char}
    (hsign : IsSign text negative)
    (hmantissa : IsMantissa whole fraction?)
    (hmark : mark = 'e' ∨ mark = 'E')
    (hincomplete : ∀ power after exponent,
      mark :: rest = power ++ after → IsPower power exponent → power = []) :
    leading? (text ++ (Token.numeralText whole fraction? ++ mark :: rest)) =
      some (signed negative (value ⟨whole, fraction?.getD [], 0⟩)) := by
  have hlongest : Longest IsPowerText [] (mark :: rest) := by
    refine ⟨⟨0, .absent⟩, ?_⟩
    rintro other after heq ⟨e, hother⟩
    rw [hincomplete other after e heq hother]
  have hpower : leadingPower (mark :: rest) = 0 := leadingPower_of_longest .absent hlongest
  rw [leading?_numeralText hsign hmantissa (stops_of_mark hmark _ _), hpower]

/-- The characters of numbers, but for those of the word. -/
def Continues (c : Char) : Prop :=
  c.isDigit = true ∨ c = '.' ∨ c = 'e' ∨ c = 'E' ∨ c = '+' ∨ c = '-'

theorem IsSign.continues
    {text : List Char} {negative : Bool}
    (h : IsSign text negative) :
    ∀ c ∈ text, Continues c := by
  cases h with
  | absent => simp
  | plus => simp [Continues]
  | minus => simp [Continues]

theorem IsMantissa.continues
    {whole : List Char} {fraction? : Option (List Char)}
    (h : IsMantissa whole fraction?) :
    ∀ c ∈ Token.numeralText whole fraction?, Continues c := by
  intro c hc
  cases fraction? with
  | none => exact .inl (h.isDigit c hc)
  | some fs =>
      rw [Token.numeralText, List.mem_append, List.mem_cons] at hc
      rcases hc with hc | hc | hc
      · exact .inl (h.isDigit c hc)
      · exact .inr (.inl hc)
      · exact .inl (h.isDigit_fraction fs rfl c hc)

theorem IsPower.continues
    {power : List Char} {exponent : Int}
    (h : IsPower power exponent) :
    ∀ c ∈ power, Continues c := by
  cases h with
  | absent => simp
  | marked hmark hsign hds =>
      intro c hc
      rw [List.mem_cons, List.mem_append] at hc
      rcases hc with rfl | hc | hc
      · exact .inr (.inr (hmark.imp_right .inl))
      · exact hsign.continues c hc
      · exact .inl (hds.isDigit c hc)

/-- A number is the word behind a sign, or consists of the characters of decimals. -/
theorem Denotes.infinity_or_continues
    {lexeme : List Char} {x : Float}
    (h : Denotes lexeme x) :
    (∃ text negative, IsSign text negative ∧ lexeme = text ++ infinityWord) ∨
      ∀ c ∈ lexeme, Continues c := by
  obtain ⟨hsign, hunsigned⟩ := h
  cases hunsigned with
  | infinity => exact .inl ⟨_, _, hsign, rfl⟩
  | decimal hmantissa hpower =>
      refine .inr (List.forall_mem_append.mpr ⟨hsign.continues, ?_⟩)
      exact List.forall_mem_append.mpr ⟨hmantissa.continues, hpower.continues⟩

/-- A number at the start of the word behind a sign is all of it. -/
theorem Denotes.eq_of_infinity
    {lexeme text rest : List Char} {negative : Bool} {x : Float}
    (h : Denotes lexeme x)
    (hsign : IsSign text negative)
    (heq : lexeme ++ rest = text ++ infinityWord) :
    rest = [] := by
  obtain ⟨hsign', hunsigned⟩ := h
  rw [List.append_assoc] at heq
  obtain ⟨-, hword⟩ := hsign'.append_inj hsign (hunsigned.startsUnsigned rest)
    (DenotesUnsigned.infinity.startsUnsigned []) heq
  cases hunsigned with
  | infinity => exact List.append_cancel_left (hword.trans (List.append_nil _).symm)
  | @decimal whole power fraction? exponent hmantissa hpower =>
      have hnot := not_isPrefixOf_infinityWord (isNumber_of_isMantissa hmantissa) (power ++ rest)
      rw [← List.append_assoc, hword] at hnot
      exact absurd hnot (by decide)

/-- A text behind a number that does not go on with it leaves it the longest. -/
theorem longest_append
    {lexeme rest more : List Char}
    (hlongest : Longest IsSigned lexeme rest)
    (hmore : ∀ c ∈ more.head?, ¬ Continues c) :
    Longest IsSigned lexeme (rest ++ more) := by
  refine ⟨hlongest.isForm, ?_⟩
  rintro other after heq ⟨y, hother⟩
  rw [← List.append_assoc] at heq
  rcases List.append_eq_append_iff.mp heq with ⟨mid, rfl, hmid⟩ | ⟨mid, hmid, rfl⟩
  · -- the other number ends in the text behind
    cases mid with
    | nil =>
        rw [List.append_nil] at hother ⊢
        exact hlongest.length_le _ [] (List.append_nil _).symm ⟨y, hother⟩
    | cons c mid =>
        exfalso
        have hc : ¬ Continues c := hmore c (by rw [hmid]; rfl)
        rcases hother.infinity_or_continues with ⟨text, negative, hsign, hword⟩ | hall
        · obtain ⟨x, hx⟩ := hlongest.isForm
          rw [List.append_assoc] at hword
          have hnil := hx.eq_of_infinity hsign hword
          exact absurd hnil (by simp)
        · exact hc (hall c (by simp))
  · exact hlongest.length_le other mid hmid ⟨y, hother⟩

end Behind

end Numeral
end LiveForms
