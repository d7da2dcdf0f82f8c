import LiveForms.Proofs.Decimal.Written
import LiveForms.Proofs.Expr.Parsing

/-!
# Live forms: three readers of numbers

The value of an input is read as a whole, the text of a cell as far as it is a number, and
an expression by its lexemes. All three split a numeral into the same parts: a sign, digits,
and digits behind a point. So a text that the value of an input may have is read by all of
them, and as the same number. The reader of cells takes other texts as well, and has a module
of its own.

Main definitions:

* `Numeral.IsLiteral`: the texts that the value of an input may have.
* `Numeral.parts`: a numeral in its parts, in front of some other text.
* `Numeral.IsMantissa`: digits and perhaps a point, on one side of which digits may be missing.

Main statements:

* `Numeral.isSome_plain?_iff`: the reader of inputs takes these texts and no others.
* `Numeral.plain?_parts`: what the reader of inputs makes of the parts.
* `Numeral.parse_parts`: what the reader of expressions makes of them.
-/

namespace LiveForms
namespace Numeral

open Decimal (IsDigits)

/-- The texts that match `-?[0-9]*\.?[0-9]+`. -/
inductive IsLiteral : List Char → Prop
  | intro
      {sign whole point last : List Char}
      (hsign : sign = [] ∨ sign = ['-'])
      (hwhole : ∀ c ∈ whole, c.isDigit = true)
      (hpoint : point = [] ∨ point = ['.'])
      (hlast : IsDigits last) :
      IsLiteral (sign ++ whole ++ point ++ last)

/-- A sign, digits, and perhaps a point with digits behind it, in front of a text. -/
def parts (negative : Bool) (whole : List Char) (fraction? : Option (List Char))
    (rest : List Char) : List Char :=
  (if negative then ['-'] else []) ++ (Token.numeralText whole fraction? ++ rest)

/-- The parts of a numeral with a digit at least, and with none missing behind a point. -/
structure Complete (whole : List Char) (fraction? : Option (List Char)) : Prop where
  isDigit : ∀ c ∈ whole, c.isDigit = true
  isDigits : ∀ fs ∈ fraction?, IsDigits fs
  ne_nil : fraction? = none → whole ≠ []

/-- The parts of a numeral with a digit at least, which may be missing behind a point. -/
structure IsMantissa (whole : List Char) (fraction? : Option (List Char)) : Prop where
  isDigit : ∀ c ∈ whole, c.isDigit = true
  isDigit_fraction : ∀ fs ∈ fraction?, ∀ c ∈ fs, c.isDigit = true
  ne_nil : whole ≠ [] ∨ fraction?.getD [] ≠ []

/-- A text that does not go on with a digit, nor with a point and a fraction. -/
structure Stops (fraction? : Option (List Char)) (rest : List Char) : Prop where
  digit : ∀ c ∈ rest.head?, c.isDigit = false
  point : fraction? = none → rest.head? ≠ some '.'

theorem stops_nil
    (fraction? : Option (List Char)) :
    Stops fraction? [] :=
  ⟨by simp, by simp⟩

theorem Complete.isMantissa
    {whole : List Char} {fraction? : Option (List Char)}
    (h : Complete whole fraction?) :
    IsMantissa whole fraction? := by
  refine ⟨h.isDigit, fun fs hfs => (h.isDigits fs hfs).isDigit, ?_⟩
  cases fraction? with
  | none => exact .inl (h.ne_nil rfl)
  | some fs => exact .inr (h.isDigits fs rfl).ne_nil

section Parts

theorem isLiteral_iff
    {cs : List Char} :
    IsLiteral cs ↔ ∃ negative whole fraction?, Complete whole fraction? ∧
      cs = parts negative whole fraction? [] := by
  constructor
  · rintro ⟨hsign, hwhole, hpoint, hlast⟩
    rename_i sign whole point last
    have hparts : ∃ whole' fraction?, Complete whole' fraction? ∧
        whole ++ (point ++ last) = Token.numeralText whole' fraction? := by
      rcases hpoint with rfl | rfl
      · refine ⟨whole ++ last, none, ⟨?_, by simp, by simp [hlast.ne_nil]⟩, rfl⟩
        intro c hc
        exact (List.mem_append.mp hc).elim (hwhole c) (hlast.isDigit c)
      · exact ⟨whole, some last, ⟨hwhole, by simpa using hlast, by simp⟩, rfl⟩
    obtain ⟨whole', fraction?, hcomplete, htext⟩ := hparts
    rcases hsign with rfl | rfl
    · refine ⟨false, whole', fraction?, hcomplete, ?_⟩
      simp [parts, ← htext]
    · refine ⟨true, whole', fraction?, hcomplete, ?_⟩
      simp [parts, ← htext]
  · rintro ⟨negative, whole, fraction?, hcomplete, rfl⟩
    have hsign : (if negative then ['-'] else []) = [] ∨
        (if negative then ['-'] else []) = ['-'] := by
      cases negative <;> simp
    cases fraction? with
    | none =>
        have hlast : IsDigits whole := ⟨hcomplete.ne_nil rfl, hcomplete.isDigit⟩
        have hnone : ∀ c ∈ ([] : List Char), c.isDigit = true := by simp
        have hliteral := IsLiteral.intro hsign hnone (.inl rfl) hlast
        simpa [parts, Token.numeralText] using hliteral
    | some fs =>
        have hliteral :=
          IsLiteral.intro hsign hcomplete.isDigit (.inr rfl) (hcomplete.isDigits fs rfl)
        simpa [parts, Token.numeralText] using hliteral

/-- Of which characters a literal consists. -/
theorem IsLiteral.of_mem
    {cs : List Char}
    (h : IsLiteral cs)
    {c : Char}
    (hc : c ∈ cs) :
    c = '-' ∨ c.isDigit = true ∨ c = '.' := by
  obtain ⟨hsign, hwhole, hpoint, hlast⟩ := h
  rw [List.mem_append, List.mem_append, List.mem_append] at hc
  rcases hc with ((hc | hc) | hc) | hc
  · rcases hsign with rfl | rfl
    · cases hc
    · exact .inl (List.mem_singleton.mp hc)
  · exact .inr (.inl (hwhole c hc))
  · rcases hpoint with rfl | rfl
    · cases hc
    · exact .inr (.inr (List.mem_singleton.mp hc))
  · exact .inr (.inl (hlast.isDigit c hc))

/-- A numeral starts with a digit or with a point. -/
theorem Complete.head
    {whole : List Char} {fraction? : Option (List Char)}
    (h : Complete whole fraction?)
    (rest : List Char) :
    ∃ c cs, Token.numeralText whole fraction? ++ rest = c :: cs ∧
      (c.isDigit = true ∨ c = '.') := by
  cases whole with
  | cons d ds =>
      have hd := h.isDigit d List.mem_cons_self
      cases fraction? with
      | none => exact ⟨d, ds ++ rest, rfl, .inl hd⟩
      | some fs => exact ⟨d, (ds ++ '.' :: fs) ++ rest, rfl, .inl hd⟩
  | nil =>
      cases fraction? with
      | none => exact absurd rfl (h.ne_nil rfl)
      | some fs => exact ⟨'.', fs ++ rest, rfl, .inr rfl⟩

theorem not_isSign
    {c : Char}
    (hc : c.isDigit = true ∨ c = '.') :
    c ≠ '-' ∧ c ≠ '+' ∧ c ≠ 'I' := by
  refine ⟨?_, ?_, ?_⟩
  all_goals
    rintro rfl
    revert hc
    decide

theorem minus_parts
    {negative : Bool} {whole : List Char} {fraction? : Option (List Char)}
    (h : Complete whole fraction?)
    (rest : List Char) :
    minus (parts negative whole fraction? rest) =
      (negative, Token.numeralText whole fraction? ++ rest) := by
  obtain ⟨c, cs, htext, hc⟩ := h.head rest
  rw [parts, htext]
  cases negative with
  | true => rfl
  | false =>
      rw [if_neg Bool.false_ne_true, List.nil_append, minus]
      intro cs' heq
      exact (not_isSign hc).1 (List.cons.inj heq).1

end Parts

section Inputs

theorem digits_fraction
    {whole fs rest : List Char}
    (h : IsMantissa whole (some fs))
    (hrest : Stops (some fs) rest) :
    digits (fs ++ rest) = (fs, rest) :=
  Grammar.digits_append (h.isDigit_fraction fs rfl) hrest.digit

/-- The reader of inputs reads a literal by its parts. -/
theorem plain?_parts
    {negative : Bool} {whole : List Char} {fraction? : Option (List Char)}
    (h : Complete whole fraction?) :
    plain? (parts negative whole fraction? []) =
      some (signed negative (value ⟨whole, fraction?.getD [], 0⟩)) := by
  simp only [plain?, minus_parts h,
    Grammar.digits_numeralText h.isDigit (stops_nil fraction?).digit]
  cases fraction? with
  | none => simp [Token.numeralText, h.ne_nil rfl]
  | some fs =>
      have hfs := digits_fraction h.isMantissa (stops_nil _)
      rw [List.append_nil] at hfs
      simp [Token.numeralText, hfs, (h.isDigits fs rfl).ne_nil]

theorem minus_spec
    (cs : List Char) :
    cs = (if (minus cs).1 then ['-'] else []) ++ (minus cs).2 := by
  have hminus : (∃ rest, cs = '-' :: rest ∧ minus cs = (true, rest)) ∨
      minus cs = (false, cs) := by
    unfold minus
    split
    · exact .inl ⟨_, rfl, rfl⟩
    · exact .inr rfl
  rcases hminus with ⟨rest, rfl, _⟩ | hcs
  · rfl
  · rw [hcs]
    rfl

/-- What the reader of inputs takes is a literal. -/
theorem exists_parts_of_plain?
    {cs : List Char} {x : Float}
    (h : plain? cs = some x) :
    ∃ negative whole fraction?, Complete whole fraction? ∧
      cs = parts negative whole fraction? [] := by
  have hcs := minus_spec cs
  simp only [plain?] at h
  generalize minus cs = signed at h hcs
  obtain ⟨negative, unsigned⟩ := signed
  obtain ⟨hwhole, hunsigned⟩ := Grammar.digits_spec unsigned
  dsimp only at h hcs
  generalize digits unsigned = split at h hwhole hunsigned
  obtain ⟨whole, rest⟩ := split
  dsimp only at h hwhole hunsigned
  split at h
  · split at h
    · cases h
    · rename_i hne
      refine ⟨negative, whole, none, ⟨hwhole, by simp, fun _ => by simpa using hne⟩, ?_⟩
      rw [hcs, hunsigned]
      rfl
  · rename_i behind
    obtain ⟨hfraction, hbehind⟩ := Grammar.digits_spec behind
    generalize digits behind = split at h hfraction hbehind
    obtain ⟨fraction, rest⟩ := split
    dsimp only at h hfraction hbehind
    split at h
    · cases h
    · rename_i hne
      rw [Bool.or_eq_true, not_or, List.isEmpty_iff, Bool.not_eq_true', Bool.not_eq_false,
        List.isEmpty_iff] at hne
      obtain ⟨hne, rfl⟩ := hne
      refine ⟨negative, whole, some fraction, ⟨hwhole, ?_, by simp⟩, ?_⟩
      · rintro fs hfs
        obtain rfl := Option.some.inj hfs
        exact ⟨hne, hfraction⟩
      · rw [hcs, hunsigned, hbehind]
        simp [parts, Token.numeralText]
  · cases h

/-- The reader of inputs takes the literals and nothing else. -/
theorem isSome_plain?_iff
    {cs : List Char} :
    (plain? cs).isSome = true ↔ IsLiteral cs := by
  rw [Option.isSome_iff_exists, isLiteral_iff]
  constructor
  · rintro ⟨x, hx⟩
    exact exists_parts_of_plain? hx
  · rintro ⟨negative, whole, fraction?, h, rfl⟩
    exact ⟨_, plain?_parts h⟩

/-- The reader of inputs takes no power of ten. -/
theorem plain?_of_mem
    {cs : List Char}
    (he : 'e' ∈ cs) :
    plain? cs = none := by
  rw [← Option.not_isSome_iff_eq_none, isSome_plain?_iff]
  intro h
  have hcases := h.of_mem he
  revert hcases
  decide

end Inputs

section Expressions

/-- The tree of a number with the sign that was written in front of it. -/
def tree (negative : Bool) (x : Float) : Expr :=
  if negative then .unary .minus (.number x) else .number x

/-- The reader of expressions reads a literal by its parts. -/
theorem parse_parts
    {negative : Bool} {whole : List Char} {fraction? : Option (List Char)}
    (h : Complete whole fraction?) :
    Expr.parse (String.ofList (parts negative whole fraction? [])) =
      .ok (tree negative (value ⟨whole, fraction?.getD [], 0⟩)) := by
  have hspells := Grammar.spells_numeralText h.isDigit h.isMantissa.isDigit_fraction
    h.isMantissa.ne_nil
  have hnone : Grammar.Blanks [] := by simp [Grammar.Blanks]
  have hnumber : Grammar.Cut (Token.numeralText whole fraction? ++ []) [_] :=
    .lexeme hnone hspells (.done hnone)
  rw [Grammar.parse_eq_ok_iff, Grammar.Denotes, String.toList_ofList]
  cases negative with
  | false =>
      exact ⟨_, hnumber, .product (.signed (.primary (.number _)))⟩
  | true =>
      have hminus := Grammar.Cut.lexeme hnone .minus hnumber
      exact ⟨_, hminus, .product (.signed (.sign .minus (.primary (.number _))))⟩

theorem eval_tree
    (negative : Bool)
    (x : Float)
    (b : Bindings) :
    (tree negative x).eval b = .ok (signed negative x) := by
  cases negative <;> rfl

end Expressions

end Numeral
end LiveForms
