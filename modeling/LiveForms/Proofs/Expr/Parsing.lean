import LiveForms.Proofs.Expr.Reading
import Mathlib.Data.List.Chain
import Mathlib.Data.List.TakeWhile
import Mathlib.Tactic.Tauto

/-!
# Live forms: parsing an expression

The scanner takes the longest lexeme at each place and refuses a numeral that runs into
a letter, an underscore or a point. This module shows that neither matters to a sentence
of the grammar: numbers and names never stand side by side in a derivation, so each of
them is followed by a blank, a symbol or the end of the text, and there the longest
lexeme is the only one.

Main statements:

* `Grammar.cut_of_run`: the tokens of a text are one of its cuts.
* `Grammar.apart_of_reading`: no two words are neighbours in an accepted row of tokens.
* `Grammar.run_of_cut`: a cut without neighbouring words is what the scanner finds.
* `Grammar.parse_eq_ok_iff`: parsing accepts exactly the texts that denote a tree, and
  gives a tree that they denote. There is no other, whatever the cut.
-/

namespace LiveForms
namespace Grammar

open Reader

section Characters

theorem isDigit_iff
    (c : Char) :
    c.isDigit = true ↔ 48 ≤ c.toNat ∧ c.toNat ≤ 57 := by
  simp only [Char.isDigit, Bool.and_eq_true, decide_eq_true_eq, ge_iff_le,
    UInt32.le_iff_toNat_le]
  rfl

theorem isAlpha_iff
    (c : Char) :
    c.isAlpha = true ↔
      (65 ≤ c.toNat ∧ c.toNat ≤ 90) ∨ (97 ≤ c.toNat ∧ c.toNat ≤ 122) := by
  have hranges : c.isAlpha =
      (decide (65 ≤ c.val ∧ c.val ≤ 90) || decide (97 ≤ c.val) && decide (c.val ≤ 122)) :=
    rfl
  rw [hranges]
  simp only [Bool.or_eq_true, Bool.and_eq_true, decide_eq_true_eq, UInt32.le_iff_toNat_le]
  rfl

/-- The characters that numbers and names are made of. -/
def isWordChar (c : Char) : Bool :=
  c.isAlphanum || c = '_' || c = '.'

theorem isWordChar_iff
    (c : Char) :
    isWordChar c = true ↔
      c.isDigit = true ∨ c.isAlpha = true ∨ c = '_' ∨ c = '.' := by
  simp only [isWordChar, Char.isAlphanum, Bool.or_eq_true, decide_eq_true_eq]
  tauto

/-- Blanks belong to no word. -/
theorem isWordChar_of_isBlank
    {c : Char}
    (h : Text.isBlank c = true) :
    isWordChar c = false := by
  rw [Bool.eq_false_iff, Ne, isWordChar_iff, isDigit_iff, isAlpha_iff]
  simp only [Text.isBlank, Text.blankRanges, List.any_cons, List.any_nil,
    Bool.or_eq_true, Bool.and_eq_true, Bool.or_false, decide_eq_true_eq] at h
  rintro (hc | hc | rfl | rfl)
  · omega
  · omega
  · exact absurd h (by decide)
  · exact absurd h (by decide)

theorem isBlank_of_isWordChar
    {c : Char}
    (h : isWordChar c = true) :
    Text.isBlank c = false := by
  by_contra hblank
  rw [Bool.not_eq_false] at hblank
  rw [isWordChar_of_isBlank hblank] at h
  exact absurd h (by decide)

theorem isBlank_of_isDigit
    {c : Char}
    (h : c.isDigit = true) :
    Text.isBlank c = false :=
  isBlank_of_isWordChar ((isWordChar_iff c).mpr (.inl h))

/-- A text that does not go on with a character of a word. -/
def Delimits (rest : List Char) : Prop :=
  ∀ c ∈ rest.head?, isWordChar c = false

theorem delimits_of_blanks
    {blanks rest : List Char}
    (hblanks : Blanks blanks)
    (hne : blanks ≠ []) :
    Delimits (blanks ++ rest) := by
  obtain ⟨c, cs, rfl⟩ := List.exists_cons_of_ne_nil hne
  intro x hx
  have hxc : c = x := by
    simpa using hx
  subst hxc
  exact isWordChar_of_isBlank (hblanks c (by simp))

/-- A run of a class, in front of a text that does not go on with the class. -/
theorem span_run
    {p : Char → Bool} {cs rest : List Char}
    (hcs : ∀ c ∈ cs, p c = true)
    (hrest : ∀ c ∈ rest.head?, p c = false) :
    (cs ++ rest).takeWhile p = cs ∧ (cs ++ rest).dropWhile p = rest := by
  rw [List.takeWhile_append_of_pos hcs, List.dropWhile_append_of_pos hcs]
  cases rest with
  | nil =>
      simp
  | cons c rest =>
      have hc : p c = false := hrest c (by simp)
      simp [hc]

theorem digits_append
    {ds rest : List Char}
    (hds : Digits ds)
    (hrest : ∀ c ∈ rest.head?, c.isDigit = false) :
    Numeral.digits (ds ++ rest) = (ds, rest) := by
  have h := span_run hds hrest
  rw [Numeral.digits, h.1, h.2]

theorem digits_spec
    (cs : List Char) :
    Digits (Numeral.digits cs).1 ∧
      cs = (Numeral.digits cs).1 ++ (Numeral.digits cs).2 := by
  refine ⟨?_, List.takeWhile_append_dropWhile.symm⟩
  intro c hc
  exact List.mem_takeWhile_imp hc

end Characters

section Lexemes

/-- Both spellings of a numeral, with and without a point. -/
theorem spells_numeralText
    {ds : List Char} {fraction? : Option (List Char)}
    (hds : Digits ds)
    (hfs : ∀ fs ∈ fraction?, Digits fs)
    (hne : ds ≠ [] ∨ fraction?.getD [] ≠ []) :
    Spells (Token.numeralText ds fraction?)
      (.number (Numeral.value ⟨ds, fraction?.getD [], 0⟩)) := by
  cases fraction? with
  | none =>
      exact .whole hds (by simpa [Token.numeralText] using hne)
  | some fs =>
      cases ds with
      | nil =>
          exact .fraction (hfs fs rfl) (by simpa using hne)
      | cons d ds =>
          exact .point hds (by simp) (hfs fs rfl)

theorem not_isDigit_of_digits
    (cs : List Char) :
    ∀ c ∈ (Numeral.digits cs).2.head?, c.isDigit = false := by
  intro c hc
  have hstop := List.head?_dropWhile_not Char.isDigit cs
  rw [show (cs.dropWhile Char.isDigit).head? = some c from hc] at hstop
  exact hstop

/-- A text falls into digits, a fraction, and a rest that goes on with neither. -/
theorem exists_numeralText
    (cs : List Char) :
    ∃ ds fraction? rest,
      cs = Token.numeralText ds fraction? ++ rest ∧
      Digits ds ∧ (∀ fs ∈ fraction?, Digits fs) ∧
      (∀ c ∈ rest.head?, c.isDigit = false) ∧
      (fraction? = none → rest.head? ≠ some '.') := by
  obtain ⟨hds, hcs⟩ := digits_spec cs
  have hstop := not_isDigit_of_digits cs
  generalize Numeral.digits cs = whole at hds hcs hstop
  obtain ⟨ds, after⟩ := whole
  by_cases hhead : after.head? = some '.'
  · obtain ⟨after, rfl⟩ := List.head?_eq_some_iff.mp hhead
    obtain ⟨hfs, hafter⟩ := digits_spec after
    refine ⟨ds, some (Numeral.digits after).1, (Numeral.digits after).2, ?_, hds,
      by simpa using hfs, not_isDigit_of_digits after, by simp⟩
    rw [Token.numeralText, List.append_assoc, List.cons_append, ← hafter, hcs]
  · exact ⟨ds, none, after, hcs, hds, by simp, hstop, fun _ => hhead⟩

/-- The leading digits of a numeral are those before its point. -/
theorem digits_numeralText
    {ds : List Char} {fraction? : Option (List Char)} {rest : List Char}
    (hds : Digits ds)
    (hdigit : ∀ c ∈ rest.head?, c.isDigit = false) :
    Numeral.digits (Token.numeralText ds fraction? ++ rest) =
      (ds, Token.numeralText [] fraction? ++ rest) := by
  cases fraction? with
  | none => exact digits_append hds hdigit
  | some fs =>
      rw [Token.numeralText, List.append_assoc]
      exact digits_append hds (by simp)

/-- A numeral is scanned up to where neither a digit nor a fraction goes on. -/
theorem scanNumber_eq
    {ds : List Char} {fraction? : Option (List Char)} {rest : List Char}
    (hds : Digits ds)
    (hfs : ∀ fs ∈ fraction?, Digits fs)
    (hdigit : ∀ c ∈ rest.head?, c.isDigit = false)
    (hpoint : fraction? = none → rest.head? ≠ some '.') :
    Token.scanNumber (Token.numeralText ds fraction? ++ rest) =
      (if ds.isEmpty && (fraction?.getD []).isEmpty then
        .error .lonePoint
      else if rest.head?.any Token.clashesWithNumber then
        .error (.malformed (String.ofList (Token.numeralText ds fraction?)))
      else
        .token (.number (Numeral.value ⟨ds, fraction?.getD [], 0⟩)), rest) := by
  have hsplit :
      Token.splitFraction (Token.numeralText [] fraction? ++ rest) =
        (fraction?, rest) := by
    cases fraction? with
    | none =>
        cases rest with
        | nil =>
            rfl
        | cons c rest =>
            have hc : c ≠ '.' := by
              rintro rfl
              exact hpoint rfl rfl
            simp [Token.numeralText, Token.splitFraction, hc]
    | some fs =>
        have hfs' := digits_append (hfs fs rfl) hdigit
        simp [Token.numeralText, Token.splitFraction, hfs']
  simp only [Token.scanNumber, digits_numeralText hds hdigit, hsplit]

/-- A numeral before a delimiter is scanned as a whole. -/
theorem scanNumber_numeralText
    (ds : List Char)
    (fraction? : Option (List Char))
    {rest : List Char}
    (hds : Digits ds)
    (hfs : ∀ fs ∈ fraction?, Digits fs)
    (hne : ds ≠ [] ∨ fraction?.getD [] ≠ [])
    (hrest : Delimits rest) :
    Token.scanNumber (Token.numeralText ds fraction? ++ rest) =
      (.token (.number (Numeral.value ⟨ds, fraction?.getD [], 0⟩)), rest) := by
  have hdigit : ∀ c ∈ rest.head?, c.isDigit = false := by
    intro c hc
    have := hrest c hc
    simp only [isWordChar, Char.isAlphanum, Bool.or_eq_false_iff] at this
    exact this.1.1.2
  have hpoint : rest.head? ≠ some '.' := by
    intro hhead
    exact absurd (hrest '.' hhead) (by decide)
  have hclash : rest.head?.any Token.clashesWithNumber = false := by
    cases hhead : rest.head? with
    | none =>
        rfl
    | some c =>
        have := hrest c hhead
        simp only [isWordChar, Char.isAlphanum, Bool.or_eq_false_iff] at this
        simp only [Option.any_some, Token.clashesWithNumber, Bool.or_eq_false_iff]
        exact ⟨⟨this.1.1.1, this.1.2⟩, this.2⟩
  have hempty : (ds.isEmpty && (fraction?.getD []).isEmpty) = false := by
    rw [Bool.and_eq_false_iff, List.isEmpty_eq_false_iff, List.isEmpty_eq_false_iff]
    exact hne
  rw [scanNumber_eq hds hfs hdigit fun _ => hpoint, hempty, hclash]
  rfl

/-- A scanned number is spelled by the text in front of the rest. -/
theorem spells_of_scanNumber
    {cs rest : List Char} {t : Token}
    (h : Token.scanNumber cs = (.token t, rest)) :
    ∃ lexeme : List Char,
      cs = lexeme ++ rest ∧ Spells lexeme t := by
  obtain ⟨ds, fraction?, after, rfl, hds, hfs, hdigit, hpoint⟩ := exists_numeralText cs
  rw [scanNumber_eq hds hfs hdigit hpoint] at h
  split at h
  · simp at h
  · rename_i hne
    split at h
    · simp at h
    · simp only [Prod.mk.injEq, Lexeme.token.injEq] at h
      obtain ⟨rfl, rfl⟩ := h
      refine ⟨_, rfl, spells_numeralText hds hfs ?_⟩
      rw [Bool.and_eq_true, List.isEmpty_iff, List.isEmpty_iff, not_and_or] at hne
      exact hne

/-- Every numeral is scanned as a whole before a delimiter. -/
theorem scanVisible_number
    {lexeme rest : List Char} {value : Float}
    (h : Spells lexeme (.number value))
    (hrest : Delimits rest) :
    Token.scanVisible (lexeme ++ rest) = (.token (.number value), rest) := by
  have hscan :
      (∃ c cs, lexeme = c :: cs ∧ Token.startsNumber c = true) ∧
      Token.scanNumber (lexeme ++ rest) = (.token (.number value), rest) := by
    cases h with
    | whole hds hne =>
        refine ⟨?_, scanNumber_numeralText lexeme none hds (by simp) (.inl hne) hrest⟩
        obtain ⟨d, ds, rfl⟩ := List.exists_cons_of_ne_nil hne
        exact ⟨d, ds, rfl, by simp [Token.startsNumber, hds d]⟩
    | @point ds fs hds hne hfs =>
        refine ⟨?_, scanNumber_numeralText ds (some fs) hds (by simpa using hfs)
          (.inl hne) hrest⟩
        obtain ⟨d, ds, rfl⟩ := List.exists_cons_of_ne_nil hne
        exact ⟨d, ds ++ '.' :: fs, rfl, by simp [Token.startsNumber, hds d]⟩
    | @fraction fs hfs hne =>
        exact ⟨⟨'.', fs, rfl, by decide⟩,
          scanNumber_numeralText [] (some fs) (by simp [Digits]) (by simpa using hfs)
            (.inr hne) hrest⟩
  obtain ⟨⟨c, cs, rfl, hc⟩, hscan⟩ := hscan
  rw [List.cons_append, Token.scanVisible, if_pos hc]
  exact hscan

theorem continuesName_of_startsName
    {c : Char}
    (hc : Token.startsName c = true) :
    Token.continuesName c = true := by
  simp only [Token.startsName, Token.continuesName, Char.isAlphanum,
    Bool.or_eq_true] at hc ⊢
  exact hc.imp_left Or.inl

/-- No character starts both a name and a number. -/
theorem startsNumber_of_startsName
    {c : Char}
    (hc : Token.startsName c = true) :
    Token.startsNumber c = false := by
  rw [Bool.eq_false_iff, Ne, Token.startsNumber, Bool.or_eq_true, isDigit_iff,
    decide_eq_true_eq]
  rw [Token.startsName, Bool.or_eq_true, decide_eq_true_eq] at hc
  rintro (hd | rfl)
  · rcases hc with hc | rfl
    · rw [isAlpha_iff] at hc
      omega
    · exact absurd hd (by decide)
  · exact absurd hc (by decide)

/-- A name ends before a delimiter. -/
theorem continuesName_of_delimits
    {rest : List Char}
    (hrest : Delimits rest) :
    ∀ c ∈ rest.head?, Token.continuesName c = false := by
  intro c hc
  have := hrest c hc
  simp only [isWordChar, Bool.or_eq_false_iff] at this
  simp only [Token.continuesName, Bool.or_eq_false_iff]
  exact this.1

/-- Every name is scanned as a whole before a character that does not continue it. -/
theorem scanVisible_name
    {lexeme rest : List Char} {text : String}
    (h : Spells lexeme (.name text))
    (hrest : ∀ c ∈ rest.head?, Token.continuesName c = false) :
    Token.scanVisible (lexeme ++ rest) = (.token (.name text), rest) := by
  cases h with
  | @name c cs hc hcs =>
      have hname : Token.startsName c = true := by
        simpa [Token.startsName] using hc
      have hnumber := startsNumber_of_startsName hname
      have hall : ∀ x ∈ c :: cs, Token.continuesName x = true := by
        intro x hx
        rcases List.mem_cons.mp hx with rfl | hx
        · exact continuesName_of_startsName hname
        · simpa [Token.continuesName] using hcs x hx
      have hspan := span_run hall hrest
      rw [List.cons_append] at hspan
      rw [List.cons_append, Token.scanVisible, if_neg (by simp [hnumber]),
        if_pos hname, Token.scanName, hspan.1, hspan.2]

/-- Whether a token is a number or a name. -/
def isWord : Token → Bool
  | .number _ => true
  | .name _ => true
  | _ => false

/-- Symbols are one character long, and no character of a word. -/
theorem scanVisible_symbol
    {lexeme : List Char} {t : Token}
    (h : Spells lexeme t)
    (ht : isWord t = false)
    (rest : List Char) :
    Token.scanVisible (lexeme ++ rest) = (.token t, rest) ∧ Delimits (lexeme ++ rest) := by
  cases h with
  | whole => simp [isWord] at ht
  | point => simp [isWord] at ht
  | fraction => simp [isWord] at ht
  | name => simp [isWord] at ht
  | plus => exact ⟨rfl, by simp [Delimits]; decide⟩
  | minus => exact ⟨rfl, by simp [Delimits]; decide⟩
  | times => exact ⟨rfl, by simp [Delimits]; decide⟩
  | divide => exact ⟨rfl, by simp [Delimits]; decide⟩
  | leftParen => exact ⟨rfl, by simp [Delimits]; decide⟩
  | rightParen => exact ⟨rfl, by simp [Delimits]; decide⟩

/-- A lexeme is scanned as a whole, a word at least before a delimiter. -/
theorem scanVisible_of_spells
    {lexeme rest : List Char} {t : Token}
    (h : Spells lexeme t)
    (hrest : isWord t = true → Delimits rest) :
    Token.scanVisible (lexeme ++ rest) = (.token t, rest) := by
  cases ht : isWord t with
  | false =>
      exact (scanVisible_symbol h ht rest).1
  | true =>
      cases t with
      | number value => exact scanVisible_number h (hrest rfl)
      | name text => exact scanVisible_name h (continuesName_of_delimits (hrest rfl))
      | _ => simp [isWord] at ht

/-- A scanned name is spelled by the text in front of the rest. -/
theorem spells_of_scanName
    {c : Char} {cs rest : List Char} {t : Token}
    (hc : Token.startsName c = true)
    (h : Token.scanName (c :: cs) = (.token t, rest)) :
    ∃ lexeme : List Char,
      c :: cs = lexeme ++ rest ∧ Spells lexeme t := by
  have hcontinues := continuesName_of_startsName hc
  simp only [Token.scanName, List.takeWhile_cons_of_pos hcontinues,
    List.dropWhile_cons_of_pos hcontinues, Prod.mk.injEq, Lexeme.token.injEq] at h
  obtain ⟨rfl, rfl⟩ := h
  refine ⟨c :: cs.takeWhile Token.continuesName, by simp, .name ?_ ?_⟩
  · simpa [Token.startsName] using hc
  · intro x hx
    have := List.mem_takeWhile_imp hx
    simpa [Token.continuesName] using this

/-- The table of symbols is that of the grammar. -/
theorem spells_of_symbol
    {c : Char} {t : Token}
    (h : Token.symbol? c = some t) :
    Spells [c] t := by
  unfold Token.symbol? at h
  split at h <;> cases h
  · exact .plus
  · exact .minus
  · exact .times
  · exact .divide
  · exact .leftParen
  · exact .rightParen

/-- What is scanned at a visible character is spelled by the text in front of the rest. -/
theorem spells_of_scanVisible
    {cs rest : List Char} {t : Token}
    (h : Token.scanVisible cs = (.token t, rest)) :
    ∃ lexeme : List Char,
      cs = lexeme ++ rest ∧ Spells lexeme t := by
  cases cs with
  | nil =>
      simp [Token.scanVisible] at h
  | cons c cs =>
      rw [Token.scanVisible] at h
      split at h
      · exact spells_of_scanNumber h
      · split at h
        · rename_i hc
          exact spells_of_scanName hc h
        · split at h
          · rename_i symbol hsymbol
            simp only [Prod.mk.injEq, Lexeme.token.injEq] at h
            obtain ⟨rfl, rfl⟩ := h
            exact ⟨[c], rfl, spells_of_symbol hsymbol⟩
          · simp at h

end Lexemes

section Scanning

/-- No lexeme starts with a blank. -/
theorem head_of_spells
    {lexeme : List Char} {t : Token}
    (h : Spells lexeme t) :
    ∃ c cs, lexeme = c :: cs ∧ Text.isBlank c = false := by
  cases h with
  | whole hds hne =>
      obtain ⟨d, ds, rfl⟩ := List.exists_cons_of_ne_nil hne
      exact ⟨d, ds, rfl, isBlank_of_isDigit (hds d (by simp))⟩
  | @point ds fs hds hne hfs =>
      obtain ⟨d, ds, rfl⟩ := List.exists_cons_of_ne_nil hne
      exact ⟨d, ds ++ '.' :: fs, rfl, isBlank_of_isDigit (hds d (by simp))⟩
  | @fraction fs hfs hne =>
      exact ⟨'.', fs, rfl, by decide⟩
  | @name c cs hc hcs =>
      refine ⟨c, cs, rfl, isBlank_of_isWordChar ((isWordChar_iff c).mpr ?_)⟩
      exact hc.elim (fun h => .inr (.inl h)) fun h => .inr (.inr (.inl h))
  | plus => exact ⟨'+', [], rfl, by decide⟩
  | minus => exact ⟨'-', [], rfl, by decide⟩
  | times => exact ⟨'*', [], rfl, by decide⟩
  | divide => exact ⟨'/', [], rfl, by decide⟩
  | leftParen => exact ⟨'(', [], rfl, by decide⟩
  | rightParen => exact ⟨')', [], rfl, by decide⟩

/-- Leading blanks are passed over. -/
theorem scan_blanks_append
    {blanks cs : List Char}
    (hblanks : Blanks blanks)
    (hcs : ∀ c ∈ cs.head?, Text.isBlank c = false) :
    Token.scan (blanks ++ cs) = Token.scanVisible cs := by
  rw [Token.scan, Text.trimStart, (span_run hblanks hcs).2]

/-- What is skipped in front of a place that is not blank. -/
theorem exists_blanks
    (cs : List Char) :
    ∃ blanks visible, cs = blanks ++ visible ∧ Blanks blanks ∧
      ∀ c ∈ visible.head?, Text.isBlank c = false := by
  refine ⟨cs.takeWhile Text.isBlank, cs.dropWhile Text.isBlank,
    List.takeWhile_append_dropWhile.symm, fun c hc => List.mem_takeWhile_imp hc, ?_⟩
  intro c hc
  have hstop := List.head?_dropWhile_not Text.isBlank cs
  rw [show (cs.dropWhile Text.isBlank).head? = some c from hc] at hstop
  exact hstop

/-- A scan passes over blanks and then looks at what is visible. -/
theorem scan_eq
    (cs : List Char) :
    ∃ blanks visible : List Char,
      cs = blanks ++ visible ∧ Blanks blanks ∧
      Token.scan cs = Token.scanVisible visible := by
  obtain ⟨blanks, visible, rfl, hblanks, hvisible⟩ := exists_blanks cs
  exact ⟨blanks, visible, rfl, hblanks, scan_blanks_append hblanks hvisible⟩

/-- Only an empty text is scanned to its end. -/
theorem scanVisible_eof
    {cs rest : List Char}
    (h : Token.scanVisible cs = (.eof, rest)) :
    cs = [] := by
  cases cs with
  | nil =>
      rfl
  | cons c cs =>
      rw [Token.scanVisible] at h
      split at h
      · simp only [Token.scanNumber, Prod.mk.injEq] at h
        have hlexeme := h.1
        split at hlexeme
        · simp at hlexeme
        · split at hlexeme <;> simp at hlexeme
      · split at h
        · simp [Token.scanName] at h
        · split at h <;> simp at h

theorem run_of_scan
    {cs rest : List Char} {t : Token}
    (h : Token.scan cs = (.token t, rest)) :
    Token.run cs = (t :: (Token.run rest).1, (Token.run rest).2) := by
  rw [Token.run]
  split <;> simp_all

/-- The scanner finds one of the cuts of a text. -/
theorem cut_of_run
    {cs : List Char} {ts : List Token}
    (h : Token.run cs = (ts, none)) :
    Cut cs ts := by
  induction ts generalizing cs with
  | nil =>
      obtain ⟨blanks, visible, rfl, hblanks, hscan⟩ := scan_eq cs
      rw [Token.run] at h
      split at h
      · rename_i rest hend
        rw [hscan] at hend
        rw [scanVisible_eof hend, List.append_nil]
        exact .done hblanks
      · simp at h
      · simp at h
  | cons t ts ih =>
      obtain ⟨blanks, visible, rfl, hblanks, hscan⟩ := scan_eq cs
      rw [Token.run] at h
      split at h
      · simp at h
      · simp at h
      · rename_i u rest htoken
        simp only [Prod.mk.injEq, List.cons.injEq] at h
        obtain ⟨⟨rfl, hts⟩, hnone⟩ := h
        rw [hscan] at htoken
        obtain ⟨lexeme, rfl, hspells⟩ := spells_of_scanVisible htoken
        exact .lexeme hblanks hspells (ih (Prod.ext hts hnone))

/-- No two words are neighbours. -/
def Apart (ts : List Token) : Prop :=
  ts.IsChain fun t u => isWord t = true → isWord u = false

/-- No word comes first. -/
def NoWordFirst (ts : List Token) : Prop :=
  ∀ u ∈ ts.head?, isWord u = false

theorem apart_cons
    {t : Token} {ts : List Token}
    (hts : Apart ts)
    (ht : isWord t = true → NoWordFirst ts) :
    Apart (t :: ts) := by
  apply List.isChain_cons.mpr
  exact ⟨fun u hu h => ht h u hu, hts⟩

/-- An accepted row of tokens has no neighbouring words; none follows an operand. -/
theorem apart_of_reading
    (stop : Option LexError)
    (ts : List Token)
    (e : Expr) :
    (∀ stack : List Frame, operand stop stack ts = .ok e → Apart ts) ∧
    (∀ done : List Frame × Expr, operator stop done ts = .ok e →
      Apart ts ∧ NoWordFirst ts) := by
  induction ts with
  | nil =>
      exact ⟨fun _ _ => .nil, fun _ _ => ⟨.nil, by simp [NoWordFirst]⟩⟩
  | cons t ts ih =>
      obtain ⟨ihOperand, ihOperator⟩ := ih
      constructor
      · intro stack h
        cases t with
        | number value =>
            rw [operand] at h
            obtain ⟨hts, hhead⟩ := ihOperator _ h
            exact apart_cons hts fun _ => hhead
        | name text =>
            by_cases hparen : ts.head? = some .leftParen
            · obtain ⟨us, rfl⟩ := List.head?_eq_some_iff.mp hparen
              simp [operand] at h
            · rw [operand_name stop stack text hparen] at h
              obtain ⟨hts, hhead⟩ := ihOperator _ h
              exact apart_cons hts fun _ => hhead
        | plus | minus | leftParen =>
            rw [operand] at h
            exact apart_cons (ihOperand _ h) (by simp [isWord])
        | times | divide | rightParen => simp [operand] at h
      · intro done h
        cases t with
        | times | divide | plus | minus =>
            rw [operator] at h
            exact ⟨apart_cons (ihOperand _ h) (by simp [isWord]),
              by simp [NoWordFirst, isWord]⟩
        | rightParen =>
            rw [operator] at h
            split at h
            · exact ⟨apart_cons (ihOperator _ h).1 (by simp [isWord]),
                by simp [NoWordFirst, isWord]⟩
            · simp at h
        | number | name | leftParen => simp [operator] at h

/-- Behind a token that is no word, or at the end, a cut is delimited. -/
theorem delimits_of_cut
    {rest : List Char} {ts : List Token}
    (h : Cut rest ts)
    (hts : NoWordFirst ts) :
    Delimits rest := by
  cases h with
  | done hblanks =>
      by_cases hne : rest = []
      · subst hne
        simp [Delimits]
      · rw [← List.append_nil rest]
        exact delimits_of_blanks hblanks hne
  | @lexeme blanks lexeme rest t ts hblanks hspells hrest =>
      by_cases hne : blanks = []
      · subst hne
        exact (scanVisible_symbol hspells (hts t rfl) rest).2
      · exact delimits_of_blanks hblanks hne

/-- A cut without neighbouring words is the one that the scanner finds. -/
theorem run_of_cut
    {cs : List Char} {ts : List Token}
    (h : Cut cs ts)
    (hts : Apart ts) :
    Token.run cs = (ts, none) := by
  induction h with
  | @done blanks hblanks =>
      have hscan : Token.scan blanks = (.eof, []) := by
        rw [← List.append_nil blanks, scan_blanks_append hblanks (by simp)]
        rfl
      rw [Token.run]
      split <;> simp_all
  | @lexeme blanks lexeme rest t ts hblanks hspells hrest ih =>
      obtain ⟨c, cs, hlexeme, hc⟩ := head_of_spells hspells
      have hvisible : ∀ x ∈ (lexeme ++ rest).head?, Text.isBlank x = false := by
        subst hlexeme
        simpa using hc
      have hdelimits : isWord t = true → Delimits rest := by
        intro ht
        apply delimits_of_cut hrest
        intro u hu
        exact (List.isChain_cons.mp hts).1 u hu ht
      have hscan : Token.scan (blanks ++ (lexeme ++ rest)) = (.token t, rest) := by
        rw [scan_blanks_append hblanks hvisible, scanVisible_of_spells hspells hdelimits]
      rw [run_of_scan hscan, ih hts.tail]

end Scanning

section Parsing

/-- Parsing accepts exactly the texts that denote a tree, with that tree. -/
theorem parse_eq_ok_iff
    (text : String)
    (e : Expr) :
    Expr.parse text = .ok e ↔ Denotes text e := by
  rw [Expr.parse]
  constructor
  · intro h
    obtain ⟨hstop, hderives⟩ := operand_eq_ok_iff.mp h
    exact ⟨_, cut_of_run (Prod.ext rfl hstop), hderives⟩
  · rintro ⟨ts, hcut, hderives⟩
    have hread : operand none [] ts = .ok e :=
      operand_eq_ok_iff.mpr ⟨rfl, hderives⟩
    have hapart : Apart ts :=
      (apart_of_reading none ts e).1 [] hread
    simp only [run_of_cut hcut hapart]
    exact hread

/--
Parsing accepts exactly the texts that denote a tree, with that tree; and however a text
is cut, it denotes no other tree.
-/
theorem parse_eq_ok_iff_denotes
    (text : String)
    (e : Expr) :
    (Expr.parse text = .ok e ↔ Denotes text e) ∧
    (Denotes text e ↔ ∀ e' : Expr, Denotes text e' ↔ e' = e) := by
  refine ⟨parse_eq_ok_iff text e, ?_⟩
  constructor
  · intro h e'
    rw [← parse_eq_ok_iff] at h ⊢
    rw [h, Except.ok.injEq, eq_comm]
  · intro h
    exact (h e).mpr rfl

end Parsing

end Grammar
end LiveForms
