import LiveForms.Proofs.Expr.Parsing

/-!
# Live forms: the lexemes of a text

The scanner is asked for one token after the other until the text ends or it refuses to go
on. This module says what it makes of a text, without the scanner: the text falls into
blanks and lexemes, a number and a name are as long as they can be, and the first place
where no lexeme can stand is the one that is refused.

A place is refused for one of three reasons: its character begins no lexeme, its point has
no digit on either side, or its longest numeral runs into a letter, an underscore or another
point. None of them speaks of what comes before, so the lexemes in front of an error are
those of a text without it.

Main definitions:

* `Grammar.Longest`: a lexeme that is as long as its form allows.
* `Grammar.Refused`: the places at which no token can be read, and why.
* `Grammar.Lexes`: the tokens of a text up to its end or its first refused place.
* `Token.scanWithin`: scanning on, with a bound on the number of scans.

Main statements:

* `Grammar.scanVisible_of_longest`: what a scan makes of a place.
* `Grammar.run_eq_iff_lexes`: scanning finds these tokens and this error, and no others.
* `Grammar.lexes_text`: so it does for every text, in one scan more than there are characters.
-/

namespace LiveForms
namespace Grammar

/-- The texts of a number. -/
def IsNumber (lexeme : List Char) : Prop :=
  ∃ value, Spells lexeme (.number value)

/-- The texts of a name. -/
def IsName (lexeme : List Char) : Prop :=
  ∃ text, Spells lexeme (.name text)

/-- The texts of the lexical form of a token. -/
def HasForm : Token → List Char → Prop
  | .number _, lexeme => IsNumber lexeme
  | .name _, lexeme => IsName lexeme
  | symbol, lexeme => Spells lexeme symbol

/-- Of the texts of a form with which a text starts, `lexeme` is the longest. -/
structure Longest (form : List Char → Prop) (lexeme rest : List Char) : Prop where
  isForm : form lexeme
  length_le : ∀ other after, lexeme ++ rest = other ++ after → form other →
    other.length ≤ lexeme.length

/-- A visible character with which no token begins. -/
structure BeginsNone (c : Char) : Prop where
  visible : Text.isBlank c = false
  head_ne : ∀ lexeme t, Spells lexeme t → lexeme.head? ≠ some c

/-- The texts that start with no token, each with the reason. -/
inductive Refused : List Char → LexError → Prop
  | unexpected
      {c : Char} {cs : List Char}
      (hc : BeginsNone c) :
      Refused (c :: cs) (.unexpected c)
  | lonePoint
      {cs : List Char}
      (hcs : ∀ c ∈ cs.head?, c.isDigit = false) :
      Refused ('.' :: cs) .lonePoint
  | malformed
      {numeral cs : List Char} {c : Char}
      (hnumeral : Longest IsNumber numeral (c :: cs))
      (hc : c.isAlpha = true ∨ c = '_' ∨ c = '.') :
      Refused (numeral ++ c :: cs) (.malformed (String.ofList numeral))

/--
The tokens of a text, blanks skipped, and what stops them: the end of the text, or the first
place that is refused.
-/
inductive Lexes : List Char → List Token → Option LexError → Prop
  | ending
      {blanks : List Char}
      (hblanks : Blanks blanks) :
      Lexes blanks [] none
  | refused
      {blanks rest : List Char} {e : LexError}
      (hblanks : Blanks blanks)
      (hrefused : Refused rest e) :
      Lexes (blanks ++ rest) [] (some e)
  | token
      {blanks lexeme rest : List Char} {t : Token} {ts : List Token} {stop : Option LexError}
      (hblanks : Blanks blanks)
      (hspells : Spells lexeme t)
      (hlongest : Longest (HasForm t) lexeme rest)
      (hnot : ∀ e, ¬ Refused (lexeme ++ rest) e)
      (hrest : Lexes rest ts stop) :
      Lexes (blanks ++ (lexeme ++ rest)) (t :: ts) stop

/-- The character behind a longest lexeme does not go on with it. -/
theorem Longest.not_form_concat
    {form : List Char → Prop} {lexeme rest : List Char}
    (h : Longest form lexeme rest) :
    ∀ c ∈ rest.head?, ¬ form (lexeme ++ [c]) := by
  intro c hc hform
  obtain ⟨after, rfl⟩ := List.head?_eq_some_iff.mp hc
  have hle := h.length_le (lexeme ++ [c]) after (by simp) hform
  simp only [List.length_append, List.length_singleton] at hle
  omega

section Numbers

/-- The numbers are the numerals with a digit. -/
theorem isNumber_iff
    {lexeme : List Char} :
    IsNumber lexeme ↔ ∃ ds fraction?, Digits ds ∧ (∀ fs ∈ fraction?, Digits fs) ∧
      (ds ≠ [] ∨ fraction?.getD [] ≠ []) ∧ lexeme = Token.numeralText ds fraction? := by
  constructor
  · rintro ⟨value, h⟩
    cases h with
    | whole hds hne => exact ⟨lexeme, none, hds, by simp, .inl hne, rfl⟩
    | @point ds fs hds hne hfs => exact ⟨ds, some fs, hds, by simpa using hfs, .inl hne, rfl⟩
    | @fraction fs hfs hne =>
        exact ⟨[], some fs, by simp [Digits], by simpa using hfs, .inr hne, rfl⟩
  · rintro ⟨ds, fraction?, hds, hfs, hne, rfl⟩
    exact ⟨_, spells_numeralText hds hfs hne⟩

/-- A run of a class in front of a text is no longer than the longest. -/
theorem length_le_takeWhile
    {p : Char → Bool} {run after cs : List Char}
    (hcs : cs = run ++ after)
    (hrun : ∀ c ∈ run, p c = true) :
    run.length ≤ (cs.takeWhile p).length := by
  rw [hcs, List.takeWhile_append_of_pos hrun, List.length_append]
  omega

/-- A numeral that neither a digit nor a fraction follows is the longest. -/
theorem longest_numeralText
    {ds : List Char} {fraction? : Option (List Char)} {rest : List Char}
    (hds : Digits ds)
    (hfs : ∀ fs ∈ fraction?, Digits fs)
    (hne : ds ≠ [] ∨ fraction?.getD [] ≠ [])
    (hdigit : ∀ c ∈ rest.head?, c.isDigit = false)
    (hpoint : fraction? = none → rest.head? ≠ some '.') :
    Longest IsNumber (Token.numeralText ds fraction?) rest := by
  refine ⟨isNumber_iff.mpr ⟨ds, fraction?, hds, hfs, hne, rfl⟩, ?_⟩
  intro other after heq hother
  obtain ⟨ds', fraction', hds', hfs', -, rfl⟩ := isNumber_iff.mp hother
  have hdigits : Numeral.digits (Token.numeralText ds fraction? ++ rest) = _ :=
    digits_numeralText hds hdigit
  cases fraction' with
  | none =>
      have hle := length_le_takeWhile heq hds'
      rw [show (Token.numeralText ds fraction? ++ rest).takeWhile Char.isDigit = ds from
        congrArg Prod.fst hdigits] at hle
      have hds_le : ds.length ≤ (Token.numeralText ds fraction?).length := by
        cases fraction? <;> simp [Token.numeralText]
      exact hle.trans hds_le
  | some fs' =>
      -- the point ends the digits of both, so they are the same
      have hdigits' : Numeral.digits (Token.numeralText ds' (some fs') ++ after) =
          (ds', '.' :: (fs' ++ after)) := by
        rw [Token.numeralText, List.append_assoc]
        exact digits_append hds' (by simp)
      rw [heq, hdigits'] at hdigits
      obtain ⟨rfl, htail⟩ := Prod.mk.inj hdigits
      cases fraction? with
      | none => exact absurd (by rw [show rest = _ from htail.symm]; rfl) (hpoint rfl)
      | some fs =>
          have hfs_eq : fs' ++ after = fs ++ rest := (List.cons.inj htail).2
          have hle := length_le_takeWhile hfs_eq.symm (hfs' fs' rfl)
          rw [(span_run (hfs fs rfl) hdigit).1] at hle
          simpa [Token.numeralText] using hle

theorem isNumber_concat_digit
    {lexeme : List Char} {d : Char}
    (h : IsNumber lexeme)
    (hd : d.isDigit = true) :
    IsNumber (lexeme ++ [d]) := by
  obtain ⟨ds, fraction?, hds, hfs, hne, rfl⟩ := isNumber_iff.mp h
  have hconcat : ∀ {run : List Char}, Digits run → Digits (run ++ [d]) := by
    intro run hrun c hc
    rcases List.mem_append.mp hc with hc | hc
    · exact hrun c hc
    · rwa [List.mem_singleton.mp hc]
  rw [isNumber_iff]
  cases fraction? with
  | none => exact ⟨ds ++ [d], none, hconcat hds, by simp, by simp, rfl⟩
  | some fs =>
      exact ⟨ds, some (fs ++ [d]), hds, by simpa using hconcat (hfs fs rfl), by simp,
        by simp [Token.numeralText]⟩

/-- A number starts with a digit or a point. -/
theorem head_of_isNumber
    {lexeme : List Char}
    (h : IsNumber lexeme) :
    ∃ c cs, lexeme = c :: cs ∧ Token.startsNumber c = true := by
  obtain ⟨ds, fraction?, hds, -, hne, rfl⟩ := isNumber_iff.mp h
  cases ds with
  | cons d ds =>
      have hd : Token.startsNumber d = true := by
        simp [Token.startsNumber, hds d List.mem_cons_self]
      cases fraction? with
      | none => exact ⟨d, ds, rfl, hd⟩
      | some fs => exact ⟨d, ds ++ '.' :: fs, rfl, hd⟩
  | nil =>
      cases fraction? with
      | none => simp at hne
      | some fs => exact ⟨'.', fs, rfl, by decide⟩

end Numbers

section Symbols

theorem isName_iff
    {lexeme : List Char} :
    IsName lexeme ↔ ∃ c cs, lexeme = c :: cs ∧ Token.startsName c = true ∧
      ∀ x ∈ lexeme, Token.continuesName x = true := by
  constructor
  · rintro ⟨text, h⟩
    cases h with
    | @name c cs hc hcs =>
        have hname : Token.startsName c = true := by simpa [Token.startsName] using hc
        refine ⟨c, cs, rfl, hname, ?_⟩
        intro x hx
        rcases List.mem_cons.mp hx with rfl | hx
        · exact continuesName_of_startsName hname
        · simpa [Token.continuesName] using hcs x hx
  · rintro ⟨c, cs, rfl, hc, hcs⟩
    refine ⟨_, .name (by simpa [Token.startsName] using hc) ?_⟩
    intro x hx
    simpa [Token.continuesName] using hcs x (List.mem_cons_of_mem _ hx)

/-- Every lexeme begins with a character of one of the three kinds. -/
theorem begins_of_spells
    {lexeme : List Char} {t : Token}
    (h : Spells lexeme t) :
    ∃ c cs, lexeme = c :: cs ∧
      (Token.startsNumber c = true ∨ Token.startsName c = true ∨
        (Token.symbol? c).isSome = true) := by
  cases t with
  | number value =>
      obtain ⟨c, cs, hlexeme, hc⟩ := head_of_isNumber ⟨value, h⟩
      exact ⟨c, cs, hlexeme, .inl hc⟩
  | name text =>
      obtain ⟨c, cs, hlexeme, hc, -⟩ := isName_iff.mp ⟨text, h⟩
      exact ⟨c, cs, hlexeme, .inr (.inl hc)⟩
  | plus => cases h; exact ⟨'+', [], rfl, .inr (.inr rfl)⟩
  | minus => cases h; exact ⟨'-', [], rfl, .inr (.inr rfl)⟩
  | times => cases h; exact ⟨'*', [], rfl, .inr (.inr rfl)⟩
  | divide => cases h; exact ⟨'/', [], rfl, .inr (.inr rfl)⟩
  | leftParen => cases h; exact ⟨'(', [], rfl, .inr (.inr rfl)⟩
  | rightParen => cases h; exact ⟨')', [], rfl, .inr (.inr rfl)⟩

/-- A symbol has one text. -/
theorem hasForm_symbol_iff
    {c : Char} {t : Token} {lexeme : List Char}
    (h : Token.symbol? c = some t) :
    HasForm t lexeme ↔ lexeme = [c] := by
  unfold Token.symbol? at h
  split at h <;> cases h
  all_goals
    constructor
    · rintro ⟨⟩
      rfl
    · rintro rfl
      exact spells_of_symbol rfl

/-- A character begins no lexeme if it is of none of the three kinds. -/
theorem beginsNone_iff
    {c : Char} :
    BeginsNone c ↔ Text.isBlank c = false ∧ Token.startsNumber c = false ∧
      Token.startsName c = false ∧ Token.symbol? c = none := by
  constructor
  · intro h
    refine ⟨h.visible, ?_, ?_, ?_⟩
    · rw [Bool.eq_false_iff, Ne, Token.startsNumber, Bool.or_eq_true, decide_eq_true_eq]
      rintro (hd | rfl)
      · exact h.head_ne [c] _ (.whole (by simpa [Digits] using hd) (by simp)) rfl
      · exact h.head_ne ['.', '0'] _ (.fraction (by simp [Digits]) (by simp)) rfl
    · rw [Bool.eq_false_iff]
      intro hc
      obtain ⟨text, hspells⟩ := isName_iff.mpr
        ⟨c, [], rfl, hc, by simpa using continuesName_of_startsName hc⟩
      exact h.head_ne [c] _ hspells rfl
    · rw [Option.eq_none_iff_forall_not_mem]
      intro t ht
      exact h.head_ne [c] t (spells_of_symbol ht) rfl
  · rintro ⟨hblank, hnumber, hname, hsymbol⟩
    refine ⟨hblank, ?_⟩
    intro lexeme t hspells hhead
    obtain ⟨x, cs, rfl, hx⟩ := begins_of_spells hspells
    obtain rfl : x = c := Option.some.inj hhead
    simp [hnumber, hname, hsymbol] at hx

end Symbols

section Places

theorem not_isDigit_of_clash
    {c : Char}
    (hc : c.isAlpha = true ∨ c = '_' ∨ c = '.') :
    c.isDigit = false := by
  rw [Bool.eq_false_iff, Ne, isDigit_iff]
  intro hdigit
  rcases hc with hc | rfl | rfl
  · rw [isAlpha_iff] at hc
    omega
  · exact absurd hdigit (by decide)
  · exact absurd hdigit (by decide)

/-- At a refused place the scanner gives the reason. -/
theorem scanVisible_of_refused
    {cs : List Char} {e : LexError}
    (h : Refused cs e) :
    ∃ rest, Token.scanVisible cs = (.error e, rest) := by
  cases h with
  | @unexpected c cs hc =>
      obtain ⟨-, hnumber, hname, hsymbol⟩ := beginsNone_iff.mp hc
      exact ⟨c :: cs, by simp [Token.scanVisible, hnumber, hname, hsymbol]⟩
  | @lonePoint cs hcs =>
      have hscan : Token.scanNumber (Token.numeralText [] (some []) ++ cs) = _ :=
        scanNumber_eq (by simp [Digits]) (by simp [Digits]) hcs (by simp)
      exact ⟨cs, hscan⟩
  | @malformed numeral cs c hnumeral hc =>
      obtain ⟨ds, fraction?, hds, hfs, hne, rfl⟩ := isNumber_iff.mp hnumeral.isForm
      obtain ⟨x, xs, hhead, hx⟩ := head_of_isNumber hnumeral.isForm
      have hpoint : fraction? = none → c ≠ '.' := by
        -- the point would make the numeral longer
        rintro rfl rfl
        have hlonger : IsNumber (ds ++ ['.']) :=
          isNumber_iff.mpr ⟨ds, some [], hds, by simp [Digits], by simpa using hne, rfl⟩
        exact hnumeral.not_form_concat '.' rfl hlonger
      have hscan : Token.scanNumber (Token.numeralText ds fraction? ++ c :: cs) = _ :=
        scanNumber_eq hds hfs (by simpa using not_isDigit_of_clash hc) (by simpa using hpoint)
      have hempty : (ds.isEmpty && (fraction?.getD []).isEmpty) = false := by
        rw [Bool.and_eq_false_iff, List.isEmpty_eq_false_iff, List.isEmpty_eq_false_iff]
        exact hne
      have hclash : Token.clashesWithNumber c = true := by
        simpa [Token.clashesWithNumber, or_assoc] using hc
      rw [hempty, List.head?_cons, Option.any_some, hclash] at hscan
      refine ⟨c :: cs, ?_⟩
      rw [hhead] at hscan ⊢
      rw [List.cons_append, Token.scanVisible, if_pos hx]
      exact hscan

/-- A lexeme that is as long as its form allows is scanned where nothing is refused. -/
theorem scanVisible_of_longest
    {lexeme rest : List Char} {t : Token}
    (hspells : Spells lexeme t)
    (hlongest : Longest (HasForm t) lexeme rest)
    (hnot : ∀ e, ¬ Refused (lexeme ++ rest) e) :
    Token.scanVisible (lexeme ++ rest) = (.token t, rest) := by
  have hstops := hlongest.not_form_concat
  cases t with
  | number value =>
      refine scanVisible_number hspells fun c hc => ?_
      rw [Bool.eq_false_iff, Ne, isWordChar_iff]
      rintro (hdigit | hclash)
      · exact hstops c hc (isNumber_concat_digit hlongest.isForm hdigit)
      · obtain ⟨after, rfl⟩ := List.head?_eq_some_iff.mp hc
        exact hnot _ (.malformed hlongest hclash)
  | name text =>
      refine scanVisible_name hspells fun c hc => ?_
      rw [Bool.eq_false_iff]
      intro hcontinues
      obtain ⟨x, xs, rfl, hx, hall⟩ := isName_iff.mp hlongest.isForm
      refine hstops c hc (isName_iff.mpr ⟨x, xs ++ [c], rfl, hx, ?_⟩)
      intro y hy
      rcases List.mem_append.mp hy with hy | hy
      · exact hall y hy
      · rwa [List.mem_singleton.mp hy]
  | _ => exact (scanVisible_symbol hspells rfl rest).1

/-- A number or a point starts a numeral, or is refused. -/
theorem longest_or_refused_of_startsNumber
    {c : Char} {cs : List Char}
    (hc : Token.startsNumber c = true) :
    Refused (c :: cs) .lonePoint ∨
      ∃ lexeme value rest, c :: cs = lexeme ++ rest ∧ Spells lexeme (.number value) ∧
        Longest IsNumber lexeme rest := by
  obtain ⟨ds, fraction?, rest, htext, hds, hfs, hdigit, hpoint⟩ := exists_numeralText (c :: cs)
  by_cases hne : ds ≠ [] ∨ fraction?.getD [] ≠ []
  · exact .inr ⟨_, _, rest, htext, spells_numeralText hds hfs hne,
      longest_numeralText hds hfs hne hdigit hpoint⟩
  · -- no digit on either side: the text starts with a point that no digit follows
    refine .inl ?_
    simp only [not_or, not_not] at hne
    obtain ⟨rfl, hfraction⟩ := hne
    cases fraction? with
    | none =>
        rw [Token.numeralText, List.nil_append] at htext
        subst htext
        simp only [List.head?_cons, Option.mem_def, Option.some.injEq, forall_eq',
          forall_const, ne_eq] at hdigit hpoint
        simp [Token.startsNumber, hdigit, hpoint] at hc
    | some fs =>
        obtain rfl : fs = [] := hfraction
        obtain ⟨rfl, rfl⟩ := List.cons.inj htext
        exact .lonePoint hdigit

/-- At every visible place there is a longest lexeme, or the place is refused. -/
theorem exists_longest
    {c : Char} {cs : List Char}
    (hblank : Text.isBlank c = false)
    (hnot : ∀ e, ¬ Refused (c :: cs) e) :
    ∃ lexeme t rest, c :: cs = lexeme ++ rest ∧ Spells lexeme t ∧
      Longest (HasForm t) lexeme rest := by
  by_cases hnumber : Token.startsNumber c = true
  · rcases longest_or_refused_of_startsNumber hnumber with hrefused | hlexeme
    · exact absurd hrefused (hnot _)
    · obtain ⟨lexeme, value, rest, htext, hspells, hlongest⟩ := hlexeme
      exact ⟨lexeme, .number value, rest, htext, hspells, hlongest⟩
  by_cases hname : Token.startsName c = true
  · have hcontinues := continuesName_of_startsName hname
    obtain ⟨text, hspells⟩ : IsName ((c :: cs).takeWhile Token.continuesName) :=
      isName_iff.mpr ⟨c, cs.takeWhile Token.continuesName, by simp [hcontinues], hname,
        fun x hx => List.mem_takeWhile_imp hx⟩
    refine ⟨_, .name text, (c :: cs).dropWhile Token.continuesName,
      List.takeWhile_append_dropWhile.symm, hspells, ⟨text, hspells⟩, ?_⟩
    intro other after heq hother
    rw [List.takeWhile_append_dropWhile] at heq
    obtain ⟨-, -, -, -, hall⟩ := isName_iff.mp hother
    exact length_le_takeWhile heq hall
  cases hsymbol : Token.symbol? c with
  | none =>
      exact absurd (.unexpected (beginsNone_iff.mpr
        ⟨hblank, by simpa using hnumber, by simpa using hname, hsymbol⟩)) (hnot _)
  | some t =>
      refine ⟨[c], t, cs, rfl, spells_of_symbol hsymbol, (hasForm_symbol_iff hsymbol).mpr rfl, ?_⟩
      intro other after _ hother
      rw [(hasForm_symbol_iff hsymbol).mp hother]

end Places

section Texts

/-- Refused places are visible. -/
theorem isBlank_of_refused
    {cs : List Char} {e : LexError}
    (h : Refused cs e) :
    ∀ c ∈ cs.head?, Text.isBlank c = false := by
  cases h with
  | unexpected hc => simpa using hc.visible
  | lonePoint => simp; decide
  | malformed hnumeral =>
      obtain ⟨value, hspells⟩ := hnumeral.isForm
      obtain ⟨x, xs, rfl, hx⟩ := head_of_spells hspells
      simpa using hx

/-- Every text has its lexemes. -/
theorem exists_lexes
    (cs : List Char) :
    ∃ ts stop, Lexes cs ts stop := by
  -- on the length of the text, since a lexeme takes away a character at least
  induction hlength : cs.length using Nat.strong_induction_on generalizing cs with
  | _ length ih =>
      obtain ⟨blanks, visible, rfl, hblanks, hvisible⟩ := exists_blanks cs
      by_cases hrefused : ∃ e, Refused visible e
      · obtain ⟨e, he⟩ := hrefused
        exact ⟨[], some e, .refused hblanks he⟩
      rw [not_exists] at hrefused
      cases visible with
      | nil => exact ⟨[], none, by simpa using Lexes.ending hblanks⟩
      | cons c cs =>
          obtain ⟨lexeme, t, rest, htext, hspells, hlongest⟩ :=
            exists_longest (hvisible c rfl) hrefused
          obtain ⟨x, xs, rfl, -⟩ := head_of_spells hspells
          rw [htext] at hrefused hlength ⊢
          obtain ⟨ts, stop, hrest⟩ := ih rest.length (by simp at hlength; omega) rest rfl
          exact ⟨t :: ts, stop, .token hblanks hspells hlongest hrefused hrest⟩

/-- The lexemes of a text are what scanning finds. -/
theorem run_of_lexes
    {cs : List Char} {ts : List Token} {stop : Option LexError}
    (h : Lexes cs ts stop) :
    Token.run cs = (ts, stop) := by
  induction h with
  | @ending blanks hblanks => exact run_of_cut (.done hblanks) .nil
  | @refused blanks rest e hblanks hrefused =>
      obtain ⟨after, hscan⟩ := scanVisible_of_refused hrefused
      rw [← scan_blanks_append hblanks (isBlank_of_refused hrefused)] at hscan
      rw [Token.run]
      split <;> simp_all
  | @token blanks lexeme rest t ts stop hblanks hspells hlongest hnot hrest ih =>
      obtain ⟨c, cs, hlexeme, hc⟩ := head_of_spells hspells
      have hvisible : ∀ x ∈ (lexeme ++ rest).head?, Text.isBlank x = false := by
        subst hlexeme
        simpa using hc
      have hscan : Token.scan (blanks ++ (lexeme ++ rest)) = (.token t, rest) := by
        rw [scan_blanks_append hblanks hvisible,
          scanVisible_of_longest hspells hlongest hnot]
      rw [run_of_scan hscan, ih]

/-- Scanning finds the lexemes of a text, and nothing else. -/
theorem run_eq_iff_lexes
    {cs : List Char} {ts : List Token} {stop : Option LexError} :
    Token.run cs = (ts, stop) ↔ Lexes cs ts stop := by
  constructor
  · intro h
    obtain ⟨ts', stop', hlexes⟩ := exists_lexes cs
    rw [run_of_lexes hlexes, Prod.mk.injEq] at h
    obtain ⟨rfl, rfl⟩ := h
    exact hlexes
  · exact run_of_lexes

end Texts

end Grammar

namespace Token

/--
Scans on, at most `fuel` times, up to the end of a text or its first error. There is no
result if that many scans do not suffice.
-/
def scanWithin : Nat → List Char → Option (List Token × Option LexError)
  | 0, _ => none
  | fuel + 1, cs =>
      match scan cs with
      | (.eof, _) => some ([], none)
      | (.error e, _) => some ([], some e)
      | (.token t, rest) =>
          (scanWithin fuel rest).map fun later => (t :: later.1, later.2)

/-- A scan more than there are characters suffices. -/
theorem scanWithin_eq_run
    {fuel : Nat} {cs : List Char}
    (hfuel : cs.length < fuel) :
    scanWithin fuel cs = some (run cs) := by
  induction fuel generalizing cs with
  | zero => omega
  | succ fuel ih =>
      rw [scanWithin, run]
      split
      · rename_i hscan
        split <;> simp_all
      · rename_i hscan
        split <;> simp_all
      · rename_i t rest hscan
        have hlt := length_scan_lt hscan
        rw [ih (by omega)]
        split <;> simp_all

/-- What a scan leaves behind a token is the end of its text. -/
theorem exists_used_of_scan
    {cs rest : List Char} {t : Token}
    (h : scan cs = (.token t, rest)) :
    ∃ used, used ≠ [] ∧ cs = used ++ rest := by
  obtain ⟨blanks, visible, rfl, hblanks, hscan⟩ := Grammar.scan_eq cs
  rw [hscan] at h
  obtain ⟨lexeme, rfl, hspells⟩ := Grammar.spells_of_scanVisible h
  obtain ⟨c, cs, rfl, -⟩ := Grammar.head_of_spells hspells
  exact ⟨blanks ++ c :: cs, by simp, by simp⟩

end Token

/--
Scanning a text for one token after the other ends after one scan more than it has
characters, and every token that is scanned takes a character at least. The tokens and the
error are those of the text: blanks and lexemes that make it up from its start, numbers and
names as long as they can be and none of them at a refused place, until only blanks are left
or the next visible place is refused.
-/
theorem Grammar.lexes_text
    (text : String) :
    Token.scanWithin (text.toList.length + 1) text.toList = some (Token.run text.toList) ∧
    (∀ cs rest t, Token.scan cs = (.token t, rest) → ∃ used, used ≠ [] ∧ cs = used ++ rest) ∧
    ∀ ts stop, Token.run text.toList = (ts, stop) ↔ Grammar.Lexes text.toList ts stop :=
  ⟨Token.scanWithin_eq_run (Nat.lt_succ_self _), fun _ _ _ => Token.exists_used_of_scan,
    fun _ _ => Grammar.run_eq_iff_lexes⟩

end LiveForms
