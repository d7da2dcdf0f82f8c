import LiveForms.Text.Blank
import LiveForms.Decimal.Layout
import LiveForms.Decimal.Numeral

/-!
# Live forms: the tokens of an expression

Main definitions:

* `Token`: the tokens, and `Token.describe`, their form inside messages.
* `Token.scan`: the first token of a text and the text after it.
* `Token.run`: all tokens of a text up to its end or its first lexical error.

Main statements:

* `Token.length_scan_lt`: every token takes at least one character, so `Token.run` ends.
-/

namespace LiveForms

/-- The tokens of an expression. -/
inductive Token where
  | number (value : Float)
  | name (text : String)
  | plus
  | minus
  | times
  | divide
  | leftParen
  | rightParen
deriving DecidableEq, Repr

/-- Why no token can be read. -/
inductive LexError where
  /-- No token starts with this character. -/
  | unexpected (c : Char)
  /-- A point without a digit on either side. -/
  | lonePoint
  /-- A numeral that runs into a letter, an underscore or another point. -/
  | malformed (numeral : String)
deriving DecidableEq, Repr

/-- The text of a lexical error. -/
def LexError.message : LexError → String
  | .unexpected c => "Unexpected character: '" ++ c.toString ++ "'"
  | .lonePoint => "Invalid number: ."
  | .malformed numeral => "Malformed number near '" ++ numeral ++ "'"

/-- What a scan finds at the start of a text. -/
inductive Lexeme where
  | token (t : Token)
  | error (e : LexError)
  | eof
deriving DecidableEq, Repr

namespace Token

/-- The form of a token inside a message. -/
def describe : Token → String
  | .number value => "Number(" ++ String.ofList (Layout.message.write value) ++ ")"
  | .name text => "Identifier(\"" ++ text ++ "\")"
  | .plus => "Plus"
  | .minus => "Minus"
  | .times => "Multiply"
  | .divide => "Divide"
  | .leftParen => "LeftParen"
  | .rightParen => "RightParen"

/-- The tokens of one character. -/
def symbol? : Char → Option Token
  | '+' => some .plus
  | '-' => some .minus
  | '*' => some .times
  | '/' => some .divide
  | '(' => some .leftParen
  | ')' => some .rightParen
  | _ => none

/-- A name starts with an ASCII letter or an underscore. -/
def startsName (c : Char) : Bool :=
  c.isAlpha || c = '_'

/-- A name goes on with ASCII letters, digits and underscores. -/
def continuesName (c : Char) : Bool :=
  c.isAlphanum || c = '_'

/-- A numeral starts with an ASCII digit or a point. -/
def startsNumber (c : Char) : Bool :=
  c.isDigit || c = '.'

/-- The characters that may not follow a numeral directly. -/
def clashesWithNumber (c : Char) : Bool :=
  c.isAlpha || c = '_' || c = '.'

/-- The fraction at the start of a text: a point, the digits after it, and the rest. -/
def splitFraction : List Char → Option (List Char) × List Char
  | '.' :: rest => (some (Numeral.digits rest).1, (Numeral.digits rest).2)
  | rest => (none, rest)

/-- The characters of a numeral. -/
def numeralText (whole : List Char) : Option (List Char) → List Char
  | some fraction => whole ++ '.' :: fraction
  | none => whole

/-- The numeral that a text starts with. -/
def scanNumber (cs : List Char) : Lexeme × List Char :=
  let (whole, afterWhole) := Numeral.digits cs
  let (fraction?, rest) := splitFraction afterWhole
  let fraction := fraction?.getD []
  let lexeme :=
    if whole.isEmpty && fraction.isEmpty then
      .error .lonePoint
    else if rest.head?.any clashesWithNumber then
      .error (.malformed (String.ofList (numeralText whole fraction?)))
    else
      .token (.number (Numeral.value ⟨whole, fraction, 0⟩))
  (lexeme, rest)

/-- The name that a text starts with. -/
def scanName (cs : List Char) : Lexeme × List Char :=
  (.token (.name (String.ofList (cs.takeWhile continuesName))), cs.dropWhile continuesName)

/-- The first token of a text that starts with no blank, and the text after it. -/
def scanVisible : List Char → Lexeme × List Char
  | [] => (.eof, [])
  | c :: cs =>
      if startsNumber c then
        scanNumber (c :: cs)
      else if startsName c then
        scanName (c :: cs)
      else
        match symbol? c with
        | some t => (.token t, cs)
        | none => (.error (.unexpected c), c :: cs)

/--
The first token of a text and the text after it, blanks skipped. A character that
starts no token is not passed over, a malformed numeral is.
-/
def scan (cs : List Char) : Lexeme × List Char :=
  scanVisible (Text.trimStart cs)

/-- Dropping leading characters never lengthens a text. -/
theorem length_dropWhile_le
    (p : Char → Bool)
    (cs : List Char) :
    (cs.dropWhile p).length ≤ cs.length := by
  induction cs with
  | nil =>
      simp
  | cons c cs ih =>
      rw [List.dropWhile_cons]
      split
      · simp only [List.length_cons]
        omega
      · exact Nat.le_refl _

/-- Taking off a fraction never lengthens a text. -/
theorem length_splitFraction_le
    (cs : List Char) :
    (splitFraction cs).2.length ≤ cs.length := by
  unfold splitFraction
  split
  · rename_i rest
    have := length_dropWhile_le Char.isDigit rest
    simp only [Numeral.digits, List.length_cons]
    omega
  · exact Nat.le_refl _

/-- A numeral takes at least one character. -/
theorem length_scanNumber_lt
    {c : Char}
    {cs : List Char}
    (h : startsNumber c = true) :
    (scanNumber (c :: cs)).2.length < (c :: cs).length := by
  simp only [scanNumber, Numeral.digits]
  by_cases hd : c.isDigit = true
  · have h1 := length_dropWhile_le Char.isDigit cs
    have h2 := length_splitFraction_le (cs.dropWhile Char.isDigit)
    rw [List.dropWhile_cons_of_pos hd]
    simp only [List.length_cons]
    omega
  · have hc : c = '.' := by
      simpa [startsNumber, hd] using h
    subst hc
    rw [List.dropWhile_cons_of_neg hd]
    have h1 := length_dropWhile_le Char.isDigit cs
    simp only [splitFraction, Numeral.digits, List.length_cons]
    omega

/-- A scan that finds a token takes at least one character. -/
theorem length_scan_lt
    {cs rest : List Char}
    {t : Token}
    (h : scan cs = (.token t, rest)) :
    rest.length < cs.length := by
  have hblank := length_dropWhile_le Text.isBlank cs
  simp only [scan, Text.trimStart] at h
  generalize cs.dropWhile Text.isBlank = visible at h hblank
  cases visible with
  | nil =>
      simp [scanVisible] at h
  | cons c visible =>
      simp only [scanVisible] at h
      split at h
      · rename_i hn
        have : (scanNumber (c :: visible)).2.length < (c :: visible).length :=
          length_scanNumber_lt hn
        simp only [h] at this
        omega
      · split at h
        · rename_i hn
          have hc : continuesName c = true := by
            simp only [startsName, continuesName, Char.isAlphanum, Bool.or_eq_true] at hn ⊢
            exact hn.imp_left Or.inl
          have := length_dropWhile_le continuesName visible
          simp only [scanName, List.dropWhile_cons_of_pos hc, Prod.mk.injEq] at h
          rw [← h.2]
          simp only [List.length_cons] at hblank
          omega
        · split at h
          · simp only [Prod.mk.injEq] at h
            rw [← h.2]
            simp only [List.length_cons] at hblank
            omega
          · simp at h

/-- The tokens of a text up to its end, or up to the lexical error that stops them. -/
def run (cs : List Char) : List Token × Option LexError :=
  match h : scan cs with
  | (.eof, _) => ([], none)
  | (.error e, _) => ([], some e)
  | (.token t, rest) =>
      have : rest.length < cs.length := length_scan_lt h
      let later := run rest
      (t :: later.1, later.2)
termination_by cs.length

end Token
end LiveForms
