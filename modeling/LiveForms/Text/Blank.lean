/-!
# Live forms: blank characters

The characters that separate the lexemes of an expression and that surround the
content of a grade or credit cell are those with the Unicode property White_Space.
This module holds the table of that property and the trimming built on it.

Main definitions:

* `Text.isBlank`: the White_Space property, as the list of its ten ranges.
* `Text.trim`: a text without its leading and trailing blanks.

Every blank of the core library's narrower test `Char.isWhitespace` is a blank here
(`isBlank_of_isWhitespace`).
-/

namespace LiveForms
namespace Text

/-- The White_Space property, as inclusive ranges of code points. -/
def blankRanges : List (Nat × Nat) :=
  [(0x09, 0x0D), (0x20, 0x20), (0x85, 0x85), (0xA0, 0xA0), (0x1680, 0x1680),
   (0x2000, 0x200A), (0x2028, 0x2029), (0x202F, 0x202F), (0x205F, 0x205F),
   (0x3000, 0x3000)]

/-- A character is blank when its code point lies in one of `blankRanges`. -/
def isBlank (c : Char) : Bool :=
  blankRanges.any fun range => range.1 ≤ c.toNat && c.toNat ≤ range.2

/-- A text without its leading blanks. -/
def trimStart (cs : List Char) : List Char :=
  cs.dropWhile isBlank

/-- A text without its leading and trailing blanks. -/
def trim (cs : List Char) : List Char :=
  (trimStart (trimStart cs).reverse).reverse

/-- The property has twenty-five members. -/
example : (blankRanges.map fun range => range.2 + 1 - range.1).sum = 25 := by
  decide

/-- The core library's white space is part of the property. -/
theorem isBlank_of_isWhitespace
    {c : Char}
    (h : c.isWhitespace = true) :
    isBlank c = true := by
  simp only [Char.isWhitespace, Bool.or_eq_true, decide_eq_true_eq] at h
  rcases h with ((rfl | rfl) | rfl) | rfl <;> decide

end Text
end LiveForms
