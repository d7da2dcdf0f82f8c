/-!
# Live forms: properties of characters

Whether two neighbouring characters belong to one cluster is decided by properties that the
Unicode standard gives to characters. The tables of this module list the characters with
such a property, as ranges of code points in increasing order.

The marks that extend a character are many, and most of them take no screen cell. Only
those of one cell are listed here, and the same holds for the signs that link consonants.

Main definitions:

* `Text.inRanges`: whether a number lies in one of the ranges of a table.
* `Text.isControl`, `Text.isExtend`, `Text.isSpacingMark`, `Text.isPrepended`: characters
  that keep apart, join to the left and join to the right.
* `Text.isRegional`, `Text.isVowelSign`: characters that join to their own kind.
* `Text.isConsonant`, `Text.isLinker`: the letters and signs of conjunct consonants.

Main statements:

* `Text.isExtend_of_isLinker`: a sign that links consonants extends what it stands behind.
-/

namespace LiveForms
namespace Text

/-- Whether a number lies in one of the ranges of a table, which are in increasing order. -/
def inRanges (n : Nat) : List (Nat × Nat) → Bool
  | [] => false
  | (low, high) :: ranges => if n < low then false else n ≤ high || inRanges n ranges

/-- The characters that never share a cluster, in inclusive ranges of code points. -/
def controlRanges : List (Nat × Nat) :=
  [(0x0000, 0x001F), (0x007F, 0x009F), (0x00AD, 0x00AD), (0x061C, 0x061C),
   (0x180E, 0x180E), (0x200B, 0x200B), (0x200E, 0x200F), (0x2028, 0x202E),
   (0x2060, 0x206F), (0xFEFF, 0xFEFF), (0xFFF0, 0xFFFB), (0x13430, 0x1343F),
   (0x1BCA0, 0x1BCA3), (0x1D173, 0x1D17A), (0xE0000, 0xE001F), (0xE0080, 0xE00FF),
   (0xE01F0, 0xE0FFF)]

/-- The marks of one cell that extend a character, in inclusive ranges of code points. -/
def extendRanges : List (Nat × Nat) :=
  [(0x0897, 0x0897), (0x1715, 0x1715), (0x1734, 0x1734), (0x1ACF, 0x1ADD),
   (0x1AE0, 0x1AEB), (0x1B44, 0x1B44), (0x1BAA, 0x1BAA), (0x1BF2, 0x1BF3),
   (0x2D7F, 0x2D7F), (0xA953, 0xA953), (0xA9C0, 0xA9C0), (0x10D69, 0x10D6D),
   (0x10EFA, 0x10EFC), (0x111C0, 0x111C0), (0x11235, 0x11235), (0x1134D, 0x1134D),
   (0x113B8, 0x113B8), (0x113BB, 0x113C0), (0x113C2, 0x113C2), (0x113C5, 0x113C5),
   (0x113C7, 0x113C9), (0x113CE, 0x113D0), (0x113D2, 0x113D2), (0x113E1, 0x113E2),
   (0x116B6, 0x116B6), (0x1193D, 0x1193D), (0x11B60, 0x11B60), (0x11B62, 0x11B64),
   (0x11B66, 0x11B66), (0x11F41, 0x11F41), (0x11F5A, 0x11F5A), (0x1611E, 0x16129),
   (0x1612D, 0x1612F), (0x1D166, 0x1D166), (0x1D16D, 0x1D16D), (0x1E5EE, 0x1E5EF),
   (0x1E6E3, 0x1E6E3), (0x1E6E6, 0x1E6E6), (0x1E6EE, 0x1E6EF), (0x1E6F5, 0x1E6F5)]

/-- The marks that follow what they belong to, in inclusive ranges of code points. -/
def spacingMarkRanges : List (Nat × Nat) :=
  [(0x0903, 0x0903), (0x093B, 0x093B), (0x093E, 0x0940), (0x0949, 0x094C),
   (0x094E, 0x094F), (0x0982, 0x0983), (0x09BF, 0x09C0), (0x09C7, 0x09C8),
   (0x09CB, 0x09CC), (0x0A03, 0x0A03), (0x0A3E, 0x0A40), (0x0A83, 0x0A83),
   (0x0ABE, 0x0AC0), (0x0AC9, 0x0AC9), (0x0ACB, 0x0ACC), (0x0B02, 0x0B03),
   (0x0B40, 0x0B40), (0x0B47, 0x0B48), (0x0B4B, 0x0B4C), (0x0BBF, 0x0BBF),
   (0x0BC1, 0x0BC2), (0x0BC6, 0x0BC8), (0x0BCA, 0x0BCC), (0x0C01, 0x0C03),
   (0x0C41, 0x0C44), (0x0C82, 0x0C83), (0x0CBE, 0x0CBE), (0x0CC1, 0x0CC1),
   (0x0CC3, 0x0CC4), (0x0CF3, 0x0CF3), (0x0D02, 0x0D03), (0x0D3F, 0x0D40),
   (0x0D46, 0x0D48), (0x0D4A, 0x0D4C), (0x0D82, 0x0D83), (0x0DD0, 0x0DD1),
   (0x0DD8, 0x0DDE), (0x0DF2, 0x0DF3), (0x0E33, 0x0E33), (0x0EB3, 0x0EB3),
   (0x0F3E, 0x0F3F), (0x0F7F, 0x0F7F), (0x1031, 0x1031), (0x103B, 0x103C),
   (0x1056, 0x1057), (0x1084, 0x1084), (0x17B6, 0x17B6), (0x17BE, 0x17C5),
   (0x17C7, 0x17C8), (0x1923, 0x1926), (0x1929, 0x192B), (0x1930, 0x1931),
   (0x1933, 0x1938), (0x1A19, 0x1A1A), (0x1A55, 0x1A55), (0x1A57, 0x1A57),
   (0x1A6D, 0x1A72), (0x1B04, 0x1B04), (0x1B3E, 0x1B41), (0x1B82, 0x1B82),
   (0x1BA1, 0x1BA1), (0x1BA6, 0x1BA7), (0x1BE7, 0x1BE7), (0x1BEA, 0x1BEC),
   (0x1BEE, 0x1BEE), (0x1C24, 0x1C2B), (0x1C34, 0x1C35), (0x1CE1, 0x1CE1),
   (0x1CF7, 0x1CF7), (0xA823, 0xA824), (0xA827, 0xA827), (0xA880, 0xA881),
   (0xA8B4, 0xA8C3), (0xA952, 0xA952), (0xA983, 0xA983), (0xA9B4, 0xA9B5),
   (0xA9BA, 0xA9BB), (0xA9BE, 0xA9BF), (0xAA2F, 0xAA30), (0xAA33, 0xAA34),
   (0xAA4D, 0xAA4D), (0xAAEB, 0xAAEB), (0xAAEE, 0xAAEF), (0xAAF5, 0xAAF5),
   (0xABE3, 0xABE4), (0xABE6, 0xABE7), (0xABE9, 0xABEA), (0xABEC, 0xABEC),
   (0x11000, 0x11000), (0x11002, 0x11002), (0x11082, 0x11082), (0x110B0, 0x110B2),
   (0x110B7, 0x110B8), (0x1112C, 0x1112C), (0x11145, 0x11146), (0x11182, 0x11182),
   (0x111B3, 0x111B5), (0x111BF, 0x111BF), (0x111CE, 0x111CE), (0x1122C, 0x1122E),
   (0x11232, 0x11233), (0x112E0, 0x112E2), (0x11302, 0x11303), (0x1133F, 0x1133F),
   (0x11341, 0x11344), (0x11347, 0x11348), (0x1134B, 0x1134C), (0x11362, 0x11363),
   (0x113B9, 0x113BA), (0x113CA, 0x113CA), (0x113CC, 0x113CD), (0x11435, 0x11437),
   (0x11440, 0x11441), (0x11445, 0x11445), (0x114B1, 0x114B2), (0x114B9, 0x114B9),
   (0x114BB, 0x114BC), (0x114BE, 0x114BE), (0x114C1, 0x114C1), (0x115B0, 0x115B1),
   (0x115B8, 0x115BB), (0x115BE, 0x115BE), (0x11630, 0x11632), (0x1163B, 0x1163C),
   (0x1163E, 0x1163E), (0x116AC, 0x116AC), (0x116AE, 0x116AF), (0x1171E, 0x1171E),
   (0x11726, 0x11726), (0x1182C, 0x1182E), (0x11838, 0x11838), (0x11931, 0x11935),
   (0x11937, 0x11938), (0x11940, 0x11940), (0x11942, 0x11942), (0x119D1, 0x119D3),
   (0x119DC, 0x119DF), (0x119E4, 0x119E4), (0x11A39, 0x11A39), (0x11A57, 0x11A58),
   (0x11A97, 0x11A97), (0x11B61, 0x11B61), (0x11B65, 0x11B65), (0x11B67, 0x11B67),
   (0x11C2F, 0x11C2F), (0x11C3E, 0x11C3E), (0x11CA9, 0x11CA9), (0x11CB1, 0x11CB1),
   (0x11CB4, 0x11CB4), (0x11D8A, 0x11D8E), (0x11D93, 0x11D94), (0x11D96, 0x11D96),
   (0x11EF5, 0x11EF6), (0x11F03, 0x11F03), (0x11F34, 0x11F35), (0x11F3E, 0x11F3F),
   (0x1612A, 0x1612C), (0x16F51, 0x16F87)]

/-- The signs that precede what they belong to, in inclusive ranges of code points. -/
def prependedRanges : List (Nat × Nat) :=
  [(0x0600, 0x0605), (0x06DD, 0x06DD), (0x070F, 0x070F), (0x0890, 0x0891),
   (0x08E2, 0x08E2), (0x0D4E, 0x0D4E), (0x110BD, 0x110BD), (0x110CD, 0x110CD),
   (0x111C2, 0x111C3), (0x113D1, 0x113D1), (0x1193F, 0x1193F), (0x11941, 0x11941),
   (0x11A84, 0x11A89), (0x11D46, 0x11D46), (0x11F02, 0x11F02)]

/-- The consonants that can make up a conjunct, in inclusive ranges of code points. -/
def consonantRanges : List (Nat × Nat) :=
  [(0x0915, 0x0939), (0x0958, 0x095F), (0x0978, 0x097F), (0x0995, 0x09A8),
   (0x09AA, 0x09B0), (0x09B2, 0x09B2), (0x09B6, 0x09B9), (0x09DC, 0x09DD),
   (0x09DF, 0x09DF), (0x09F0, 0x09F1), (0x0A95, 0x0AA8), (0x0AAA, 0x0AB0),
   (0x0AB2, 0x0AB3), (0x0AB5, 0x0AB9), (0x0AF9, 0x0AF9), (0x0B15, 0x0B28),
   (0x0B2A, 0x0B30), (0x0B32, 0x0B33), (0x0B35, 0x0B39), (0x0B5C, 0x0B5D),
   (0x0B5F, 0x0B5F), (0x0B71, 0x0B71), (0x0C15, 0x0C28), (0x0C2A, 0x0C39),
   (0x0C58, 0x0C5A), (0x0D15, 0x0D3A), (0x1000, 0x102A), (0x103F, 0x103F),
   (0x1050, 0x1055), (0x105A, 0x105D), (0x1061, 0x1061), (0x1065, 0x1066),
   (0x106E, 0x1070), (0x1075, 0x1081), (0x108E, 0x108E), (0x1780, 0x17B3),
   (0x1A20, 0x1A54), (0x1B0B, 0x1B0C), (0x1B13, 0x1B33), (0x1B45, 0x1B4C),
   (0x1B83, 0x1BA0), (0x1BAE, 0x1BAF), (0x1BBB, 0x1BBD), (0xA989, 0xA98B),
   (0xA98F, 0xA9B2), (0xA9E0, 0xA9E4), (0xA9E7, 0xA9EF), (0xA9FA, 0xA9FE),
   (0xAA60, 0xAA6F), (0xAA71, 0xAA73), (0xAA7A, 0xAA7A), (0xAA7E, 0xAA7F),
   (0xAAE0, 0xAAEA), (0xABC0, 0xABDA), (0x10A00, 0x10A00), (0x10A10, 0x10A13),
   (0x10A15, 0x10A17), (0x10A19, 0x10A35), (0x11103, 0x11126), (0x11144, 0x11144),
   (0x11147, 0x11147), (0x11380, 0x11389), (0x1138B, 0x1138B), (0x1138E, 0x1138E),
   (0x11390, 0x113B5), (0x11900, 0x11906), (0x11909, 0x11909), (0x1190C, 0x11913),
   (0x11915, 0x11916), (0x11918, 0x1192F), (0x11A00, 0x11A00), (0x11A0B, 0x11A32),
   (0x11A50, 0x11A50), (0x11A5C, 0x11A83), (0x11F04, 0x11F10), (0x11F12, 0x11F33)]

/-- Whether a character never shares a cluster; a line break is the one exception. -/
def isControl (c : Char) : Bool :=
  inRanges c.toNat controlRanges

/-- Whether a character is a mark of one cell that extends what stands before it. -/
def isExtend (c : Char) : Bool :=
  inRanges c.toNat extendRanges

/-- Whether a character is a mark that belongs to what stands before it. -/
def isSpacingMark (c : Char) : Bool :=
  inRanges c.toNat spacingMarkRanges

/-- Whether a character is a sign that belongs to what stands behind it. -/
def isPrepended (c : Char) : Bool :=
  inRanges c.toNat prependedRanges

/-- Whether a character is one of the letters that make a flag in pairs. -/
def isRegional (c : Char) : Bool :=
  inRanges c.toNat [(0x1F1E6, 0x1F1FF)]

/-- Whether a character is one of the vowel signs that join to each other. -/
def isVowelSign (c : Char) : Bool :=
  inRanges c.toNat [(0x16D63, 0x16D63), (0x16D67, 0x16D6A)]

/-- Whether a character is a consonant that can make up a conjunct with another. -/
def isConsonant (c : Char) : Bool :=
  inRanges c.toNat consonantRanges

/-- Whether a character is a sign of one cell that links a consonant to the next one. -/
def isLinker (c : Char) : Bool :=
  c.toNat = 0x1B44 || c.toNat = 0xA9C0 || c.toNat = 0x113D0

/-- A sign that links consonants extends what it stands behind. -/
theorem isExtend_of_isLinker
    (c : Char)
    (h : isLinker c = true) :
    isExtend c = true := by
  rcases (by simpa [isLinker, or_assoc] using h :
    c.toNat = 0x1B44 ∨ c.toNat = 0xA9C0 ∨ c.toNat = 0x113D0) with h | h | h <;>
    rw [isExtend, h] <;> rfl

end Text
end LiveForms
