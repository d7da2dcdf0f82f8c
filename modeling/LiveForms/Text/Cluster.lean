import LiveForms.Text.Property

/-!
# Live forms: clusters of characters

A reader takes some sequences of characters for one: a letter with the signs written
behind it, a sign that stands before the letter it belongs to, consonants that are linked
to a conjunct, the two letters of a flag, and a carriage return with its line feed. Such a
sequence is a *cluster*. A text is cut into clusters by the properties of neighbouring
characters, with the boundary rules for extended grapheme clusters of the Unicode standard.

Two of the rules look further back than one character. The letters of a run of letters
make flags two by two, and a consonant joins to an earlier one only if one of the marks
between them links consonants. An `Ending` keeps what these two rules need to know.

Every character counts for one screen cell. Those that take two cells or none are not told
apart.

Main definitions:

* `Text.Ending`: what the end of a text asks of the character behind it.
* `Text.joins`: whether there is no boundary between two characters.
* `Text.clusters`: the clusters of a text.
* `Text.cells`: how many screen cells a cluster takes.

Main statements:

* `Text.flatten_clusters`: the clusters of a text make up the text.
-/

namespace LiveForms
namespace Text

/-- What the end of a text asks of the character behind it. -/
inductive Ending where
  /-- The end asks nothing. -/
  | plain
  /-- The last character is the first letter of a flag. -/
  | flag
  /-- Only marks follow the last consonant, and none of them links consonants. -/
  | consonant
  /-- Only marks follow the last consonant, and one of them links consonants. -/
  | linked
deriving DecidableEq, Repr

/-- The ending of a text to which a character is added. -/
def Ending.push (ending : Ending) (c : Char) : Ending :=
  if isRegional c then
    if ending = .flag then .plain else .flag
  else if isConsonant c then
    .consonant
  else if (ending = .consonant || ending = .linked) && isExtend c then
    if isLinker c then .linked else ending
  else
    .plain

/--
Whether there is no boundary between two characters, the first of which is the last one of
a text with the given ending.
-/
def joins (ending : Ending) (first second : Char) : Bool :=
  if first = '\r' && second = '\n' then
    true
  else if isControl first || isControl second then
    false
  else
    isExtend second || isSpacingMark second || isPrepended first
      || (isVowelSign first && isVowelSign second)
      || (ending = .linked && isConsonant second)
      || (ending = .flag && isRegional second)

/--
The clusters of a text behind a cluster that has been begun. `last` is its last
character, `before` holds those before it, last first, and `ending` is its ending.
-/
def clustersFrom (ending : Ending) (before : List Char) (last : Char) :
    List Char → List (List Char)
  | [] => [(last :: before).reverse]
  | c :: cs =>
      if joins ending last c then
        clustersFrom (ending.push c) (last :: before) c cs
      else
        (last :: before).reverse :: clustersFrom (ending.push c) [] c cs

/-- The clusters of a text. -/
def clusters : List Char → List (List Char)
  | [] => []
  | c :: cs => clustersFrom (Ending.plain.push c) [] c cs

/--
How many cells a cluster takes: one for each character, but none for a line feed, and
one for a carriage return with its line feed.
-/
def cells (cluster : List Char) : Nat :=
  if cluster = ['\n'] then 0 else if cluster = ['\r', '\n'] then 1 else cluster.length

/-- The clusters behind a begun cluster make up that cluster and the text. -/
theorem flatten_clustersFrom
    (ending : Ending)
    (before : List Char)
    (last : Char)
    (cs : List Char) :
    (clustersFrom ending before last cs).flatten = before.reverse ++ last :: cs := by
  induction cs generalizing ending before last with
  | nil =>
      simp [clustersFrom]
  | cons c cs ih =>
      rw [clustersFrom]
      split
      · rw [ih]
        simp
      · rw [List.flatten_cons, ih]
        simp

/-- The clusters of a text make up the text. -/
theorem flatten_clusters
    (cs : List Char) :
    (clusters cs).flatten = cs := by
  cases cs with
  | nil =>
      rfl
  | cons c cs =>
      exact flatten_clustersFrom (Ending.plain.push c) [] c cs

end Text
end LiveForms
