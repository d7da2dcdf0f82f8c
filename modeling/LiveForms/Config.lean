import LiveForms.Formula.Markup
import LiveForms.Toml.Reader

/-!
# Live forms: configuration

A configuration file holds TOML with two tables: `markup`, the names that tie a page to
its behaviour, and `log`, where messages are logged. Everything in it is optional and
unknown keys are ignored. A table may also be given as an array of the values of its
keys, in the order of the fields of `Markup` and `LogSettings`. A date or a time stands
for a table without any of these keys.

At most one file is read: the one that is named explicitly, else the one that the
environment names, else the file of the user. Only the first of these has to exist.

Main definitions:

* `Config`, `Config.ofText`: the settings, and those of a text.
* `Config.load`: the settings of the file that is read.
* `Config.logPath`: where messages are logged.
-/

namespace LiveForms

/-- Why there is no configuration. -/
inductive ConfigError where
  | missing
  /-- The file is not text in UTF-8. -/
  | notText
  /-- The text is not TOML, or a setting is not of the right kind. -/
  | malformed
deriving DecidableEq, Repr

/-- Where messages are logged, and which. -/
structure LogSettings where
  level : String := "warn"
  file : Option String := none
deriving DecidableEq, Repr, Inhabited

/-- All settings. -/
structure Config where
  markup : Markup := {}
  log : LogSettings := {}
deriving DecidableEq, Repr, Inhabited

namespace Config

open Toml (Item)

/-- The text of a string. -/
def asText? : Item → Option String
  | .text value => some value
  | _ => none

/-- The values of the keys `names` in a table, in their order; `none` for a missing one. -/
def fields? (names : List String) : Item → Option (List (Option Item))
  | .table _ _ entries => some (names.map fun name => entries.lookup name)
  | .inline _ entries => some (names.map fun name => entries.lookup name)
  | .array items => some (names.zipIdx.map fun (_, index) => items[index]?)
  | .tables elements =>
      some (names.zipIdx.map fun (_, index) => elements[index]?.map (.table false false))
  | .dateTime => some (names.map fun _ => none)
  | _ => none

/-- The text of a field, or `default` if it is missing. -/
def textOr? (default : String) : Option Item → Option String
  | none => some default
  | some item => asText? item

/-- The keys of `markup`. -/
def markupKeys : List String :=
  ["formula_tag", "evaluator_attr", "gpa_marker", "gpa_container_id", "row_class",
   "grade_class", "credit_class", "add_class", "remove_class", "invalid_class"]

/-- The markup names of an item. -/
def markupOf? (item : Item) : Option Markup := do
  let names : Markup := {}
  match ← fields? markupKeys item with
  | [formulaTag, evaluatorAttr, gpaMarker, gpaContainerId, rowClass, gradeClass,
      creditClass, addClass, removeClass, invalidClass] =>
      return {
        formulaTag := ← textOr? names.formulaTag formulaTag
        evaluatorAttr := ← textOr? names.evaluatorAttr evaluatorAttr
        gpaMarker := ← textOr? names.gpaMarker gpaMarker
        gpaContainerId := ← textOr? names.gpaContainerId gpaContainerId
        rowClass := ← textOr? names.rowClass rowClass
        gradeClass := ← textOr? names.gradeClass gradeClass
        creditClass := ← textOr? names.creditClass creditClass
        addClass := ← textOr? names.addClass addClass
        removeClass := ← textOr? names.removeClass removeClass
        invalidClass := ← textOr? names.invalidClass invalidClass
      }
  | _ => none

/-- The log settings of an item. -/
def logOf? (item : Item) : Option LogSettings := do
  match ← fields? ["level", "file"] item with
  | [level, file] =>
      return {
        level := ← textOr? ({} : LogSettings).level level
        file := ← match file with
          | none => some none
          | some item => (asText? item).map some
      }
  | _ => none

/-- The settings of the entries of a document. -/
def ofEntries? (entries : List (String × Item)) : Option Config := do
  return {
    markup := ← match entries.lookup "markup" with
      | none => some {}
      | some item => markupOf? item
    log := ← match entries.lookup "log" with
      | none => some {}
      | some item => logOf? item
  }

/-- The settings of a text. -/
def ofText (text : String) : Except ConfigError Config :=
  match (Toml.read? text).bind ofEntries? with
  | some config => .ok config
  | none => .error .malformed

/-- The settings of a file with the given content. -/
def ofBytes (bytes : ByteArray) : Except ConfigError Config :=
  match String.fromUTF8? bytes with
  | some text => ofText text
  | none => .error .notText

/--
The settings of the file that is read. Each argument is a file that may be named, and
its content if it exists. A file that the environment names hides the file of the user
even if it does not exist.
-/
def load (explicit environment : Option (Option ByteArray)) (user : Option ByteArray) :
    Except ConfigError Config :=
  match explicit with
  | some (some bytes) => ofBytes bytes
  | some none => .error .missing
  | none =>
      match environment.getD user with
      | some bytes => ofBytes bytes
      | none => .ok {}

/-- Where messages are logged, given the directory for files that can be lost. -/
def logPath (config : Config) (cacheDirectory : String) : String :=
  config.log.file.getD (cacheDirectory ++ "/tforms/tforms.log")

end Config
end LiveForms
