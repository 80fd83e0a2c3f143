import BracketCall.Document.Json
import BracketCall.Files
import BracketCall.Settings

/-!
# Settings files

Settings are kept in a file: a JSON document if its name ends in `.json`, and a YAML document
otherwise.  A YAML document that counts as false is an empty mapping.

How YAML is read is not decided here: a reader takes the bytes of a document and gives its value, or
tells why there is none.  The value may be anything that a host has.
-/

namespace BracketCall

/-- The form of a settings file. -/
inductive Format where
  | json
  | yaml
deriving DecidableEq

namespace Format

def label : Format → String
  | json => "JSON"
  | yaml => "YAML"

/-- The form of a file, by its name. -/
def ofPath (path : Path) : Format :=
  if path.hasSuffix ".json" then json else yaml

end Format

/-- Why a document has no value. -/
inductive DocumentError where
  | malformed
  /-- Its bytes are no text. -/
  | encoding (e : Utf8.Error)
  /-- Something in it has no value, as this message says. -/
  | refused (message : String)
  /-- Reading it ended with any other error of the host. -/
  | unexpected (type message : String)
deriving DecidableEq

/-- What reads the bytes of a document. -/
abbrev DocumentReader := List UInt8 → Except DocumentError Value

/-- Why a file gives no settings. -/
inductive SettingsFileError where
  | missing (path : Path)
  | unreadable (e : ReadError)
  | malformed (format : Format) (path : Path)
  | refused (message : String)
  | unexpected (type message : String)
  | notMapping (path : Path)
  | content (e : SettingsError)
deriving DecidableEq

namespace SettingsFileError

/-- The part of the message that names the trouble; of a malformed document no more is told. -/
def message : SettingsFileError → String
  | missing path => "config not found: " ++ path.text
  | unreadable e => e.message
  | malformed format path => "invalid " ++ format.label ++ " in " ++ path.text
  | refused message => message
  | unexpected _ message => message
  | notMapping path => "config must be a mapping: " ++ path.text
  | content e => e.message

/-- Whether a command reports the error.  It does not expect names that are no texts, nor an error of
another type while a document is read. -/
def isReported : SettingsFileError → Bool
  | content (.nameNotText _) => false
  | content (.namesNotComparable _ _) => false
  | unexpected _ _ => false
  | _ => true

end SettingsFileError

namespace Settings

/-- The value of a JSON document. -/
def readJson (path : Path) (entry : Entry) : Except SettingsFileError Value :=
  match entry.text path with
  | .error e => .error (.unreadable e)
  | .ok cs =>
      match Json.parse cs with
      | .ok v => .ok v
      | .error .malformed => .error (.malformed .json path)
      | .error (.numeralTooLong digits) =>
          .error (.refused (HostError.numeralTooLong digits).message)

/-- The value of a YAML document; one that counts as false is an empty mapping. -/
def readYaml (yaml : DocumentReader) (path : Path) (entry : Entry) :
    Except SettingsFileError Value :=
  match entry with
  | .directory => .error (.unreadable (.directory path))
  | .file bytes =>
      match yaml bytes with
      | .ok v => .ok (if v.isTruthy then v else .mapping [])
      | .error .malformed => .error (.malformed .yaml path)
      | .error (.encoding e) => .error (.unreadable (.encoding e))
      | .error (.refused message) => .error (.refused message)
      | .error (.unexpected type message) => .error (.unexpected type message)

/-- Reads the settings that a file holds; `look` tells what a path leads to. -/
def load (yaml : DocumentReader) (look : Path → Except LookupError Entry) (path : Path) :
    Except SettingsFileError Settings :=
  match look path with
  | .error .missing => .error (.missing path)
  | .error .nameTooLong => .error (.unreadable (.nameTooLong path))
  | .ok entry => do
      let data ←
        match Format.ofPath path with
        | .json => readJson path entry
        | .yaml => readYaml yaml path entry
      match data with
      | .mapping entries =>
          match Settings.ofEntries entries with
          | .ok s => .ok s
          | .error e => .error (.content e)
      | _ => .error (.notMapping path)

end Settings
end BracketCall
