import BracketCall.Document.Yaml.Node
import BracketCall.Document.Yaml.Scalar
import BracketCall.Settings.File

/-!
# A reader of YAML documents

The reader that the program hands to `Settings.load`.  It knows block and flow collections, plain and
quoted scalars on one line, comments and merges; tags, anchors, block scalars, timestamps and sets are
beyond it.

The value of a document: scalars by their meaning, sequences as lists, mappings as mappings.  If a
key is repeated, its last value stands at the key's first place.  The key `<<` takes over the entries
of a mapping, or of each mapping of a sequence, before the entries that stand beside it.

A document is read from the top, level by level: the entries of every collection of one depth come
before anything that lies deeper.  Of several errors the first one in this order is told.
-/

namespace BracketCall
namespace Yaml

/-- Why a text is no document. -/
inductive Error where
  | malformed
  | numeralTooLong (digits : Nat)
  | noDigits (base : Nat)
  | noCharacter (code : Nat)
deriving DecidableEq

/-- The error of an obstacle. -/
def Error.ofObstacle : Obstacle → Error
  | .malformed => malformed
  | .noCharacter code => noCharacter code

namespace Node

/-- Whether a node is the key of a merge. -/
def isMerge : Node → Bool
  | .scalar true text => text = "<<"
  | _ => false

/-- The entries of a mapping after its merges are carried out.  The mappings of a sequence are taken
over from the last to the first. -/
def flatten : (fuel : Nat) → List (Node × Node) → Option (List (Node × Node))
  | 0, _ => none
  | fuel + 1, entries => do
      let merged ← (entries.filter fun e => e.1.isMerge).mapM fun e =>
        match e.2 with
        | .mapping inner => flatten fuel inner
        | .sequence items => do
            let inner ← items.mapM fun item =>
              match item with
              | .mapping inner => flatten fuel inner
              | _ => none
            return inner.reverse.flatten
        | _ => none
      return merged.flatten ++ entries.filter fun e => !e.1.isMerge

mutual

/-- The number of nodes below a node, and itself. -/
def size : Node → Nat
  | .scalar _ _ => 1
  | .sequence items => 1 + sizeItems items
  | .mapping entries => 1 + sizeEntries entries

def sizeItems : List Node → Nat
  | [] => 0
  | n :: ns => n.size + sizeItems ns

def sizeEntries : List (Node × Node) → Nat
  | [] => 0
  | (k, v) :: es => k.size + v.size + sizeEntries es

end

/-- The value of a scalar. -/
def scalarValue (plain : Bool) (text : String) : Except Error Value :=
  if plain then
    match Scalar.meaning text with
    | .value v => .ok v
    | .merge => .error .malformed
    | .default => .error .malformed
    | .noDigits base => .error (.noDigits base)
    | .tooLong digits => .error (.numeralTooLong digits)
  else .ok (.text text)

/-- The value of a key; `=` is its own text here. -/
def keyScalar (plain : Bool) (text : String) : Except Error Value :=
  if plain ∧ text = "=" then .ok (.text text) else scalarValue plain text

/-- The value of a key, which must be a scalar: collections are no keys. -/
def keyValue : Node → Except Error Value
  | .scalar plain text => keyScalar plain text
  | _ => .error .malformed

/-- The entries of a mapping after its merges, or an error if a merge cannot be carried out. -/
def merged (entries : List (Node × Node)) : Except Error (List (Node × Node)) :=
  match flatten (sizeEntries entries + 1) entries with
  | some entries => .ok entries
  | none => .error .malformed

/-! ## Errors in order -/

/-- A node inside a collection: a scalar is read at once, and a collection is left for later. -/
def postpone : Node → Except Error (List Node)
  | .scalar plain text => (scalarValue plain text).map fun _ => []
  | node => .ok [node]

/-- The nodes inside a collection that are left for later. -/
def inner : Node → Except Error (List Node)
  | .scalar plain text => postpone (.scalar plain text)
  | .sequence items => do
      let later ← items.mapM postpone
      return later.flatten
  | .mapping entries => do
      let entries ← merged entries
      let later ← entries.mapM fun (k, v) => do
        let _ ← keyValue k
        postpone v
      return later.flatten

/-- Reads nodes of one depth, and then what lies inside them. -/
def check : (fuel : Nat) → List Node → Except Error Unit
  | 0, _ => .ok ()
  | _, [] => .ok ()
  | fuel + 1, nodes => do
      let later ← nodes.mapM inner
      check fuel later.flatten

/-! ## Values -/

/-- The value of a node. -/
def value : (fuel : Nat) → Node → Except Error Value
  | 0, _ => .error .malformed
  | _, .scalar plain text => scalarValue plain text
  | fuel + 1, .sequence items => do
      let values ← items.mapM (value fuel)
      return .list values
  | fuel + 1, .mapping entries => do
      let entries ← merged entries
      let pairs ← entries.mapM fun (k, v) => do
        let key ← keyValue k
        let v ← value fuel v
        return (key, v)
      return Value.ofEntries pairs

end Node

/-- The value of a document; a text without a document has the value of nothing. -/
def parse (cs : List Char) : Except Error Value :=
  match tokens? cs with
  | none => .error .malformed
  | some tokens =>
      match Node.ofTokens tokens with
      | .error o => .error (.ofObstacle o)
      | .ok none => .ok .none
      | .ok (some node) => do
          Node.check (node.size + 1) [node]
          node.value (node.size + 1)

/-- Whether a number is too large to be asked for its character. -/
def isOversized (code : Nat) : Bool :=
  0x7FFFFFFF < code

/-- An error as a reader of documents tells it. -/
def Error.toDocumentError : Error → DocumentError
  | malformed => .malformed
  | numeralTooLong digits => .refused (HostError.numeralTooLong digits).message
  | noDigits base => .refused ("invalid literal for int() with base " ++ toString base ++ ": ''")
  | noCharacter code =>
      if isOversized code then
        .unexpected "OverflowError" "Python int too large to convert to C int"
      else .refused "chr() arg not in range(0x110000)"

/-- Reads the bytes of a document, which come in pieces. -/
def read : DocumentReader := fun bytes =>
  match Utf8.decode bytes with
  | .error e => .error (.encoding (e.inPieces bytes))
  | .ok cs => (parse cs).mapError Error.toDocumentError

end Yaml
end BracketCall
