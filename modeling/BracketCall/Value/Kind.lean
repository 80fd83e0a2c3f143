/-!
# Kinds of values

Every value that a native function receives is tagged with a kind, which says which of the typed
accessors may read it.
-/

namespace BracketCall

inductive Kind where
  | string
  | number
  | boolean
  | array
  | block
  | none
  | object
deriving DecidableEq

namespace Kind

/-- The name under which a kind is shown. -/
def label : Kind → String
  | string => "string"
  | number => "number"
  | boolean => "boolean"
  | array => "array"
  | block => "block"
  | none => "none"
  | object => "object"

end Kind
end BracketCall
