/-!
# Program trees

A program is a row of statements.  A statement is a call `[[name|argument|...]]`, a reference
`[[name]]`, a literal (text directly after a `|`) or a word (any other text).  A name followed by a
separator is a call even if no argument follows.

The type also has trees that no source gives, such as a program below another node: a host may
build those and hand them to the printer or to a run.
-/

namespace BracketCall

inductive Tree where
  | program (statements : List Tree)
  | call (name : String) (arguments : List Tree)
  | reference (name : String)
  | word (text : String)
  | literal (text : String)

/-- The five shapes of a node. -/
inductive Shape where
  | program
  | call
  | reference
  | word
  | literal
deriving DecidableEq

namespace Shape

/-- The name under which a node of this shape is shown. -/
def label : Shape → String
  | program => "Program"
  | call => "Function"
  | reference => "Block"
  | word => "Identifier"
  | literal => "Value"

end Shape

namespace Tree

/-- The shape of a node. -/
def shape : Tree → Shape
  | program _ => .program
  | call _ _ => .call
  | reference _ => .reference
  | word _ => .word
  | literal _ => .literal

/-- The statements or arguments of a node. -/
def children : Tree → List Tree
  | program statements => statements
  | call _ arguments => arguments
  | _ => []

mutual

/-- Whether two trees are equal, node by node. -/
def same : Tree → Tree → Bool
  | program xs, program ys => sameAll xs ys
  | call f xs, call g ys => f == g && sameAll xs ys
  | reference f, reference g => f == g
  | word s, word t => s == t
  | literal s, literal t => s == t
  | _, _ => false

/-- Whether two rows of trees are equal, tree by tree. -/
def sameAll : List Tree → List Tree → Bool
  | [], [] => true
  | x :: xs, y :: ys => same x y && sameAll xs ys
  | _, _ => false

end

mutual

theorem same_iff : ∀ a b : Tree, same a b = true ↔ a = b
  | program xs, b => by
      cases b <;> simp [same, sameAll_iff xs]
  | call f xs, b => by
      cases b <;> simp [same, sameAll_iff xs]
  | reference f, b => by
      cases b <;> simp [same]
  | word s, b => by
      cases b <;> simp [same]
  | literal s, b => by
      cases b <;> simp [same]

theorem sameAll_iff : ∀ as bs : List Tree, sameAll as bs = true ↔ as = bs
  | [], bs => by
      cases bs <;> simp [sameAll]
  | a :: as, bs => by
      cases bs <;> simp [sameAll, same_iff a, sameAll_iff as]

end

instance : DecidableEq Tree :=
  fun a b => decidable_of_iff (same a b = true) (same_iff a b)

end Tree
end BracketCall
