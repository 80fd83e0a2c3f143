import BracketCall.Text.Quoted
import BracketCall.Tree

/-!
# Printing trees

A visitor gives an answer for the nodes of some shapes and refuses the others.

A tree is shown in two forms.  The outline has one line for each node, indented by two spaces for
each level; texts are quoted, so a line break in a text does not break its line.  The one-line form
names every field of every node.
-/

namespace BracketCall

/-! ## Visitors -/

/-- For each shape, what to do with a node of it, if anything. -/
structure Visitor (α : Type) where
  on : Shape → Option (Tree → α)

namespace Visitor

/-- The answer for a node, or its shape if the visitor does not know it. -/
def visit {α : Type} (v : Visitor α) (node : Tree) : Except Shape α :=
  match v.on node.shape with
  | some f => .ok (f node)
  | none => .error node.shape

/-- Why a shape is refused. -/
def refusal (shape : Shape) : String :=
  "No visitor for " ++ shape.label

end Visitor

/-! ## Outlines and one-line forms -/

namespace Tree

/-- The line of a node, without its children; `quote` shows a text. -/
def titleBy (quote : String → String) : Tree → String
  | program _ => Shape.program.label
  | call name _ => Shape.call.label ++ " " ++ quote name
  | reference name => Shape.reference.label ++ " " ++ quote name
  | word text => Shape.word.label ++ " " ++ quote text
  | literal text => Shape.literal.label ++ " " ++ quote text

/-- The spaces before a line; a level below zero has none. -/
def margin (level : Int) : String :=
  String.ofList (List.replicate (2 * level.toNat) ' ')

mutual

/-- The lines of a tree whose root is at the given level; `quote` shows a text. -/
def linesBy (quote : String → String) (level : Int) : Tree → List String
  | program statements =>
      (margin level ++ titleBy quote (program statements))
        :: linesAllBy quote (level + 1) statements
  | call name arguments =>
      (margin level ++ titleBy quote (call name arguments))
        :: linesAllBy quote (level + 1) arguments
  | leaf => [margin level ++ leaf.titleBy quote]

/-- The lines of a row of trees at one level. -/
def linesAllBy (quote : String → String) (level : Int) : List Tree → List String
  | [] => []
  | t :: ts => linesBy quote level t ++ linesAllBy quote level ts

end

/-- The outline of a tree; `quote` shows a text. -/
def outlineBy (quote : String → String) (t : Tree) : String :=
  "\n".intercalate (t.linesBy quote 0)

/-- The lines of a tree whose root is at the given level. -/
def lines (level : Int) (t : Tree) : List String :=
  t.linesBy Text.quoted level

/-- The outline of a tree. -/
def outline (t : Tree) : String :=
  t.outlineBy Text.quoted

/-- Items between parentheses; a single item is followed by a comma. -/
def parenthesised : List String → String
  | [] => "()"
  | [item] => "(" ++ item ++ ",)"
  | items => "(" ++ ", ".intercalate items ++ ")"

mutual

/-- A tree on one line, with the names of its fields. -/
def inline : Tree → String
  | program statements =>
      Shape.program.label ++ "(statements=" ++ parenthesised (inlineAll statements) ++ ")"
  | call name arguments =>
      Shape.call.label ++ "(name=" ++ Text.quoted name ++ ", args="
        ++ parenthesised (inlineAll arguments) ++ ")"
  | reference name => Shape.reference.label ++ "(name=" ++ Text.quoted name ++ ")"
  | word text => Shape.word.label ++ "(text=" ++ Text.quoted text ++ ")"
  | literal text => Shape.literal.label ++ "(text=" ++ Text.quoted text ++ ")"

/-- Each tree of a row on one line. -/
def inlineAll : List Tree → List String
  | [] => []
  | t :: ts => inline t :: inlineAll ts

end

end Tree
end BracketCall
