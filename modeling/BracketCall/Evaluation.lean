import BracketCall.Run
import BracketCall.Token.Literal
import BracketCall.Tree.Parser

/-!
# Evaluating a source

A source is read to tokens, the tokens to a program, and the program is run.  The first fault of any
stage ends the evaluation.  The journal tells how far an evaluation came.
-/

namespace BracketCall

/-- Reads a source to a program. -/
def parseSource (literals : Bool) (source : String) : Except Fault Tree :=
  match tokenize literals source with
  | .error f => .error f
  | .ok tokens => parse tokens

namespace Machine

variable {κ σ : Type}

/-- Reads and runs a source. -/
def evaluate (natives : Natives κ σ) (literals : Bool) (source : String) (m : Machine κ σ) :
    Except Failure Unit × Machine κ σ :=
  match parseSource literals source with
  | .error f => (.error (.fault f), m)
  | .ok program => m.interpret natives program

end Machine

/-- A step that an evaluation took. -/
inductive Milestone where
  | lexed (tokens characters : Nat)
  | parsed (statements tokens : Nat)
  | interpreting (statements : Nat)
  | calling (name : String) (arguments : Nat)
deriving DecidableEq

namespace Milestone

/-- A step as the journal shows it. -/
def line : Milestone → String
  | lexed tokens characters =>
      "DEBUG danja.lexer: lexed " ++ toString tokens ++ " token(s) from "
        ++ toString characters ++ " character(s)"
  | parsed statements tokens =>
      "DEBUG danja.parser: parsed " ++ toString statements ++ " statement(s) from "
        ++ toString tokens ++ " token(s)"
  | interpreting statements =>
      "DEBUG danja.runtime.context: interpreting " ++ toString statements ++ " statement(s)"
  | calling name arguments =>
      "DEBUG danja.runtime.interpreter: calling " ++ name ++ " with " ++ toString arguments
        ++ " argument(s)"

end Milestone

/-- The steps that the evaluation of a source took, given the invocations of its run. -/
def journal {κ : Type} (literals : Bool) (source : String) (trace : List (Invocation κ)) :
    List Milestone :=
  match tokenize literals source with
  | .error _ => []
  | .ok tokens =>
      .lexed tokens.length source.length ::
        match parse tokens with
        | .error _ => []
        | .ok program =>
            .parsed program.children.length tokens.length
              :: .interpreting program.children.length
              :: trace.map fun call => .calling call.name call.arguments.length

end BracketCall
