import BracketCall.Bindings

/-!
# Runs

**Input.**  A program, bindings, and the host's natives: what the code of a function does with its
arguments, the bindings and the host's own state.  A native may raise an error, may change the
bindings, and may never end; the run does not go on then.

**Algorithm.**  The calls at the top of the program are made in order; all else at the top has no
effect.  A call first looks up its function, then evaluates its arguments from left to right, each
one finished before the next begins, and then invokes the function that it looked up.  A literal is
coerced, a nested call is made and its result coerced, and a reference gives the value that its
variable has at this moment.  No other node can be an argument.

A run keeps the list of its invocations, also of one that raises.
-/

namespace BracketCall

/-- The invocation of a native. -/
structure Invocation (κ : Type) where
  name : String
  code : κ
  arguments : List Dynamic

/-- What natives may read and change. -/
structure World (κ σ : Type) where
  bindings : Bindings κ
  host : σ

/-- What each code does: a result or a failure, and in both cases the world after it.  Of a native that
never ends, this is the world in which it stays. -/
abbrev Natives (κ σ : Type) :=
  κ → List Dynamic → World κ σ → Except Failure Value × World κ σ

/-- The state of a run: the world, and the invocations so far. -/
structure Machine (κ σ : Type) where
  world : World κ σ
  trace : List (Invocation κ) := []

namespace Machine

variable {κ σ : Type}

/-- Invokes a native and notes the invocation. -/
def invoke (natives : Natives κ σ) (call : Invocation κ) (m : Machine κ σ) :
    Except Failure Value × Machine κ σ :=
  let (result, world) := natives call.code call.arguments m.world
  (result, { world := world, trace := m.trace ++ [call] })

mutual

/-- Evaluates an argument. -/
def argument (natives : Natives κ σ) : Tree → Machine κ σ → Except Failure Dynamic × Machine κ σ
  | .literal text, m => (.ok (Dynamic.coerce (.text text)), m)
  | .call name args, m =>
      match m.world.bindings.function? name with
      | none => (.error (.fault (.undefinedFunction name)), m)
      | some code =>
          match arguments natives args m with
          | (.error e, m') => (.error e, m')
          | (.ok values, m') =>
              match m'.invoke natives { name := name, code := code, arguments := values } with
              | (.error e, m'') => (.error e, m'')
              | (.ok result, m'') => (.ok (Dynamic.coerce result), m'')
  | .reference name, m =>
      match m.world.bindings.value? name with
      | none => (.error (.fault (.undefinedVariable name)), m)
      | some value => (.ok value, m)
  | node, m => (.error (.fault (.unsupportedArgument node)), m)

/-- Evaluates arguments from left to right. -/
def arguments (natives : Natives κ σ) :
    List Tree → Machine κ σ → Except Failure (List Dynamic) × Machine κ σ
  | [], m => (.ok [], m)
  | t :: ts, m =>
      match argument natives t m with
      | (.error e, m') => (.error e, m')
      | (.ok value, m') =>
          match arguments natives ts m' with
          | (.error e, m'') => (.error e, m'')
          | (.ok values, m'') => (.ok (value :: values), m'')

end

/-- Makes a call and gives the native's result as it is. -/
def call (natives : Natives κ σ) (name : String) (args : List Tree) (m : Machine κ σ) :
    Except Failure Value × Machine κ σ :=
  match m.world.bindings.function? name with
  | none => (.error (.fault (.undefinedFunction name)), m)
  | some code =>
      match arguments natives args m with
      | (.error e, m') => (.error e, m')
      | (.ok values, m') =>
          m'.invoke natives { name := name, code := code, arguments := values }

/-- Makes the calls among the statements, in order. -/
def statements (natives : Natives κ σ) :
    List Tree → Machine κ σ → Except Failure Unit × Machine κ σ
  | [], m => (.ok (), m)
  | .call name args :: rest, m =>
      match call natives name args m with
      | (.error e, m') => (.error e, m')
      | (.ok _, m') => statements natives rest m'
  | _ :: rest, m => statements natives rest m

/-- Runs a program. -/
def interpret (natives : Natives κ σ) (program : Tree) (m : Machine κ σ) :
    Except Failure Unit × Machine κ σ :=
  match program with
  | .program body => statements natives body m
  | node => (.error (.host (.notProgram node.shape)), m)

end Machine
end BracketCall
