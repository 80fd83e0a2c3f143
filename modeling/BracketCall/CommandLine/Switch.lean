import BracketCall.Text.DecimalDigit

/-!
# Switches

**Input.**  The arguments of a command and the switches that it knows.

**Rules.**  A switch has a short name (`-c`), a long name (`--config`) or both.  It may stand anywhere
before a `--`; everything after that is no switch.  A value follows as the next argument, after `=`,
or directly after a short name.  Short names without a value may share one dash, and a `=` may stand
after the first of them.  A long name may be shortened as long as only one name begins so.  A value
that is attached and reads `--` counts as no text.  An argument that begins with a dash is no switch if it
reads as a negative number, holds a space, or is a dash alone.

**Result.**  What the arguments say, in order, or how to stop: with the help text, or because the
arguments are wrong.
-/

namespace BracketCall
namespace CommandLine

inductive Switch where
  | help
  | config
  | assign
  | verbose
  | raw
deriving DecidableEq

/-- Whether a switch has a value. -/
def Switch.takesValue : Switch → Bool
  | config => true
  | assign => true
  | _ => false

/-- Why arguments are not acted on. -/
inductive Stop where
  | help
  | wrong
deriving DecidableEq

/-- The exit code of a command that is not acted on. -/
def Stop.code : Stop → Nat
  | help => 0
  | wrong => 2

/-- An argument, by its form.  A switch may have a text attached to its name. -/
inductive Arg where
  | switch (switch : Switch) (short : Bool) (attached : Option (List Char))
  | unknown
  | plain (text : String)
  | ending

/-- The names of switches. -/
abbrev Known := List (String × Switch)

/-- Whether an argument reads as a negative number. -/
def isNegativeNumber (cs : List Char) : Bool :=
  let isDigit (c : Char) : Bool := (Text.digitValue? c).isSome
  let body := if cs.getLast? = some '\n' then cs.dropLast else cs
  match body with
  | '-' :: rest =>
      match rest.dropWhile isDigit with
      | [] => rest ≠ []
      | '.' :: fraction => fraction ≠ [] && fraction.all isDigit
      | _ => false
  | _ => false

/-- A text before and after its first `=`. -/
def splitAtEquals (cs : List Char) : List Char × Option (List Char) :=
  match cs.dropWhile (· ≠ '=') with
  | [] => (cs, none)
  | _ :: after => (cs.takeWhile (· ≠ '='), some after)

/-- The switches that an argument may name in a shortened form, or with a value behind it. -/
def candidates (known : Known) (cs : List Char) : List Arg :=
  match cs with
  | '-' :: '-' :: _ =>
      let (start, after) := splitAtEquals cs
      (known.filter fun (name, _) => start.isPrefixOf name.toList).map fun (_, s) =>
        .switch s false after
  | _ =>
      (known.filter fun (name, _) => name.toList = cs.take 2).map fun (_, s) =>
        .switch s true (some (cs.drop 2))

/-- Whether a name has one dash. -/
def isShort (name : List Char) : Bool :=
  name.length = 2

/-- The form of an argument; there is none if it is short for several switches. -/
def classify (known : Known) (text : String) : Option Arg :=
  let cs := text.toList
  if cs.head? ≠ some '-' then some (.plain text)
  else
    match known.lookup text with
    | some s => some (.switch s (isShort cs) none)
    | none =>
        if cs = ['-'] then some (.plain text)
        else
          let exact :=
            match splitAtEquals cs with
            | (name, some value) =>
                (known.lookup (String.ofList name)).map fun s =>
                  Arg.switch s (isShort name) (some value)
            | (_, none) => none
          match exact, candidates known cs with
          | some arg, _ => some arg
          | none, [arg] => some arg
          | none, [] =>
              if isNegativeNumber cs || cs.contains ' ' then some (.plain text) else some .unknown
          | none, _ => none

/-- The forms of arguments; after `--` there are no switches. -/
def classifyAll (known : Known) : List String → Option (List Arg)
  | [] => some []
  | text :: texts =>
      if text = "--" then some (.ending :: texts.map .plain)
      else do
        let arg ← classify known text
        let args ← classifyAll known texts
        return arg :: args

/-- The value of a switch. -/
inductive Operand where
  | text (s : String)
  /-- A `--` was attached, which is no text. -/
  | noText
  /-- The value is the next argument. -/
  | next
deriving DecidableEq

/-- The value that is attached to a switch. -/
def Operand.ofAttached (text : List Char) : Operand :=
  if text = ['-', '-'] then noText else .text (String.ofList text)

/-- What one argument says: switches without a value, and then perhaps one with a value. -/
structure Reading where
  flags : List Switch := []
  valued : Option (Switch × Operand) := none

/-- A switch with nothing attached to it. -/
def Reading.alone (s : Switch) : Reading :=
  if s.takesValue then { valued := some (s, .next) } else { flags := [s] }

/-- A switch with a text behind its name.  A short switch without a value shares its dash with the
next one, which must be known. -/
def readAttached (known : Known) (s : Switch) (short : Bool) : List Char → Except Stop Reading
  | [] => if s.takesValue then .ok { valued := some (s, .text "") } else .error .wrong
  | c :: rest =>
      if s.takesValue then .ok { valued := some (s, .ofAttached (c :: rest)) }
      else if short then
        match known.lookup (String.ofList ['-', c]) with
        | none => .error .wrong
        | some t =>
            let later := if rest.isEmpty then .ok (.alone t) else readAttached known t true rest
            later.map fun r => { r with flags := s :: r.flags }
      else .error .wrong

/-- What one switch says. -/
def readSwitch (known : Known) (s : Switch) (short : Bool) :
    Option (List Char) → Except Stop Reading
  | some text => readAttached known s short text
  | none => .ok (.alone s)

end CommandLine
end BracketCall
