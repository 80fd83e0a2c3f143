import BracketCall.CommandLine
import BracketCall.Document.Yaml

/-!
# The program

Reads what a command asks for, carries it out, and writes what it wrote.
-/

namespace BracketCall
namespace CommandLine

/-- How to call the program. -/
def usage : String :=
  "usage: run FILE [-c FILE] [--var NAME=VALUE ...] [-v]\n" ++
  "       tokens FILE [--raw]\n" ++
  "       ast FILE\n"

/-- The number by which the system says that a path leads to a directory. -/
def directoryCode : UInt32 := 21

/-- The number by which the system says that a name is too long, as it is when a file is looked up. -/
def nameTooLongCode : UInt32 := -36

/-- What a path leads to.  A path through a file leads nowhere. -/
def entryAt (path : Path) : IO (Except LookupError Entry) := do
  try
    let bytes ← IO.FS.readBinFile path.text
    return .ok (.file bytes.toList)
  catch e =>
    match e with
    | .noFileOrDirectory _ _ _ => return .error .missing
    | .inappropriateType _ code _ =>
        return if code = directoryCode then .ok .directory else .error .missing
    | .invalidArgument _ code _ =>
        if code = nameTooLongCode then return .error .nameTooLong else throw e
    | _ => throw e

/-- Carries out a request on the files of the system. -/
def perform (request : Request) : IO Outcome := do
  let entries ← request.paths.mapM fun path => do
    let entry ← entryAt path
    return (path, entry)
  return request.perform Yaml.read fun path => (entries.lookup path).getD (.error .missing)

/-- The longest time, in milliseconds, that the system waits at once. -/
def longestSleep : Nat := 0xFFFFFFFF

/-- Waits for a number of milliseconds. -/
def wait (milliseconds : Nat) : IO Unit := do
  for _ in [0 : milliseconds / longestSleep] do
    IO.sleep longestSleep.toUInt32
  IO.sleep (milliseconds % longestSleep).toUInt32

/-- Writes what a command wrote and gives its exit code.  A command that never ends gives none. -/
def report (outcome : Outcome) : IO UInt32 := do
  wait outcome.waited
  IO.print outcome.out
  IO.eprint outcome.err
  match outcome.ending with
  | .code n => return n.toUInt32
  | .escape e =>
      IO.eprintln e.message
      return 1
  | .never =>
      repeat wait longestSleep
      return 1

end CommandLine
end BracketCall

open BracketCall.CommandLine in
/-- The program, with its arguments. -/
def main (args : List String) : IO UInt32 := do
  match request args with
  | .ok asked => report (← perform asked)
  | .error .help =>
      IO.print usage
      return Stop.help.code.toUInt32
  | .error .wrong =>
      IO.eprint usage
      return Stop.wrong.code.toUInt32
