import BracketCall.Assignment
import BracketCall.CommandLine.Switch
import BracketCall.Evaluation
import BracketCall.Natives
import BracketCall.Settings.File

/-!
# The command line

There are three commands.  `run FILE` evaluates a source with the standard natives, with settings
from a file (`-c`, `--config`) and variables from assignments (`--var NAME=VALUE`); `-v` tells the
steps of the run.  `tokens FILE` lists the tokens of a source, with `--raw` before literals are
marked.  `ast FILE` shows the outline of its program.

A command ends with an exit code and with what it wrote on its two channels.  An unreadable source
file, settings with a name that is no text and an assignment that is no text are not reported: those
errors escape.  A run may also come to a wait that never ends.

What the paths lead to and how a YAML document is read are given from outside.
-/

namespace BracketCall
namespace CommandLine

/-- What the arguments ask for.  An assignment may be no text. -/
inductive Request where
  | run (file : String) (config : Option String) (assignments : List (Option String))
      (verbose : Bool)
  | tokens (file : String) (raw : Bool)
  | tree (file : String)

/-! ## Arguments -/

/-- What the arguments of a command said so far. -/
structure Said where
  file : Option String := none
  config : Option String := none
  assignments : List (Option String) := []
  verbose : Bool := false
  raw : Bool := false
  /-- Whether there was an argument that nothing asked for. -/
  surplus : Bool := false

namespace Said

/-- Acts on switches without a value; help stops at once. -/
def flags : List Switch → Said → Except Stop Said
  | [], said => .ok said
  | .help :: _, _ => .error .help
  | .verbose :: rest, said => flags rest { said with verbose := true }
  | .raw :: rest, said => flags rest { said with raw := true }
  | _ :: rest, said => flags rest said

/-- Acts on a switch with a value, which may be no text. -/
def valued (s : Switch) (value : Option String) (said : Said) : Said :=
  match s with
  | .config => { said with config := value }
  | .assign => { said with assignments := said.assignments ++ [value] }
  | _ => said

/-- Acts on a plain argument.  The first one is the file. -/
def plain (text : String) (said : Said) : Said :=
  match said.file with
  | none => { said with file := some text }
  | some _ => { said with surplus := true }

/-- Reads arguments in order.  A switch with a value that is not attached takes the next argument,
which must be a plain one; `--` goes with the file beside it and is a surplus anywhere else. -/
def read (known : Known) : List Arg → Said → Except Stop Said
  | [], said => .ok said
  | .unknown :: rest, said => read known rest { said with surplus := true }
  | .switch s short attached :: rest, said => do
      let r ← readSwitch known s short attached
      match r.valued with
      | none =>
          let next ← flags r.flags said
          read known rest next
      | some (t, .text value) =>
          let next ← flags r.flags said
          read known rest (next.valued t value)
      | some (t, .noText) =>
          let next ← flags r.flags said
          read known rest (next.valued t none)
      | some (t, .next) =>
          match rest with
          | .plain value :: more =>
              let next ← flags r.flags said
              read known more (next.valued t value)
          | _ => .error .wrong
  | .plain text :: .ending :: rest, said => read known rest (said.plain text)
  | .plain text :: rest, said => read known rest (said.plain text)
  | .ending :: .plain text :: rest, said => read known rest (said.plain text)
  | .ending :: rest, said => read known rest { said with surplus := true }

end Said

/-- The switches of every command. -/
def helpSwitches : Known :=
  [("-h", .help), ("--help", .help)]

/-- The switches of `run`. -/
def runSwitches : Known :=
  helpSwitches ++ [("-c", .config), ("--config", .config), ("--var", .assign), ("-v", .verbose),
    ("--verbose", .verbose)]

/-- The switches of `tokens`. -/
def tokensSwitches : Known :=
  helpSwitches ++ [("--raw", .raw)]

/-- What the arguments of a command say, and the file that they must name. -/
def readCommand (known : Known) (args : List String) : Except Stop (String × Said) :=
  match classifyAll known args with
  | none => .error .wrong
  | some forms =>
      match Said.read known forms {} with
      | .error stop => .error stop
      | .ok said =>
          match said.file with
          | none => .error .wrong
          | some file => if said.surplus then .error .wrong else .ok (file, said)

/-- What a command and its arguments ask for. -/
def command (name : String) (args : List String) : Except Stop Request :=
  if name = "run" then
    (readCommand runSwitches args).map fun (file, said) =>
      .run file said.config said.assignments said.verbose
  else if name = "tokens" then
    (readCommand tokensSwitches args).map fun (file, said) => .tokens file said.raw
  else if name = "ast" then
    (readCommand helpSwitches args).map fun (file, _) => .tree file
  else .error .wrong

/-- What all arguments ask for.  Before the command only a switch for help is known; any other one
makes the arguments wrong, if the command does not stop for another reason. -/
def request : List String → Except Stop Request
  | [] => .error .wrong
  | text :: texts =>
      if text = "--" then .error .wrong
      else
        match classify helpSwitches text with
        | none => .error .wrong
        | some (.plain name) => command name texts
        | some (.switch s short attached) =>
            match readSwitch helpSwitches s short attached with
            | .error stop => .error stop
            | .ok _ => .error .help
        | some _ =>
            match request texts with
            | .error stop => .error stop
            | .ok _ => .error .wrong

/-! ## Commands -/

/-- An error that a command does not report. -/
inductive Escape where
  | reading (e : ReadError)
  | settings (e : SettingsFileError)
  /-- An assignment is no text. -/
  | assignment
  /-- The table refuses a variable. -/
  | binding (f : Fault)
deriving DecidableEq

namespace Escape

def message : Escape → String
  | reading e => e.message
  | settings e => e.message
  | assignment => "'list' object has no attribute 'partition'"
  | binding f => f.diagnostic.format

end Escape

/-- How a command ends. -/
inductive Ending where
  /-- With an exit code. -/
  | code (n : Nat)
  /-- With an error that it does not report. -/
  | escape (e : Escape)
  | never
deriving DecidableEq

/-- How a command ends, and what it writes. -/
structure Outcome where
  ending : Ending
  out : String := ""
  err : String := ""
  /-- How long the natives waited, in milliseconds. -/
  waited : Nat := 0

/-- A command that failed with a message. -/
def failed (message : String) : Outcome :=
  { ending := .code 1, err := message ++ "\n" }

/-- The text of a source file. -/
def readSource (look : Path → Except LookupError Entry) (file : String) : Except Outcome String :=
  let path := Path.ofString file
  match look path with
  | .error .missing => .error (failed ("Error: File not found: " ++ path.text))
  | .error .nameTooLong => .error { ending := .escape (.reading (.nameTooLong path)) }
  | .ok entry =>
      match entry.text path with
      | .ok cs => .ok (String.ofList cs)
      | .error e => .error { ending := .escape (.reading e) }

/-- The end of a command whose settings file is no good.  Of a malformed document nothing is told
after its name, not even a line end. -/
def settingsFailure (e : SettingsFileError) : Outcome :=
  if e.isReported then
    match e with
    | .malformed _ _ => { ending := .code 1, err := "Error: " ++ e.message }
    | _ => failed ("Error: " ++ e.message)
  else { ending := .escape (.settings e) }

/-- The settings with one more assignment. -/
def assign (settings : Settings) : Option String → Except Outcome Settings
  | none => .error { ending := .escape .assignment }
  | some text =>
      match Assignment.parse text with
      | .ok (name, value) => .ok (settings.setVariable name value)
      | .error e => .error (failed ("Error: " ++ e.message))

/-- The settings of a run: from a file, if one is named, and then from assignments in order. -/
def runSettings (yaml : DocumentReader) (look : Path → Except LookupError Entry)
    (config : Option String) (assignments : List (Option String)) : Except Outcome Settings := do
  let start ←
    match config with
    | none => .ok {}
    | some name =>
        if name = "" then .ok {}
        else
          match Settings.load yaml look (Path.ofString name) with
          | .ok s => .ok s
          | .error e => .error (settingsFailure e)
  assignments.foldlM assign start

/-- Registers variables in order, up to the first that is refused. -/
def defineAll {κ : Type} : List (String × Value) → Bindings κ → Except Fault (Bindings κ)
  | [], b => .ok b
  | (name, value) :: rest, b =>
      match b.defineVariable name value with
      | (.error f, _) => .error f
      | (.ok _, b') => defineAll rest b'

/-- The bindings of a run: the standard natives and the variables of its settings. -/
def runBindings (settings : Settings) : Except Fault (Bindings Standard) :=
  defineAll settings.assigned (Standard.register id {})

/-- The text of a failure.  Of a run that never ends nothing more is told. -/
def failureText : Failure → String
  | .fault f => f.diagnostic.format ++ "\n"
  | .host e => "Error: " ++ e.message ++ "\n"
  | .endless => ""

/-- How a command ends whose evaluation gave this result. -/
def endingOf : Except Failure Unit → Ending
  | .ok () => .code 0
  | .error .endless => .never
  | .error _ => .code 1

/-- Evaluates a source with the standard natives. -/
def runSource (settings : Settings) (verbose : Bool) (source : String) : Outcome :=
  match runBindings settings with
  | .error f => { ending := .escape (.binding f) }
  | .ok bindings =>
      let start : Machine Standard String := { world := { bindings := bindings, host := "" } }
      let (result, m) := start.evaluate Standard.natives settings.literals source
      let steps :=
        if verbose || settings.level.tellsSteps then
          String.join ((journal settings.literals source m.trace).map fun s => s.line ++ "\n")
        else ""
      let report :=
        match result with
        | .ok () => ""
        | .error e => failureText e
      { ending := endingOf result
        out := m.world.host
        err := steps ++ report
        waited := Standard.totalDelay m.trace }

/-- Carries out a request; `look` tells what a path leads to, and `yaml` reads a document. -/
def Request.perform (yaml : DocumentReader) (look : Path → Except LookupError Entry) :
    Request → Outcome
  | .run file config assignments verbose =>
      match runSettings yaml look config assignments with
      | .error outcome => outcome
      | .ok settings =>
          match readSource look file with
          | .error outcome => outcome
          | .ok source => runSource settings verbose source
  | .tokens file raw =>
      match readSource look file with
      | .error outcome => outcome
      | .ok source =>
          match tokenize (!raw) source with
          | .error f => failed f.diagnostic.format
          | .ok ts => { ending := .code 0, out := String.join (ts.map fun t => t.display ++ "\n") }
  | .tree file =>
      match readSource look file with
      | .error outcome => outcome
      | .ok source =>
          match parseSource true source with
          | .error f => failed f.diagnostic.format
          | .ok program => { ending := .code 0, out := program.outline ++ "\n" }

/-- The paths that a request may read. -/
def Request.paths : Request → List Path
  | .run file config _ _ => (config.toList ++ [file]).map Path.ofString
  | .tokens file _ => [Path.ofString file]
  | .tree file => [Path.ofString file]

end CommandLine
end BracketCall
