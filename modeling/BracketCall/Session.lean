import BracketCall.Evaluation
import BracketCall.Natives

/-!
# Sessions

A session is a host that is driven by commands: it registers functions and variables, changes them,
and evaluates sources and trees against them.  The functions that a command registers are scripted:
each is a description of a small piece of work.  A scripted native notes its call in a log, does its
work, and, if it suspends, notes its end unless the work failed.

Variables made by a command may get a label, by which later commands and natives name the record.
-/

namespace BracketCall

mutual

/-- The work of a scripted native. -/
inductive Work where
  /-- Gives nothing. -/
  | record
  /-- Gives a fixed value. -/
  | const (value : Value)
  /-- Gives the number of arguments. -/
  | count
  /-- Gives the data of the first argument. -/
  | echo
  /-- Gives the first argument with its kind. -/
  | echoTagged
  /-- Gives the data of all arguments. -/
  | list
  /-- Gives the texts of all arguments, joined. -/
  | concat
  /-- Gives the sum of the arguments. -/
  | sum
  /-- Gives what an accessor reads from each argument. -/
  | access (accessor : Dynamic.Accessor)
  /-- Raises an error. -/
  | raise (message : String)
  /-- Adds one to the variable with a label. -/
  | bump (label : String)
  /-- Updates the variable with a label. -/
  | setVariable (label : String) (value : Value)
  /-- Registers a new variable. -/
  | defineVariable (name : String) (value : Value)
  /-- Registers a function. -/
  | defineFunction (name : String) (native : Scripted)

/-- A native that is given by its work. -/
inductive Scripted where
  | mk (label : String) (suspends : Bool) (work : Work)

end

/-- The code of a function in a session.  A scripted one has a title, which a look-up shows. -/
inductive Code where
  | standard (native : Standard)
  | scripted (title : String) (native : Scripted)

/-- What scripted natives note. -/
inductive Note where
  | call (label : String) (arguments : List Dynamic)
  | finish (label : String)

/-- The state of the host: what was written, what was noted, and the labels of records. -/
structure Console where
  out : String := ""
  log : List Note := []
  labels : List (String × RecordId) := []

namespace Work

/-- The data of each argument. -/
def unwrap (args : List Dynamic) : List Value :=
  args.map Dynamic.data

/-- The texts of values, joined. -/
def concatenation : List Value → Except HostError String
  | [] => .ok ""
  | v :: vs => do
      let first ← v.plain
      let rest ← concatenation vs
      return first ++ rest

/-- What an accessor reads from each argument. -/
def readAll (accessor : Dynamic.Accessor) : List Dynamic → Except Failure (List Value)
  | [] => .ok []
  | d :: ds => do
      let first ← d.read accessor
      let rest ← readAll accessor ds
      return first :: rest

/-- A host error or a value. -/
def hosted {α : Type} : Except HostError α → Except Failure α
  | .ok a => .ok a
  | .error e => .error (.host e)

/-- A fault or a value. -/
def bound {α : Type} : Except Fault α → Except Failure α
  | .ok a => .ok a
  | .error f => .error (.fault f)

/-- The value of the variable with a label, and one more. -/
def successor (bindings : Bindings Code) (id : RecordId) : Except Failure Value :=
  match bindings.record? id with
  | none => .ok .none
  | some r => do
      let n ← r.value.read .number
      hosted (n.plus (.int 1))

/-- The result of a change of the bindings, and the world with the bindings after it. -/
def change {α : Type} (world : World Code Console) (changed : Except Fault α × Bindings Code) :
    Except Failure Value × World Code Console :=
  let (result, bindings) := changed
  ((bound result).map fun _ => .none, { world with bindings := bindings })

/-- Does the work. -/
def perform (work : Work) (args : List Dynamic) (world : World Code Console) :
    Except Failure Value × World Code Console :=
  match work with
  | record => (.ok .none, world)
  | const value => (.ok value, world)
  | count => (.ok (.int args.length), world)
  | echo => (.ok ((args.head?.map Dynamic.data).getD .none), world)
  | echoTagged => (.ok ((args.head?.map Dynamic.toValue).getD .none), world)
  | list => (.ok (.list (unwrap args)), world)
  | concat => ((hosted (concatenation (unwrap args))).map .text, world)
  | sum => (Standard.sum args, world)
  | access accessor => ((readAll accessor args).map .list, world)
  | raise message => (.error (.host (.raised message)), world)
  | bump label =>
      match Dictionary.get? label world.host.labels with
      | none => (.ok .none, world)
      | some id =>
          match successor world.bindings id with
          | .error e => (.error e, world)
          | .ok next => change world (world.bindings.updateVariable id next)
  | setVariable label value =>
      match Dictionary.get? label world.host.labels with
      | none => (.ok .none, world)
      | some id => change world (world.bindings.updateVariable id value)
  | defineVariable name value => change world (world.bindings.defineVariable name value)
  | defineFunction name native =>
      change world (.ok (), world.bindings.putFunction name (.scripted name native))

end Work

namespace World

/-- Adds to the log. -/
def note (world : World Code Console) (entry : Note) : World Code Console :=
  { world with host := { world.host with log := world.host.log ++ [entry] } }

end World

namespace Scripted

/-- Notes the call, does the work, and notes the end of a native that suspended. -/
def perform (native : Scripted) (args : List Dynamic) (world : World Code Console) :
    Except Failure Value × World Code Console :=
  match native with
  | mk label suspends work =>
      match work.perform args (world.note (.call label args)) with
      | (.ok v, world') => (.ok v, if suspends then world'.note (.finish label) else world')
      | (.error e, world') => (.error e, world')

end Scripted

namespace Code

/-- What each code does in a session. -/
def natives : Natives Code Console :=
  fun code args world =>
    match code with
    | standard native =>
        let (result, out) := native.perform args world.host.out
        (result, { world with host := { world.host with out := out } })
    | scripted _ native => native.perform args world

/-- The title that a look-up shows. -/
def title? : Code → Option String
  | standard _ => none
  | scripted title _ => some title

end Code

/-- What a session can be told to do. -/
inductive Command where
  | defineFunction (name : String) (native : Scripted)
  | getFunction (name : String)
  | newVariable (label name : String) (value : Value)
  | putVariable (label : String)
  | defineVariable (label : Option String) (name : String) (value : Value)
  | updateVariable (label : String) (value : Value)
  | renameVariable (label name : String)
  | setValue (label : String) (value : Value)
  | getVariable (name : String)
  | sameRecord (left right : String)
  | names
  | registerStandard
  | markLiterals (on : Bool)
  | run (source : String)
  | interpret (tree : Tree)
  | call (name : String) (arguments : List Tree)

/-- What a session answers. -/
inductive Reply where
  | nothing
  | flag (b : Bool)
  | function (name : String) (title : Option String)
  | record (label : Option String) (record : Record)
  | names (functions records : List String)
  | value (v : Value)

structure Session where
  literals : Bool := true
  world : World Code Console := { bindings := {}, host := {} }

namespace Session

/-- The label of a record. -/
def labelOf (s : Session) (id : RecordId) : Option String :=
  (s.world.host.labels.find? fun entry => entry.2 == id).map Prod.fst

/-- A record as an answer. -/
def describe (s : Session) (id : RecordId) : Reply :=
  match s.world.bindings.record? id with
  | some r => .record (s.labelOf id) r
  | none => .nothing

/-- The session with other bindings. -/
def withBindings (s : Session) (b : Bindings Code) : Session :=
  { s with world := { s.world with bindings := b } }

/-- Gives a record a label. -/
def withLabel (s : Session) (label : String) (id : RecordId) : Session :=
  { s with world := { s.world with host :=
    { s.world.host with labels := Dictionary.set label id s.world.host.labels } } }

/-- Does something with the record of a label. -/
def onRecord (s : Session) (label : String)
    (f : RecordId → Except Failure Reply × Session) : Except Failure Reply × Session :=
  match Dictionary.get? label s.world.host.labels with
  | some id => f id
  | none => (.ok .nothing, s)

/-- Changes the bindings around a record and answers with the record. -/
def onBindings (s : Session) (label : String)
    (f : RecordId → Except Fault Unit × Bindings Code) : Except Failure Reply × Session :=
  s.onRecord label fun id =>
    match f id with
    | (.error e, b) => (.error (.fault e), s.withBindings b)
    | (.ok (), b) => (.ok ((s.withBindings b).describe id), s.withBindings b)

/-- Runs something on an empty log and an empty output. -/
def onMachine {α : Type} (s : Session) (reply : α → Reply)
    (f : Machine Code Console → Except Failure α × Machine Code Console) :
    Except Failure Reply × Session :=
  let fresh := { s.world with host := { s.world.host with out := "", log := [] } }
  let (result, m) := f { world := fresh }
  (result.map reply, { s with world := m.world })

/-- Carries out a command. -/
def perform (s : Session) : Command → Except Failure Reply × Session
  | .defineFunction name native =>
      let title := match native with | .mk label _ _ => label
      (.ok (.function name none),
        s.withBindings (s.world.bindings.putFunction name (.scripted title native)))
  | .getFunction name =>
      match s.world.bindings.function? name with
      | none => (.ok .nothing, s)
      | some code => (.ok (.function name code.title?), s)
  | .newVariable label name value =>
      let (id, b) := s.world.bindings.newRecord name (Dynamic.wrap value)
      let s := (s.withBindings b).withLabel label id
      (.ok (s.describe id), s)
  | .putVariable label => s.onBindings label s.world.bindings.putVariable
  | .defineVariable label name value =>
      match s.world.bindings.defineVariable name value with
      | (.error e, b) => (.error (.fault e), s.withBindings b)
      | (.ok id, b) =>
          let s := s.withBindings b
          let s := match label with
            | some l => s.withLabel l id
            | none => s
          (.ok (s.describe id), s)
  | .updateVariable label value =>
      s.onBindings label fun id => s.world.bindings.updateVariable id value
  | .renameVariable label name =>
      s.onBindings label fun id => (.ok (), s.world.bindings.rename id name)
  | .setValue label value =>
      s.onBindings label fun id => (.ok (), s.world.bindings.assign id (Dynamic.wrap value))
  | .getVariable name =>
      match s.world.bindings.recordNamed? name with
      | none => (.ok .nothing, s)
      | some id => (.ok (s.describe id), s)
  | .sameRecord left right =>
      let labels := s.world.host.labels
      (.ok (.flag (Dictionary.get? left labels == Dictionary.get? right labels)), s)
  | .names =>
      (.ok (.names s.world.bindings.functionNames s.world.bindings.variableNames), s)
  | .registerStandard =>
      (.ok (.flag true), s.withBindings (Standard.register .standard s.world.bindings))
  | .markLiterals on => (.ok .nothing, { s with literals := on })
  | .run source =>
      s.onMachine (fun () => .nothing) (Machine.evaluate Code.natives s.literals source)
  | .interpret tree => s.onMachine (fun () => .nothing) (Machine.interpret Code.natives tree)
  | .call name args => s.onMachine .value (Machine.call Code.natives name args)

end Session
end BracketCall
