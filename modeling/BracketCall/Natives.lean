import BracketCall.Run

/-!
# Standard natives

`출력` writes the data of its arguments on one line, `덧셈` adds numbers, and `대기` waits for a
number of milliseconds.  A wait for infinitely many of them never ends.
-/

namespace BracketCall

inductive Standard where
  | print
  | add
  | wait
deriving DecidableEq

namespace Standard

/-- The standard natives, in the order in which they are registered. -/
def all : List Standard :=
  [print, add, wait]

/-- The name of a native in programs. -/
def name : Standard → String
  | print => "출력"
  | add => "덧셈"
  | wait => "대기"

/-- Writes the data of each argument after what was written before.  If one of them has no text,
what stands before it stays written. -/
def writeAll : (first : Bool) → List Dynamic → String → Except HostError Unit × String
  | _, [], out => (.ok (), out ++ "\n")
  | first, d :: ds, out =>
      let out := if first then out else out ++ " "
      match d.data.plain with
      | .error e => (.error e, out)
      | .ok s => writeAll false ds (out ++ s)

/-- Adds numbers to a first one, from left to right. -/
def sumFrom (total : Value) : List Dynamic → Except Failure Value
  | [] => .ok total
  | d :: ds =>
      match d.read .number with
      | .error e => .error e
      | .ok term =>
          match total.plus term with
          | .error e => .error (.host e)
          | .ok total => sumFrom total ds

/-- The sum of the arguments, all of which must be numbers. -/
def sum (args : List Dynamic) : Except Failure Value :=
  sumFrom (.int 0) args

/-- Waits for a number of milliseconds, which must have a double when it is told in seconds.  Less
than nothing, or no number at all among the doubles, is no wait. -/
def sleep (delay : Value) : Except Failure Unit :=
  match delay.number? with
  | some (.inl n) =>
      match Double.ofFraction (n < 0) n.natAbs 1000 with
      | .infinite _ => .error (.host .quotientTooLarge)
      | _ => .ok ()
  | some (.inr (.infinite false)) => .error .endless
  | some (.inr _) => .ok ()
  | none => .error (.host (.unsupportedOperands .divide delay.typeName (Value.int 1000).typeName))

/-- How long to wait: the first argument, or nothing. -/
def delay (args : List Dynamic) : Except Failure Value :=
  match args with
  | [] => .ok (.int 0)
  | d :: _ => d.read .number

/-- How long the waits among some invocations take together, in whole milliseconds.  A wait that never
ends does not count. -/
def totalDelay (trace : List (Invocation Standard)) : Nat :=
  (trace.map fun call =>
    match call.code, (delay call.arguments).toOption.bind Value.number? with
    | wait, some (.inl n) => n.toNat
    | wait, some (.inr (.finite false mantissa exponent)) =>
        let (num, den) := Double.scaled mantissa 1 exponent
        num / den
    | _, _ => 0).foldl (· + ·) 0

/-- What a standard native does with its arguments and the text written so far. -/
def perform (native : Standard) (args : List Dynamic) (out : String) :
    Except Failure Value × String :=
  match native with
  | print =>
      match writeAll true args out with
      | (.ok (), out) => (.ok .none, out)
      | (.error e, out) => (.error (.host e), out)
  | add => (sum args, out)
  | wait =>
      match delay args with
      | .error e => (.error e, out)
      | .ok d => ((sleep d).map fun () => .none, out)

/-- The standard natives for a host whose state is the text written so far. -/
def natives : Natives Standard String :=
  fun native args world =>
    let (result, out) := native.perform args world.host
    (result, { world with host := out })

/-- Registers the standard natives, under codes made by `code`. -/
def register {κ : Type} (code : Standard → κ) (b : Bindings κ) : Bindings κ :=
  all.foldl (fun b native => b.putFunction native.name (code native)) b

end Standard
end BracketCall
