import BracketCall.Text.Utf8

/-!
# Files

The files that a command may read, as a value: a directory tree given by the files in it and by its
empty directories.  Paths are kept in normal form: empty parts and `.` are dropped, `..` is kept.  A
path that begins with exactly two slashes keeps both.
-/

namespace BracketCall

structure Path where
  /-- The slashes that the path begins with; there are none if it is relative. -/
  root : String
  parts : List String
deriving DecidableEq

namespace Path

/-- The slashes that a path begins with, in normal form. -/
def rootOf (s : String) : String :=
  match (s.toList.takeWhile (· = '/')).length with
  | 0 => ""
  | 2 => "//"
  | _ => "/"

/-- The normal form of a path. -/
def ofString (s : String) : Path :=
  { root := rootOf s
    parts := ((s.toList.splitOn '/').map String.ofList).filter fun part => part != "" && part != "." }

/-- A path as it is shown. -/
def text (p : Path) : String :=
  if p.root = "" ∧ p.parts = [] then "." else p.root ++ "/".intercalate p.parts

/-- Whether the last part ends in a suffix, has something before it, and no later point. -/
def hasSuffix (suffix : String) (p : Path) : Bool :=
  match p.parts.getLast? with
  | some name => suffix.toList.isSuffixOf name.toList && name != suffix
  | none => false

end Path

inductive Entry where
  | file (bytes : List UInt8)
  | directory

/-- Files and empty directories, by the parts of their paths. -/
structure Files where
  entries : List (List String × Entry) := []

/-- Why a path leads nowhere. -/
inductive LookupError where
  | missing
  | nameTooLong
deriving DecidableEq

/-- The greatest number of bytes in one part of a path. -/
def partLimit : Nat := 255

/-- The greatest number of bytes in a path. -/
def pathLimit : Nat := 4095

namespace Files

/-- What stands at a place that is given from the root on. -/
def entry? (files : Files) (here : List String) : Option Entry :=
  match files.entries.find? fun e => e.1 == here with
  | some (_, entry) => some entry
  | none =>
      if here.isEmpty || files.entries.any fun e => here.isPrefixOf e.1 then some .directory
      else none

/-- What a path leads to.  The parts must lead through directories; above the root there is nothing
to be found by name. -/
def walk (files : Files) : Option (List String) → List String → Except LookupError Entry
  | none, [] => .ok .directory
  | none, ".." :: rest => walk files none rest
  | none, part :: _ =>
      if partLimit < part.utf8ByteSize then .error .nameTooLong else .error .missing
  | some here, rest =>
      match files.entry? here, rest with
      | none, _ => .error .missing
      | some (.file bytes), [] => .ok (.file bytes)
      | some (.file _), _ => .error .missing
      | some .directory, [] => .ok .directory
      | some .directory, ".." :: more =>
          walk files (if here.isEmpty then none else some here.dropLast) more
      | some .directory, part :: more =>
          if partLimit < part.utf8ByteSize then .error .nameTooLong
          else walk files (some (here ++ [part])) more

/-- What a path leads to. -/
def find (files : Files) (p : Path) : Except LookupError Entry :=
  if pathLimit < p.text.utf8ByteSize then .error .nameTooLong
  else if p.root ≠ "" then (if p.parts.isEmpty then .ok .directory else .error .missing)
  else files.walk (some []) p.parts

end Files

/-- Why the text of a path cannot be had. -/
inductive ReadError where
  | nameTooLong (path : Path)
  | directory (path : Path)
  | encoding (e : Utf8.Error)
deriving DecidableEq

namespace ReadError

def message : ReadError → String
  | nameTooLong path => "[Errno 36] File name too long: " ++ Text.quoted path.text
  | directory path => "[Errno 21] Is a directory: " ++ Text.quoted path.text
  | encoding e => e.message

end ReadError

namespace Entry

/-- The bytes of a file; a directory has none. -/
def bytes : Entry → List UInt8
  | directory => []
  | file bytes => bytes

/-- The text of a file. -/
def text (path : Path) : Entry → Except ReadError (List Char)
  | directory => .error (.directory path)
  | file bytes =>
      match Utf8.decode bytes with
      | .ok cs => .ok cs
      | .error e => .error (.encoding e)

end Entry
end BracketCall
