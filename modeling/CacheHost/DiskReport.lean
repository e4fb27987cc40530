import CacheHost.Command
import CacheHost.DiskFree
import CacheHost.Text.Blank
import CacheHost.Text.Line
import CacheHost.Text.Numeral
import CacheHost.Text.Quoted
/-!
The report of `df`: one header line, then one row for each path asked for, in the order of the
question and naming the path. A path may hold blanks, so a row is read from its right end.
-/
namespace CacheHost

namespace DiskReport

structure Row where
  file : Text
  fstype : Text
  usage : DiskUsage
  deriving DecidableEq, Repr

inductive Error where
  | lineCount (paths lines : Nat)
  | malformed (line : Text)
  | misplaced (file path : Text)
  deriving DecidableEq, Repr

def Error.message : Error → Text
  | .lineCount paths lines =>
    "expected ".toList ++ Text.ofNat (paths + 1) ++ " lines (header + ".toList ++
      Text.ofNat paths ++ " rows), got ".toList ++ Text.ofNat lines
  | .malformed line => "malformed row ".toList ++ Text.quoted line
  | .misplaced file path =>
    "row for ".toList ++ Text.quoted file ++ " where ".toList ++ Text.quoted path ++
      " was expected".toList

def row? (line : Text) : Option Row := do
  let (rest, avail) ← Text.lastWord? line
  let (rest, used) ← Text.lastWord? rest
  let (rest, size) ← Text.lastWord? rest
  let (rest, fstype) ← Text.lastWord? rest
  let file := Text.trim rest
  if file = [] then none
  else
    let size ← Numeral.read64? size
    let used ← Numeral.read64? used
    let avail ← Numeral.read64? avail
    some ⟨file, fstype, ⟨size, used, avail⟩⟩

/-- On these the numbers are those of the device node, not of what it holds. -/
def isPseudo (fstype : Text) : Bool := fstype = "tmpfs".toList || fstype = "devtmpfs".toList

def usageFor (path line : Text) : Except Error (Option DiskUsage) :=
  match row? line with
  | none => .error (.malformed line)
  | some row =>
    if row.file = path then .ok (if isPseudo row.fstype then none else some row.usage)
    else .error (.misplaced row.file path)

def usages : List Text → List Text → Except Error (List (Option DiskUsage))
  | path :: paths, line :: lines => do
    let u ← usageFor path line
    let us ← usages paths lines
    .ok (u :: us)
  | _, _ => .ok []

/-- One usage for each path; `none` stands for a pseudo file system. -/
def parse (output : Text) (paths : List Text) : Except Error (List (Option DiskUsage)) :=
  let lines := Text.lines output
  if lines.length = paths.length + 1 then usages paths lines.tail
  else .error (.lineCount paths.length lines.length)

def arguments (paths : List Text) : List Text :=
  ["-B1".toList, "--output=file,fstype,size,used,avail".toList, "--".toList] ++ paths

end DiskReport

namespace DiskFreeMap

def resolve (m : DiskFreeMap) (usages : List (Option DiskUsage)) : DiskFreeMap :=
  (m.keys.zip usages).foldl (fun m e =>
    match e.2 with
    | some u => m.insert e.1 (.usage u)
    | none => m) m

structure Filled where
  map : DiskFreeMap
  run : Option (List Text) := none
  failure : Option StageError := none

/-- Looks up all paths in one run. It resolves all of them or none; a path on a pseudo file system
keeps the value that it had. -/
def fill (df : Command) (run : List Text → Outcome) (m : DiskFreeMap) : Filled :=
  if m.keys = [] then { map := m }
  else
    let arguments := DiskReport.arguments m.keys
    match df.output (run arguments) with
    | .error e => ⟨m, some arguments, some e⟩
    | .ok output =>
      match DiskReport.parse output m.keys with
      | .error e => ⟨m, some arguments, some (.unexpectedOutput df.program e.message)⟩
      | .ok usages => ⟨m.resolve usages, some arguments, none⟩

end DiskFreeMap
end CacheHost
