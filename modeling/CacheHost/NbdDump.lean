import CacheHost.BlockConfig
import CacheHost.Text.Numeral

namespace CacheHost

structure NbdEntry where
  device : Option Text := none
  name : Option Text := none
  host : Option Text := none
  deriving DecidableEq, Repr

abbrev NbdDump := SortedMap Nat NbdEntry

namespace NbdDump

inductive Field where
  | device
  | name
  | host
  deriving DecidableEq, Repr

def Field.keyword : Field → Text
  | .device => "NBD_DEVICE".toList
  | .name => "NBD_NAME".toList
  | .host => "NBD_HOST".toList

structure Assignment where
  field : Field
  index : Nat
  value : Text
  deriving DecidableEq, Repr

def index? : Text → Option (Nat × Text)
  | '[' :: rest =>
    let digits := rest.takeWhile (· != ']')
    match rest.dropWhile (· != ']') with
    | _ :: tail =>
      if digits.all Char.isDigit then
        (Numeral.read UInt64.size digits).toOption.map fun n => (n, tail)
      else none
    | [] => none
  | _ => none

/-- The value after an equals sign and at most one opening quote: up to the next quote, or to the
end of the line without the blanks there. -/
def value? (tail : Text) : Option Text :=
  match Text.trimStart tail with
  | '=' :: rest =>
    let rest := Text.trimStart rest
    let rest := (Text.after? ['"'] rest).getD rest
    let value := if '"' ∈ rest then rest.takeWhile (· != '"') else Text.trimEnd rest
    if value = [] then none else some value
  | _ => none

def assignmentTo? (field : Field) (line : Text) : Option Assignment := do
  let rest ← Text.after? field.keyword line
  let (index, tail) ← index? rest
  let value ← value? tail
  some ⟨field, index, value⟩

/-- No keyword starts another one, so at most one of the three applies. -/
def assignment? (line : Text) : Option Assignment :=
  [Field.device, .name, .host].findSome? (assignmentTo? · (Text.trimStart line))

end NbdDump

def NbdEntry.set (e : NbdEntry) (value : Text) : NbdDump.Field → NbdEntry
  | .device => { e with device := some value }
  | .name => { e with name := some value }
  | .host => { e with host := some value }

namespace NbdDump

def add (d : NbdDump) (a : Assignment) : NbdDump :=
  d.insert a.index (((d.find? a.index).getD {}).set a.value a.field)

def assignments (text : Text) : List Assignment := (Text.lines text).filterMap assignment?

def parse (text : Text) : NbdDump := (assignments text).foldl add .empty

end NbdDump

/-- The configured name and the path of an entry that is complete and served from `listen`. -/
def NbdEntry.export? (listen : Text) (e : NbdEntry) : Option (Text × Text) :=
  match e with
  | ⟨some device, some name, some host⟩ => if host = listen then some (name, device) else none
  | _ => none

/-- The configured devices with the paths that a dump exports for them, in the order of its
indices. -/
def BlockConfig.withExports (c : BlockConfig) (dump : NbdDump) : DeviceMap :=
  match c.listen with
  | none => c.devices
  | some listen =>
    (dump.values.filterMap (NbdEntry.export? listen)).foldl (fun m e => m.append e.1 e.2) c.devices

end CacheHost
