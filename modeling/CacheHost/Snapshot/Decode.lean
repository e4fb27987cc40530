import CacheHost.Json.Reader
import CacheHost.Snapshot
/-!
Decoding the JSON document of a snapshot. Members may stand in any order and unknown ones are passed
over. The maps and the process count are decoded as they are read, and what they hold is refused
there and then; a member of the host is kept as it is and decoded after all of the document has been
read. An object of known members may also be given as the array of their values.
-/
namespace CacheHost

namespace Json

/-- Reads a value that does not fit here: it may still turn out to be malformed. Of an array or an
object nothing but the opening bracket is looked at. -/
def misfitAt (s : Text) : DecodeError :=
  match skipSpace s with
  | '[' :: _ | '\x7b' :: _ => .misfit .mismatch
  | s =>
    match readValue .keep 0 s with
    | .ok _ => .misfit .mismatch
    | .error e => e

def readText : Reader Text := fun s =>
  match skipSpace s with
  | '"' :: s => readString .keep s
  | s => .error (misfitAt s)

def readTexts : Reader (List Text) := fun s =>
  match skipSpace s with
  | '[' :: s => readItems readText s
  | s => .error (misfitAt s)

def readNatural : Reader UInt64 := fun s => do
  match skipSpace s with
  | [] => .error .truncated
  | c :: s =>
    if c = '-' ∨ c.isDigit then
      match ← if c = '-' then readNumber .keep true s else readNumber .keep false (c :: s) with
      | (.natural n, s) => .ok (n, s)
      | _ => .error (.misfit .mismatch)
    else .error (misfitAt (c :: s))

/-- Reads an object whose members are all alike; of a name that occurs twice the last value
counts. -/
def readMap {α : Type} (value : Reader α) : Reader (SortedMap Text α) := fun s =>
  match skipSpace s with
  | '\x7b' :: s => (readMembers .keep value s).map fun p => (.ofList p.1, p.2)
  | s => .error (misfitAt s)

def readField {α : Type} (name : Text) (field : Option α) (value : Reader α) : Reader α := fun s =>
  match field with
  | some _ => .error (.misfit (.repeated name))
  | none => do value (← colon s)

def need {α : Type} (name : Text) : Option α → Except Misfit α
  | some v => .ok v
  | none => .error (.missing name)

def setField {α : Type} (name : Text) (field : Option α) (value : Except Misfit α) :
    Except Misfit (Option α) :=
  match field with
  | some _ => .error (.repeated name)
  | none => value.map some

def natural? : Json → Option UInt64
  | .number (.natural n) => some n
  | _ => none

def fit {α : Type} : Option α → Except Misfit α
  | some v => .ok v
  | none => .error .mismatch

def toNatural (v : Json) : Except Misfit UInt64 := fit v.natural?

def toText : Json → Except Misfit Text
  | .string s => .ok s
  | _ => .error .mismatch

def toReal : Json → Except Misfit Float
  | .number (.real x) => .ok x
  | .number (.natural n) => .ok n.toFloat
  | .number (.negative n) => .ok (-n.toFloat)
  | _ => .error .mismatch

def toInteger : Json → Except Misfit Int64
  | .number (.natural n) => if n.toNat < 0x8000000000000000 then .ok n.toInt64 else .error .mismatch
  | .number (.negative n) => .ok (-n.toInt64)
  | _ => .error .mismatch

end Json

open Json

namespace DiskUsage

structure Draft where
  size : Option UInt64 := none
  used : Option UInt64 := none
  avail : Option UInt64 := none

def Draft.add (d : Draft) (m : Text × Json) : Except Misfit Draft :=
  if m.1 = "size".toList then do return { d with size := ← setField m.1 d.size m.2.toNatural }
  else if m.1 = "used".toList then do return { d with used := ← setField m.1 d.used m.2.toNatural }
  else if m.1 = "avail".toList then do
    return { d with avail := ← setField m.1 d.avail m.2.toNatural }
  else .ok d

def ofJson : Json → Except Misfit DiskUsage
  | .object ms => do
    let d ← ms.foldlM Draft.add {}
    return ⟨← need "size".toList d.size, ← need "used".toList d.used, ← need "avail".toList d.avail⟩
  | .array [size, used, avail] => do
    return ⟨← size.toNatural, ← used.toNatural, ← avail.toNatural⟩
  | _ => .error .mismatch

end DiskUsage

namespace DiskFree

def ofJson (v : Json) : Except Misfit DiskFree :=
  match DiskUsage.ofJson v with
  | .ok u => .ok (.usage u)
  | .error _ =>
    match v.natural? with
    | some n => if n = 0 then .ok .unresolved else .error (.notUsage n)
    | none => .error .noUsage

def read (depth : Nat) : Reader DiskFree := fun s => do
  let (v, s) ← readValue .keep depth s
  match ofJson v with
  | .ok d => .ok (d, s)
  | .error m => .error (.misfit m)

def decode (s : Text) : Except DecodeError DiskFree := do
  let (d, s) ← read maxDepth s
  endDocument s
  .ok d

def encode (d : DiskFree) : Text := d.toJson.text

end DiskFree

namespace InterfaceStat

structure Draft where
  ipv4 : Option (List Text) := none
  ipv6 : Option (List Text) := none
  rx : Option UInt64 := none
  tx : Option UInt64 := none

def Draft.read (d : Draft) (name : Text) : Reader Draft := fun s => do
  if name = "IPv4".toList then
    let (v, s) ← readField name d.ipv4 readTexts s
    return ({ d with ipv4 := some v }, s)
  else if name = "IPv6".toList then
    let (v, s) ← readField name d.ipv6 readTexts s
    return ({ d with ipv6 := some v }, s)
  else if name = "rx".toList then
    let (v, s) ← readField name d.rx readNatural s
    return ({ d with rx := some v }, s)
  else if name = "tx".toList then
    let (v, s) ← readField name d.tx readNatural s
    return ({ d with tx := some v }, s)
  else
    return (d, ← skipValue (← colon s))

def Draft.finish (d : Draft) : Except Misfit InterfaceStat := do
  return ⟨← need "IPv4".toList d.ipv4, ← need "IPv6".toList d.ipv6, ← need "rx".toList d.rx,
    ← need "tx".toList d.tx⟩

def readNext {α : Type} (item : Reader α) (first : Bool) : Reader α := fun s => do
  match ← nextItem first s with
  | some s => item s
  | none => .error (.misfit .mismatch)

def read : Reader InterfaceStat := fun s => do
  match skipSpace s with
  | '[' :: s =>
    let (ipv4, s) ← readNext readTexts true s
    let (ipv6, s) ← readNext readTexts false s
    let (rx, s) ← readNext readNatural false s
    let (tx, s) ← readNext readNatural false s
    return (⟨ipv4, ipv6, rx, tx⟩, ← endArray s)
  | '\x7b' :: s =>
    let (d, s) ← foldMembers .keep Draft.read {} s
    match d.finish with
    | .ok i => return (i, s)
    | .error m => .error (.misfit m)
  | s => .error (misfitAt s)

end InterfaceStat

namespace Cpu

structure Draft where
  model : Option Text := none
  speed : Option UInt64 := none

def Draft.add (d : Draft) (m : Text × Json) : Except Misfit Draft :=
  if m.1 = "model".toList then do return { d with model := ← setField m.1 d.model m.2.toText }
  else if m.1 = "speed".toList then do
    return { d with speed := ← setField m.1 d.speed m.2.toNatural }
  else .ok d

def ofJson : Json → Except Misfit Cpu
  | .object ms => do
    let d ← ms.foldlM Draft.add {}
    return ⟨← need "model".toList d.model, ← need "speed".toList d.speed⟩
  | .array [model, speed] => do return ⟨← model.toText, ← speed.toNatural⟩
  | _ => .error .mismatch

end Cpu

namespace HostMetrics

def cpusOf : Json → Except Misfit (List Cpu)
  | .array vs => vs.mapM Cpu.ofJson
  | _ => .error .mismatch

def loadavgOf : Json → Except Misfit (Vector Float 3)
  | .array [a, b, c] => do return #v[← a.toReal, ← b.toReal, ← c.toReal]
  | _ => .error .mismatch

structure Draft where
  uptime : Option UInt64 := none
  loadavg : Option (Vector Float 3) := none
  totalmem : Option UInt64 := none
  freemem : Option UInt64 := none
  cpus : Option (List Cpu) := none
  hostname : Option Text := none
  utc : Option Int64 := none

def Draft.add (d : Draft) (m : Text × Json) : Except Misfit Draft :=
  if m.1 = "uptime".toList then do
    return { d with uptime := ← setField m.1 d.uptime m.2.toNatural }
  else if m.1 = "loadavg".toList then do
    return { d with loadavg := ← setField m.1 d.loadavg (loadavgOf m.2) }
  else if m.1 = "totalmem".toList then do
    return { d with totalmem := ← setField m.1 d.totalmem m.2.toNatural }
  else if m.1 = "freemem".toList then do
    return { d with freemem := ← setField m.1 d.freemem m.2.toNatural }
  else if m.1 = "cpus".toList then do
    return { d with cpus := ← setField m.1 d.cpus (cpusOf m.2) }
  else if m.1 = "hostname".toList then do
    return { d with hostname := ← setField m.1 d.hostname m.2.toText }
  else if m.1 = "utc".toList then do
    return { d with utc := ← setField m.1 d.utc m.2.toInteger }
  else .ok d

def ofMembers (ms : List (Text × Json)) : Except Misfit HostMetrics := do
  let d ← ms.foldlM Draft.add {}
  return {
    uptime := ← need "uptime".toList d.uptime
    loadavg := ← need "loadavg".toList d.loadavg
    totalmem := ← need "totalmem".toList d.totalmem
    freemem := ← need "freemem".toList d.freemem
    cpus := ← need "cpus".toList d.cpus
    hostname := ← need "hostname".toList d.hostname
    utc := ← need "utc".toList d.utc }

end HostMetrics

namespace Snapshot

def readProcesses : Reader (Option UInt32) := fun s =>
  match skipSpace s with
  | 'n' :: s => readWord "ull".toList none s
  | s => do
    let (n, s) ← readNatural s
    if n.toNat < UInt32.size then .ok (some n.toUInt32, s) else .error (.misfit .mismatch)

/-- `others` holds the members of the host and the unknown ones, the last one first. -/
structure Draft where
  devices : Option DeviceMap := none
  dfree : Option DiskFreeMap := none
  ifaces : Option InterfaceMap := none
  processes : Option (Option UInt32) := none
  others : List (Text × Json) := []

def Draft.read (d : Draft) (name : Text) : Reader Draft := fun s => do
  if name = "devices".toList then
    let (v, s) ← readField name d.devices (readMap readTexts) s
    return ({ d with devices := some v }, s)
  else if name = "dfree".toList then
    let (v, s) ← readField name d.dfree (readMap (DiskFree.read (maxDepth - 2))) s
    return ({ d with dfree := some v }, s)
  else if name = "ifaces".toList then
    let (v, s) ← readField name d.ifaces (readMap InterfaceStat.read) s
    return ({ d with ifaces := some v }, s)
  else if name = "processes".toList then
    let (v, s) ← readField name d.processes readProcesses s
    return ({ d with processes := some v }, s)
  else
    let (v, s) ← readValue .keep (maxDepth - 1) (← colon s)
    return ({ d with others := (name, v) :: d.others }, s)

def Draft.finish (d : Draft) : Except Misfit Snapshot := do
  let devices ← need "devices".toList d.devices
  let dfree ← need "dfree".toList d.dfree
  let ifaces ← need "ifaces".toList d.ifaces
  let host ← HostMetrics.ofMembers d.others.reverse
  return ⟨host, devices, dfree, ifaces, d.processes.getD none⟩

def read : Reader Snapshot := fun s =>
  match skipSpace s with
  | '\x7b' :: s => do
    let (d, s) ← foldMembers .keep Draft.read {} s
    match d.finish with
    | .ok snapshot => .ok (snapshot, s)
    | .error m => .error (.misfit m)
  | s => .error (misfitAt s)

def decode (s : Text) : Except DecodeError Snapshot := do
  let (snapshot, s) ← read s
  endDocument s
  .ok snapshot

end Snapshot
end CacheHost
