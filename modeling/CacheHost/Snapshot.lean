import CacheHost.DiskFree
import CacheHost.Interface
import CacheHost.Json

namespace CacheHost

/-- `speed` is in MHz. -/
structure Cpu where
  model : Text
  speed : UInt64
  deriving DecidableEq

/-- The load averages are over one, five and fifteen minutes; `utc` counts milliseconds. -/
structure HostMetrics where
  uptime : UInt64 := 0
  loadavg : Vector Float 3 := .replicate 3 0
  totalmem : UInt64 := 0
  freemem : UInt64 := 0
  cpus : List Cpu := []
  hostname : Text := []
  utc : Int64 := 0
  deriving DecidableEq

/-- `processes` is the number of worker processes, if they are counted at all. -/
structure Snapshot where
  host : HostMetrics := {}
  devices : DeviceMap := .empty
  dfree : DiskFreeMap := .empty
  ifaces : InterfaceMap := .empty
  processes : Option UInt32 := none
  deriving DecidableEq

namespace Json

def natural (n : UInt64) : Json := .number (.natural n)

def integer (n : Int64) : Json :=
  .number (if 0 ≤ n then .natural n.toUInt64 else .negative (-n).toUInt64)

def strings (ss : List Text) : Json := .array (ss.map .string)

def ofMap {α : Type} (value : α → Json) (m : SortedMap Text α) : Json :=
  .object (m.entries.map fun e => (e.1, value e.2))

end Json

def Cpu.toJson (c : Cpu) : Json :=
  .object [("model".toList, .string c.model), ("speed".toList, .natural c.speed)]

def DiskUsage.toJson (u : DiskUsage) : Json :=
  .object [("size".toList, .natural u.size), ("used".toList, .natural u.used),
    ("avail".toList, .natural u.avail)]

/-- The number 0 stands for a path that is not resolved. -/
def DiskFree.toJson : DiskFree → Json
  | .unresolved => .natural 0
  | .usage u => u.toJson

def InterfaceStat.toJson (i : InterfaceStat) : Json :=
  .object [("IPv4".toList, .strings i.ipv4), ("IPv6".toList, .strings i.ipv6),
    ("rx".toList, .natural i.rx), ("tx".toList, .natural i.tx)]

/-- The members that tell of the host itself. They stand beside the others, not in an object of
their own. -/
def HostMetrics.members (h : HostMetrics) : List (Text × Json) :=
  [("uptime".toList, .natural h.uptime),
    ("loadavg".toList, .array (h.loadavg.toList.map fun x => .number (.real x))),
    ("totalmem".toList, .natural h.totalmem), ("freemem".toList, .natural h.freemem),
    ("cpus".toList, .array (h.cpus.map Cpu.toJson)), ("hostname".toList, .string h.hostname),
    ("utc".toList, .integer h.utc)]

namespace Snapshot

def toJson (s : Snapshot) : Json :=
  .object (s.host.members ++
    [("devices".toList, .ofMap .strings s.devices),
      ("dfree".toList, .ofMap DiskFree.toJson s.dfree),
      ("ifaces".toList, .ofMap InterfaceStat.toJson s.ifaces)] ++
    match s.processes with
    | some n => [("processes".toList, .natural n.toUInt64)]
    | none => [])

def encode (s : Snapshot) : Text := s.toJson.text

end Snapshot
end CacheHost
