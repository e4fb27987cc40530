import CacheHost.DeviceMap

namespace CacheHost

/-- Sizes in bytes. -/
structure DiskUsage where
  size : UInt64
  used : UInt64
  avail : UInt64
  deriving DecidableEq, Repr

inductive DiskFree where
  | unresolved
  | usage (u : DiskUsage)
  deriving DecidableEq, Repr

def DiskFree.usage? : DiskFree → Option DiskUsage
  | .unresolved => none
  | .usage u => some u

abbrev DiskFreeMap := SortedMap Text DiskFree

def DiskFreeMap.seed (devices : DeviceMap) : DiskFreeMap :=
  .ofList (devices.paths.map (·, .unresolved))

end CacheHost
