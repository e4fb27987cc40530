import CacheHost.SortedMap
import CacheHost.Text

namespace CacheHost

/-- The first path of a device is its cache directory, the others are the network block devices that
export it. -/
abbrev DeviceMap := SortedMap Text (List Text)

namespace DeviceMap

def paths (m : DeviceMap) : List Text := m.values.flatten

/-- Appends a path to a device; a device that is not in the map stays out of it. -/
def append (m : DeviceMap) (device path : Text) : DeviceMap :=
  m.modify device (· ++ [path])

end DeviceMap
end CacheHost
