import CacheHost.Address
import CacheHost.SortedMap
import CacheHost.StageError

namespace CacheHost

structure InterfaceStat where
  ipv4 : List Text
  ipv6 : List Text
  rx : UInt64
  tx : UInt64
  deriving DecidableEq, Repr

abbrev InterfaceMap := SortedMap Text InterfaceStat

structure Interface where
  name : Text
  addresses : List Address
  deriving DecidableEq

abbrev CounterSource := Text → Counter → Except StageError UInt64

/-- Counters that go on counting while they are read: what a read gives may hang on the reads made
before it. -/
abbrev LiveCounters := List (Text × Counter) → CounterSource

namespace Interface

def external (i : Interface) : List Address := i.addresses.filter (!·.isLoopback)

def stat (i : Interface) (rx tx : UInt64) : InterfaceStat where
  ipv4 := (i.external.filter (·.isV4)).map Address.text
  ipv6 := (i.external.filter (!·.isV4)).map Address.text
  rx := rx
  tx := tx

end Interface

structure Survey where
  stats : InterfaceMap := .empty
  reads : List (Text × Counter) := []

namespace Survey

/-- Counters are read only of an interface with an external address, and the second only after the
first. -/
def add (live : LiveCounters) (s : Survey) (i : Interface) : Survey :=
  if i.external = [] then s
  else
    let afterFirst := s.reads ++ [(i.name, .rx)]
    match live s.reads i.name .rx with
    | .error _ => { s with reads := afterFirst }
    | .ok rx =>
      let afterBoth := afterFirst ++ [(i.name, .tx)]
      match live afterFirst i.name .tx with
      | .error _ => { s with reads := afterBoth }
      | .ok tx => ⟨s.stats.insert i.name (i.stat rx tx), afterBoth⟩

/-- Of interfaces with one name the last that has a stat counts. -/
def ofLive (live : LiveCounters) (is : List Interface) : Survey := is.foldl (add live) {}

/-- Counters that stand still. -/
def ofInterfaces (source : CounterSource) (is : List Interface) : Survey :=
  ofLive (fun _ => source) is

end Survey
end CacheHost
