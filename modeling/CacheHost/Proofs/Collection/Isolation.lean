import CacheHost.Proofs.Collection.Consistency

namespace CacheHost

namespace Snapshot

def forgetUsage (s : Snapshot) : Snapshot := { s with dfree := s.dfree.map fun _ _ => .unresolved }

def forgetProcesses (s : Snapshot) : Snapshot := { s with processes := none }

end Snapshot

namespace Collection
variable (c : Settings) (src : Sources) (finish finish' : Finish)

/-- What one kind of source gives shows only where it is fed in: `df` in the usage, `ps` in the
process count, the dump in the paths behind the first of each device, the configuration in devices
and usage, and what is measured of the host in its metrics and interfaces. -/
theorem run_isolates_sources :
    (∀ df, (run c { src with df := df } finish').snapshot.forgetUsage =
      (run c src finish).snapshot.forgetUsage) ∧
    (∀ ps, (run c { src with ps := ps } finish').snapshot.forgetProcesses =
      (run c src finish).snapshot.forgetProcesses) ∧
    (∀ nbdClient df,
      let s := (run c src finish).snapshot
      let s' := (run c { src with nbdClient := nbdClient, df := df } finish').snapshot
      s'.host = s.host ∧ s'.ifaces = s.ifaces ∧ s'.processes = s.processes ∧
        s'.devices.map (fun _ ps => ps.head?) = s.devices.map fun _ ps => ps.head?) ∧
    (∀ blkdevConf df,
      let s := (run c src finish).snapshot
      let s' := (run c { src with blkdevConf := blkdevConf, df := df } finish').snapshot
      s'.host = s.host ∧ s'.ifaces = s.ifaces ∧ s'.processes = s.processes) ∧
    (∀ host clock interfaces,
      let s := (run c src finish).snapshot
      let s' := (run c { src with host, clock, interfaces } finish').snapshot
      s'.devices = s.devices ∧ s'.dfree = s.dfree ∧ s'.processes = s.processes) := by
  refine ⟨fun df => ?_, fun ps => rfl, fun nbdClient df => ⟨rfl, rfl, rfl, ?_⟩,
    fun blkdevConf df => ⟨rfl, rfl, rfl⟩, fun host clock interfaces => ⟨rfl, rfl, rfl⟩⟩
  · -- the keys of the usage are the paths of the devices, of which `df` says nothing
    have hk : (run c { src with df := df } finish').snapshot.dfree.keys =
        (run c src finish).snapshot.dfree.keys := by
      rw [keys_dfree_run, keys_dfree_run, devices_run, devices_run]
    have hd := SortedMap.map_key_congr hk fun _ => DiskFree.unresolved
    rw [Snapshot.forgetUsage, hd]
    rfl
  · rw [devices_run, devices_run, DeviceMap.map_head?_ofTexts, DeviceMap.map_head?_ofTexts]

end Collection
end CacheHost
