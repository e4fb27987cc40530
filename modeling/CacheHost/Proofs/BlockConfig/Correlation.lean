import CacheHost.Proofs.BlockConfig.Origin
import CacheHost.Proofs.NbdDump.Export
import CacheHost.Proofs.NbdDump.Field

namespace CacheHost

def DeviceMap.ofTexts (conf dump : Text) : DeviceMap :=
  (BlockConfig.parse conf).withExports (NbdDump.parse dump)

namespace DeviceMap
variable {conf dump : Text}

theorem keys_ofTexts : (ofTexts conf dump).keys = (BlockConfig.parse conf).devices.keys :=
  BlockConfig.keys_withExports _ _

theorem find?_ofTexts {d : Text} {ps : List Text} (h : (ofTexts conf dump).find? d = some ps) :
    ∃ directory, ps = directory :: (BlockConfig.parse conf).exports (NbdDump.parse dump) d ∧
      (BlockConfig.parse conf).devices.find? d = some [directory] ∧
      (directory ≠ [] ∧ '\n' ∉ directory) ∧ Text.IsTrimmed directory := by
  rw [ofTexts, BlockConfig.find?_withExports] at h
  obtain ⟨ps', hps', rfl⟩ := Option.map_eq_some_iff.mp h
  obtain ⟨directory, rfl, hd, ht⟩ := BlockConfig.directory_of_find? hps'
  exact ⟨directory, rfl, hps', hd, ht⟩

/-- What is first in the list of each device is the directory that the configuration binds to it. -/
theorem map_head?_ofTexts (conf dump : Text) :
    (ofTexts conf dump).map (fun _ ps => ps.head?) =
      (BlockConfig.parse conf).devices.map fun _ ps => ps.head? := by
  apply SortedMap.ext_find?
  intro d
  rw [SortedMap.find?_map, SortedMap.find?_map, ofTexts, BlockConfig.find?_withExports,
    Option.map_map]
  cases h : (BlockConfig.parse conf).devices.find? d with
  | none => rfl
  | some ps =>
    obtain ⟨directory, rfl, -⟩ := BlockConfig.directory_of_find? h
    rfl

/-- A path that a dump exports is a value of it. -/
theorem path_of_mem_exports {c : BlockConfig} {d path : Text}
    (h : path ∈ c.exports (NbdDump.parse dump) d) : path ≠ [] ∧ '\n' ∉ path := by
  obtain ⟨listen, index, -, hi⟩ := BlockConfig.mem_exports_iff.mp h
  have hv : (NbdDump.parse dump).valueAt index .device = some path := by
    rw [NbdDump.valueAt, hi]
    rfl
  exact NbdDump.value_of_valueAt hv

theorem path_of_find?_ofTexts {d p : Text} {ps : List Text}
    (h : (ofTexts conf dump).find? d = some ps) (hp : p ∈ ps) : p ≠ [] ∧ '\n' ∉ p := by
  obtain ⟨directory, rfl, -, hd, -⟩ := find?_ofTexts h
  rcases List.mem_cons.mp hp with rfl | hp
  · exact hd
  · exact path_of_mem_exports hp

end DeviceMap
end CacheHost
