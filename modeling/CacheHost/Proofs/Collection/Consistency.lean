import CacheHost.Collection
import CacheHost.Proofs.BlockConfig.Correlation
import CacheHost.Proofs.Command
import CacheHost.Proofs.DiskFree.Fill
import CacheHost.Proofs.DiskReport.Acceptance

namespace CacheHost

/-- The text of a file; one that cannot be read counts as an empty one. -/
def contents (file : Except SystemError Bytes) : Text :=
  match file with
  | .ok bytes => Utf8.decodeLossy bytes
  | .error _ => []

namespace Sources

def config (src : Sources) : BlockConfig := BlockConfig.parse (contents src.blkdevConf)

def dump (src : Sources) : NbdDump := NbdDump.parse (contents src.nbdClient)

end Sources

theorem BlockConfig.load_toOption (path : Text) (file : Except SystemError Bytes) :
    (BlockConfig.load path file).toOption.getD {} = BlockConfig.parse (contents file) := by
  cases file <;> rfl

theorem BlockConfig.withExports_empty (c : BlockConfig) : c.withExports .empty = c.devices := by
  unfold withExports
  cases c.listen <;> rfl

theorem BlockConfig.correlate_fst (c : BlockConfig) (path : Text)
    (file : Except SystemError Bytes) :
    (c.correlate path file).1 = c.withExports (NbdDump.parse (contents file)) := by
  cases file with
  | ok bytes => rfl
  | error cause => exact c.withExports_empty.symm

namespace Collection

/-- What the devices and usages of a collection have to do with each other and with what the
sources answered. -/
structure Consistent (src : Sources) (r : Collection) : Prop where
  mem_dfree : ∀ p, p ∈ r.snapshot.dfree.keys ↔
    ∃ d ps, r.snapshot.devices.find? d = some ps ∧ p ∈ ps
  devices_keys : r.snapshot.devices.keys = src.config.devices.keys
  devices_empty : ∀ cause, src.blkdevConf = .error cause → r.snapshot.devices.keys = []
  paths : ∀ d ps, r.snapshot.devices.find? d = some ps → ∃ directory exported,
    ps = directory :: exported ∧ src.config.devices.find? d = some [directory] ∧
      ∀ p ∈ exported, ∃ listen index, src.config.listen = some listen ∧
        src.dump.find? index = some ⟨some p, some d, some listen⟩
  device_name : ∀ d ∈ r.snapshot.devices.keys, d ≠ [] ∧ '\n' ∉ d
  path_name : ∀ p ∈ r.snapshot.dfree.keys, p ≠ [] ∧ '\n' ∉ p
  values : (∀ p ∈ r.snapshot.dfree.keys, r.snapshot.dfree.find? p = some .unresolved) ∨
    ∃ status stdout us, r.dfRun = some (DiskReport.arguments r.snapshot.dfree.keys) ∧
      src.df (DiskReport.arguments r.snapshot.dfree.keys) = .ended status stdout ∧
      status.isSuccess = true ∧
      DiskReport.parse (Utf8.decodeLossy stdout) r.snapshot.dfree.keys = .ok us ∧
      us.length = r.snapshot.dfree.keys.length ∧
      ∀ p u, (p, u) ∈ r.snapshot.dfree.keys.zip us →
        r.snapshot.dfree.find? p = some (u.elim .unresolved .usage)

variable (c : Settings) (src : Sources) (finish : Finish)

theorem devices_run : (run c src finish).snapshot.devices =
    .ofTexts (contents src.blkdevConf) (contents src.nbdClient) := by
  change (((BlockConfig.load c.sources.blkdevConf src.blkdevConf).toOption.getD {}).correlate
    c.sources.nbdClient src.nbdClient).1 = _
  rw [BlockConfig.load_toOption, BlockConfig.correlate_fst]
  rfl

theorem keys_dfree_run : (run c src finish).snapshot.dfree.keys =
    (DiskFreeMap.seed (run c src finish).snapshot.devices).keys := DiskFreeMap.keys_fill _ _ _

theorem mem_keys_dfree_run {p : Text} : p ∈ (run c src finish).snapshot.dfree.keys ↔
    ∃ d ps, (run c src finish).snapshot.devices.find? d = some ps ∧ p ∈ ps := by
  rw [keys_dfree_run, DiskFreeMap.mem_keys_seed]

theorem keys_devices_run :
    (run c src finish).snapshot.devices.keys = src.config.devices.keys := by
  rw [devices_run, DeviceMap.keys_ofTexts]
  rfl

/-- Whatever the sources answer, and whichever program ends first, a collection is consistent. -/
theorem run_consistent : Consistent src (run c src finish) where
  mem_dfree p := mem_keys_dfree_run c src finish
  devices_keys := keys_devices_run c src finish
  devices_empty cause h := by
    rw [keys_devices_run, Sources.config, h]
    rfl
  paths d ps h := by
    rw [devices_run] at h
    obtain ⟨directory, rfl, hd, -⟩ := DeviceMap.find?_ofTexts h
    exact ⟨directory, _, rfl, hd, fun p hp => BlockConfig.mem_exports_iff.mp hp⟩
  device_name d h := by
    rw [keys_devices_run] at h
    exact BlockConfig.device_of_mem_keys h
  path_name p h := by
    obtain ⟨d, ps, hd, hp⟩ := (mem_keys_dfree_run c src finish).mp h
    rw [devices_run] at hd
    exact DeviceMap.path_of_find?_ofTexts hd hp
  values := by
    rw [keys_dfree_run]
    rcases DiskFreeMap.fill_seed_cases c.commands.dfCommand src.df
      (run c src finish).snapshot.devices with h | ⟨output, us, ho, hp, hrun, hv⟩
    · exact .inl h
    · obtain ⟨status, stdout, hdf, hs, rfl⟩ := Command.output_eq_ok_iff.mp ho
      have hlen := (DiskReport.parse_eq_ok_iff.mp hp).2.1
      exact .inr ⟨status, stdout, us, hrun, hdf, hs, hp, hlen, hv⟩

end Collection
end CacheHost
