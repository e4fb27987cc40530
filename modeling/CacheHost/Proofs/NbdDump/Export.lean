import CacheHost.NbdDump
import CacheHost.Proofs.SortedMap
import Mathlib.Data.List.Forall2

namespace CacheHost

theorem DeviceMap.find?_append (m : DeviceMap) (device d path : Text) :
    (m.append device path).find? d =
      (m.find? d).map (· ++ if device = d then [path] else []) := by
  rw [append, SortedMap.find?_modify]
  cases m.find? d with
  | none => rfl
  | some ps => by_cases h : device = d <;> simp [h, Ne.symm]

/-- Each device gets those of the pairs that name it, in their order. -/
theorem DeviceMap.find?_foldl_append (es : List (Text × Text)) (m : DeviceMap) (d : Text) :
    (es.foldl (fun m e => m.append e.1 e.2) m).find? d =
      (m.find? d).map (· ++ (es.filter (·.1 = d)).map (·.2)) := by
  induction es generalizing m with
  | nil => simp
  | cons e es ih =>
    rw [List.foldl_cons, ih, find?_append, Option.map_map, List.filter_cons]
    congr 1
    funext ps
    by_cases h : e.1 = d <;> simp [h]

theorem DeviceMap.keys_foldl_append (es : List (Text × Text)) (m : DeviceMap) :
    (es.foldl (fun m e => m.append e.1 e.2) m).keys = m.keys := by
  induction es generalizing m with
  | nil => rfl
  | cons e es ih =>
    rw [List.foldl_cons, ih]
    exact SortedMap.keys_modify m e.1 _

theorem NbdEntry.export?_eq_some_iff {listen name device : Text} {e : NbdEntry} :
    e.export? listen = some (name, device) ↔ e = ⟨some device, some name, some listen⟩ := by
  unfold export?
  split
  · rename_i device' name' host
    by_cases h : host = listen
    · simp [h, and_comm]
    · simp [h]
  · rename_i h
    constructor
    · intro he
      simp at he
    · intro he
      exact absurd he (h device name listen)

/-- A search along a list finds its results at the items that have one, in their order. -/
theorem forall₂_filter_filterMap {α β : Type} (f : α → Option β) (xs : List α) :
    List.Forall₂ (fun x y => f x = some y) (xs.filter fun x => (f x).isSome) (xs.filterMap f) := by
  induction xs with
  | nil => exact .nil
  | cons x xs ih =>
    cases h : f x with
    | none => simpa [h] using ih
    | some y => simpa [h] using ih

namespace BlockConfig

def exports (c : BlockConfig) (dump : NbdDump) (d : Text) : List Text :=
  match c.listen with
  | none => []
  | some listen => ((dump.values.filterMap (NbdEntry.export? listen)).filter (·.1 = d)).map (·.2)

theorem find?_withExports (c : BlockConfig) (dump : NbdDump) (d : Text) :
    (c.withExports dump).find? d = (c.devices.find? d).map (· ++ c.exports dump d) := by
  unfold withExports exports
  cases c.listen with
  | none => simp
  | some listen => exact DeviceMap.find?_foldl_append _ _ _

theorem keys_withExports (c : BlockConfig) (dump : NbdDump) :
    (c.withExports dump).keys = c.devices.keys := by
  unfold withExports
  cases c.listen with
  | none => rfl
  | some listen => exact DeviceMap.keys_foldl_append _ _

def exported? (c : BlockConfig) (d : Text) (e : NbdEntry) : Option Text :=
  c.listen.bind fun listen => ((e.export? listen).filter (·.1 = d)).map (·.2)

theorem exported?_eq_some_iff {c : BlockConfig} {d path : Text} {e : NbdEntry} :
    c.exported? d e = some path ↔
      ∃ listen, c.listen = some listen ∧ e = ⟨some path, some d, some listen⟩ := by
  simp [exported?, Option.bind_eq_some_iff, Option.filter_eq_some_iff,
    NbdEntry.export?_eq_some_iff]

theorem exports_eq_filterMap (c : BlockConfig) (dump : NbdDump) (d : Text) :
    c.exports dump d = dump.entries.filterMap fun e => c.exported? d e.2 := by
  unfold exports exported?
  cases c.listen with
  | none => simp
  | some listen =>
    simp [SortedMap.values, List.filterMap_map, List.filter_filterMap, List.map_filterMap]

/-- The entry at an index is complete, names the device and is served from the address that the
daemon listens on. -/
def IsExport (c : BlockConfig) (dump : NbdDump) (d : Text) (index : Nat) (path : Text) : Prop :=
  ∃ listen, c.listen = some listen ∧ dump.find? index = some ⟨some path, some d, some listen⟩

theorem isExport_iff {c : BlockConfig} {dump : NbdDump} {d path : Text} {index : Nat} :
    c.IsExport dump d index path ↔
      ∃ e, (index, e) ∈ dump.entries ∧ c.exported? d e = some path := by
  simp only [IsExport, exported?_eq_some_iff, SortedMap.find?_eq_some_iff]
  constructor
  · intro ⟨listen, hl, he⟩
    exact ⟨_, he, listen, hl, rfl⟩
  · intro ⟨_, he, listen, hl, heq⟩
    exact ⟨listen, hl, heq ▸ he⟩

theorem mem_exports_iff {c : BlockConfig} {dump : NbdDump} {d path : Text} :
    path ∈ c.exports dump d ↔ ∃ listen index, c.listen = some listen ∧
      dump.find? index = some ⟨some path, some d, some listen⟩ := by
  have h : path ∈ c.exports dump d ↔ ∃ index, c.IsExport dump d index path := by
    simp [exports_eq_filterMap, isExport_iff]
  rw [h, exists_comm]
  rfl

def exportIndices (c : BlockConfig) (dump : NbdDump) (d : Text) : List Nat :=
  (dump.entries.filter fun e => (c.exported? d e.2).isSome).map (·.1)

theorem exportIndices_increasing (c : BlockConfig) (dump : NbdDump) (d : Text) :
    (c.exportIndices dump d).Pairwise (· < ·) := by
  have h : dump.entries.Pairwise fun a b => a.1 < b.1 :=
    dump.increasing.imp fun hab => Nat.compare_eq_lt.mp hab
  exact List.pairwise_map.mpr (h.filter _)

theorem mem_exportIndices_iff {c : BlockConfig} {dump : NbdDump} {d : Text} {index : Nat} :
    index ∈ c.exportIndices dump d ↔ ∃ path, c.IsExport dump d index path := by
  simp only [exportIndices, isExport_iff, List.mem_map, List.mem_filter, Option.isSome_iff_exists]
  constructor
  · intro ⟨e, ⟨he, path, hp⟩, hi⟩
    exact ⟨path, e.2, hi ▸ he, hp⟩
  · intro ⟨path, e, he, hp⟩
    exact ⟨(index, e), ⟨he, path, hp⟩, rfl⟩

/-- Each of these entries gives one path. -/
theorem forall₂_exportIndices (c : BlockConfig) (dump : NbdDump) (d : Text) :
    List.Forall₂ (c.IsExport dump d) (c.exportIndices dump d) (c.exports dump d) := by
  have hmem : ∀ e ∈ dump.entries.filter (fun e => (c.exported? d e.2).isSome), e ∈ dump.entries :=
    fun e he => (List.mem_filter.mp he).1
  have h := (List.forall₂_and_left _ _).mpr
    ⟨hmem, forall₂_filter_filterMap (fun e => c.exported? d e.2) dump.entries⟩
  rw [exports_eq_filterMap, exportIndices, List.forall₂_map_left_iff]
  apply h.imp
  intro e path ⟨he, hp⟩
  exact isExport_iff.mpr ⟨e.2, he, hp⟩

/-- Every device keeps its paths, and behind them come the paths of all the entries that are
exported for it, one for each and in the order of their indices. Without an address to listen on
nothing is exported. -/
theorem withExports_appends_by_index (c : BlockConfig) (dump : NbdDump) :
    (c.withExports dump).keys = c.devices.keys ∧
    (∀ d, ∃ indices paths,
      (c.withExports dump).find? d = (c.devices.find? d).map (· ++ paths) ∧
      indices.Pairwise (· < ·) ∧ (∀ i, i ∈ indices ↔ ∃ path, c.IsExport dump d i path) ∧
      List.Forall₂ (c.IsExport dump d) indices paths) ∧
    BlockConfig.withExports { c with listen := none } dump = c.devices := by
  refine ⟨keys_withExports c dump, fun d => ?_, rfl⟩
  refine ⟨c.exportIndices dump d, c.exports dump d, find?_withExports c dump d,
    exportIndices_increasing c dump d, fun i => mem_exportIndices_iff, forall₂_exportIndices c dump d⟩

end BlockConfig
end CacheHost
