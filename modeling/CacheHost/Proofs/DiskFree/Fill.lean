import CacheHost.DiskReport
import CacheHost.Proofs.SortedMap

namespace CacheHost.DiskFreeMap

def settle (m : DiskFreeMap) (e : Text × Option DiskUsage) : DiskFreeMap :=
  match e.2 with
  | some u => m.insert e.1 (.usage u)
  | none => m

theorem resolve_eq_foldl (m : DiskFreeMap) (us : List (Option DiskUsage)) :
    m.resolve us = (m.keys.zip us).foldl settle m := rfl

theorem find?_settle (m : DiskFreeMap) (p q : Text) (u : Option DiskUsage) :
    (m.settle (p, u)).find? q = if p = q then (u.map .usage).or (m.find? q) else m.find? q := by
  cases u with
  | none => simp [settle]
  | some u => exact SortedMap.find?_insert m p q _

theorem keys_settle {m : DiskFreeMap} {p : Text} {u : Option DiskUsage} (h : p ∈ m.keys) :
    (m.settle (p, u)).keys = m.keys := by
  cases u with
  | none => rfl
  | some u => exact SortedMap.keys_insert_of_mem h

theorem keys_foldl_settle {es : List (Text × Option DiskUsage)} {m : DiskFreeMap}
    (h : ∀ e ∈ es, e.1 ∈ m.keys) : (es.foldl settle m).keys = m.keys := by
  induction es generalizing m with
  | nil => rfl
  | cons e es ih =>
    obtain ⟨he, hes⟩ := List.forall_mem_cons.mp h
    have hk : (m.settle e).keys = m.keys := keys_settle he
    rw [List.foldl_cons, ih (by rwa [hk]), hk]

theorem find?_foldl_settle_of_notMem {es : List (Text × Option DiskUsage)} {m : DiskFreeMap}
    {p : Text} (h : p ∉ es.map (·.1)) : (es.foldl settle m).find? p = m.find? p := by
  induction es generalizing m with
  | nil => rfl
  | cons e es ih =>
    obtain ⟨he, hes⟩ := List.ne_and_not_mem_of_not_mem_cons h
    rw [List.foldl_cons, ih hes, find?_settle, if_neg he.symm]

theorem find?_foldl_settle_of_mem {es : List (Text × Option DiskUsage)} {m : DiskFreeMap}
    {p : Text} {u : Option DiskUsage} (hd : (es.map (·.1)).Nodup) (h : (p, u) ∈ es) :
    (es.foldl settle m).find? p = (u.map .usage).or (m.find? p) := by
  induction es generalizing m with
  | nil => simp at h
  | cons e es ih =>
    obtain ⟨he, hes⟩ := List.nodup_cons.mp hd
    rw [List.foldl_cons]
    rcases List.mem_cons.mp h with rfl | h
    · rw [find?_foldl_settle_of_notMem he, find?_settle, if_pos rfl]
    · -- the first entry is about another key
      have hp : p ∈ es.map (·.1) := List.mem_map.mpr ⟨(p, u), h, rfl⟩
      have hne : e.1 ≠ p := (ne_of_mem_of_not_mem hp he).symm
      rw [ih hes h, find?_settle, if_neg hne]

theorem map_fst_zip_sublist {α β : Type} {xs : List α} {ys : List β} :
    ((xs.zip ys).map (·.1)).Sublist xs := by
  induction xs generalizing ys with
  | nil => simp
  | cons x xs ih =>
    cases ys with
    | nil => simp
    | cons y ys => exact ih.cons_cons x

theorem keys_resolve (m : DiskFreeMap) (us : List (Option DiskUsage)) :
    (m.resolve us).keys = m.keys := by
  rw [resolve_eq_foldl]
  apply keys_foldl_settle
  intro e he
  exact (List.of_mem_zip he).1

/-- No key occurs twice, so nothing that is said of another key changes what is said of this one. -/
theorem find?_resolve {m : DiskFreeMap} {us : List (Option DiskUsage)} {p : Text}
    {u : Option DiskUsage} (h : (p, u) ∈ m.keys.zip us) :
    (m.resolve us).find? p = (u.map .usage).or (m.find? p) := by
  rw [resolve_eq_foldl]
  exact find?_foldl_settle_of_mem ((SortedMap.keys_nodup m).sublist map_fst_zip_sublist) h

variable {df : Command} {run : List Text → Outcome} {m : DiskFreeMap}

/-- Only the answer to these arguments counts. -/
theorem fill_congr {run' : List Text → Outcome}
    (h : run' (DiskReport.arguments m.keys) = run (DiskReport.arguments m.keys)) :
    m.fill df run' = m.fill df run := by
  simp only [fill, h]

theorem fill_of_keys_eq_nil (h : m.keys = []) : m.fill df run = { map := m } := if_pos h

theorem fill_of_output_error {e : StageError} (h : m.keys ≠ [])
    (ho : df.output (run (DiskReport.arguments m.keys)) = .error e) :
    m.fill df run = ⟨m, some (DiskReport.arguments m.keys), some e⟩ := by
  simp only [fill, if_neg h, ho]

theorem fill_of_parse_error {output : Text} {e : DiskReport.Error} (h : m.keys ≠ [])
    (ho : df.output (run (DiskReport.arguments m.keys)) = .ok output)
    (hp : DiskReport.parse output m.keys = .error e) :
    m.fill df run = ⟨m, some (DiskReport.arguments m.keys),
      some (.unexpectedOutput df.program e.message)⟩ := by
  simp only [fill, if_neg h, ho, hp]

theorem fill_of_parse_ok {output : Text} {us : List (Option DiskUsage)} (h : m.keys ≠ [])
    (ho : df.output (run (DiskReport.arguments m.keys)) = .ok output)
    (hp : DiskReport.parse output m.keys = .ok us) :
    m.fill df run = ⟨m.resolve us, some (DiskReport.arguments m.keys), none⟩ := by
  simp only [fill, if_neg h, ho, hp]

theorem failure_fill_eq_some_iff {e : StageError} : (m.fill df run).failure = some e ↔
    m.keys ≠ [] ∧ (df.output (run (DiskReport.arguments m.keys)) = .error e ∨
      ∃ output cause, df.output (run (DiskReport.arguments m.keys)) = .ok output ∧
        DiskReport.parse output m.keys = .error cause ∧
        .unexpectedOutput df.program cause.message = e) := by
  by_cases h : m.keys = []
  · simp [fill_of_keys_eq_nil h, h]
  cases ho : df.output (run (DiskReport.arguments m.keys)) with
  | error cause => simp [fill_of_output_error h ho, h]
  | ok output =>
    cases hp : DiskReport.parse output m.keys with
    | error cause => simp [fill_of_parse_error h ho hp, h, hp]
    | ok us => simp [fill_of_parse_ok h ho hp, hp]

/-- A map that is not left as it was comes from a report that was read to its end. -/
theorem fill_cases (df : Command) (run : List Text → Outcome) (m : DiskFreeMap) :
    (m.fill df run).map = m ∨ ∃ output us,
      df.output (run (DiskReport.arguments m.keys)) = .ok output ∧
      DiskReport.parse output m.keys = .ok us ∧
      m.fill df run = ⟨m.resolve us, some (DiskReport.arguments m.keys), none⟩ := by
  by_cases h : m.keys = []
  · exact .inl (by rw [fill_of_keys_eq_nil h])
  cases ho : df.output (run (DiskReport.arguments m.keys)) with
  | error e => exact .inl (by rw [fill_of_output_error h ho])
  | ok output =>
    cases hp : DiskReport.parse output m.keys with
    | error e => exact .inl (by rw [fill_of_parse_error h ho hp])
    | ok us => exact .inr ⟨output, us, rfl, hp, fill_of_parse_ok h ho hp⟩

theorem keys_fill (df : Command) (run : List Text → Outcome) (m : DiskFreeMap) :
    (m.fill df run).map.keys = m.keys := by
  rcases fill_cases df run m with h | ⟨output, us, -, -, h⟩
  · rw [h]
  · rw [h, keys_resolve]

theorem mem_keys_seed {devices : DeviceMap} {p : Text} :
    p ∈ (seed devices).keys ↔ ∃ d ps, devices.find? d = some ps ∧ p ∈ ps := by
  rw [seed, SortedMap.mem_keys_ofList, List.map_map, DeviceMap.paths]
  simp only [List.mem_map, List.mem_flatten, SortedMap.mem_values_iff, Function.comp_apply,
    exists_eq_right]
  constructor
  · intro ⟨ps, ⟨d, hd⟩, hp⟩
    exact ⟨d, ps, hd, hp⟩
  · intro ⟨d, ps, hd, hp⟩
    exact ⟨ps, ⟨d, hd⟩, hp⟩

theorem find?_seed {devices : DeviceMap} {p : Text} (h : p ∈ (seed devices).keys) :
    (seed devices).find? p = some .unresolved := by
  obtain ⟨v, hv⟩ := SortedMap.mem_keys_iff.mp h
  obtain ⟨e, he, rfl⟩ : ∃ e ∈ devices.paths.map (·, DiskFree.unresolved), e.2 = v := by
    rw [seed, SortedMap.ofList, SortedMap.find?_foldl_insert, SortedMap.find?_empty,
      Option.or_none] at hv
    obtain ⟨e, he, hev⟩ := Option.map_eq_some_iff.mp hv
    exact ⟨e, List.mem_reverse.mp (List.mem_of_find?_eq_some he), hev⟩
  obtain ⟨q, -, rfl⟩ := List.mem_map.mp he
  exact hv

/-- Nothing is known of a new map: after a look-up it knows what the report tells, or still
nothing. -/
theorem fill_seed_cases (df : Command) (run : List Text → Outcome) (devices : DeviceMap) :
    (∀ p ∈ (seed devices).keys,
      ((seed devices).fill df run).map.find? p = some .unresolved) ∨
    ∃ output us, df.output (run (DiskReport.arguments (seed devices).keys)) = .ok output ∧
      DiskReport.parse output (seed devices).keys = .ok us ∧
      ((seed devices).fill df run).run = some (DiskReport.arguments (seed devices).keys) ∧
      ∀ p u, (p, u) ∈ (seed devices).keys.zip us →
        ((seed devices).fill df run).map.find? p = some (u.elim .unresolved .usage) := by
  rcases fill_cases df run (seed devices) with h | ⟨output, us, ho, hp, h⟩
  · left
    intro p hk
    rw [h, find?_seed hk]
  · refine .inr ⟨output, us, ho, hp, by rw [h], fun p u hz => ?_⟩
    rw [h]
    change ((seed devices).resolve us).find? p = _
    rw [find?_resolve hz, find?_seed (List.of_mem_zip hz).1]
    cases u <;> rfl

end CacheHost.DiskFreeMap
