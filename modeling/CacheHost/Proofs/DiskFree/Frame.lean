import CacheHost.Proofs.Command
import CacheHost.Proofs.DiskFree.Fill
import CacheHost.Proofs.DiskReport.Acceptance
import CacheHost.Proofs.Text.Order

namespace CacheHost

namespace DiskReport

/-- The place of a path among those asked for is the place of its row among the rows. -/
theorem eq_of_file_eq {output : Text} {paths : List Text} {us : List (Option DiskUsage)}
    (h : parse output paths = .ok us) (hd : paths.Nodup) {i j : Nat} {path : Text} {c : Columns}
    (hi : paths[i]? = some path) (hc : (Text.lines output)[j + 1]? = some c.text)
    (hf : c.file = path) : j = i := by
  obtain ⟨hlen, -, hrow⟩ := parse_eq_ok_iff.mp h
  have hj : j < paths.length := by
    have := (List.getElem?_eq_some_iff.mp hc).1
    omega
  obtain ⟨c', hc', hf', -⟩ := hrow j _ (List.getElem?_eq_getElem hj)
  have htext : c' = c := Columns.text_injective (Option.some.inj (hc'.symm.trans hc))
  have hpath : paths[j]? = paths[i]? := by
    rw [hi, List.getElem?_eq_getElem hj, ← hf', htext, hf]
  exact (List.getElem?_inj hj hd).mp hpath

end DiskReport

namespace DiskFreeMap
open DiskReport

theorem keys_pairwise_encode_lt (m : DiskFreeMap) :
    m.keys.Pairwise fun p q => Utf8.encode p < Utf8.encode q :=
  List.pairwise_map.mpr (m.increasing.imp Utf8.encode_lt_of_compare)

variable (df : Command) (run : List Text → Outcome) (m : DiskFreeMap)

structure Frames : Prop where
  /-- There is nothing to ask for. -/
  empty : m.keys = [] → m.fill df run = { map := m }
  question : m.keys ≠ [] → ∃ paths,
    (m.fill df run).run = some ("-B1".toList :: "--output=file,fstype,size,used,avail".toList ::
      "--".toList :: paths) ∧
    (∀ p, p ∈ paths ↔ ∃ v, m.find? p = some v) ∧
    paths.Pairwise fun p q => Utf8.encode p < Utf8.encode q
  /-- No other question is asked. -/
  once : ∀ run' : List Text → Outcome, (∀ arguments, (m.fill df run).run = some arguments →
    run' arguments = run arguments) → m.fill df run' = m.fill df run
  failure : ∀ e, (m.fill df run).failure = some e ↔ ∃ arguments,
    (m.fill df run).run = some arguments ∧ (df.Fails (run arguments) e ∨
      ∃ status stdout cause, run arguments = .ended status stdout ∧ status.isSuccess = true ∧
        parse (Utf8.decodeLossy stdout) m.keys = .error cause ∧
        e = .unexpectedOutput df.program cause.message)
  unchanged : ∀ e, (m.fill df run).failure = some e → (m.fill df run).map = m
  keys : (m.fill df run).map.keys = m.keys
  /-- Each key has a row of its own, which gives its usage unless it stands for a pseudo file
  system. -/
  rows : ∀ p v, (m.fill df run).failure = none → m.find? p = some v → ∃ arguments status stdout,
    (m.fill df run).run = some arguments ∧ run arguments = .ended status stdout ∧
    status.isSuccess = true ∧ ∃ (i : Nat) (c : Columns),
      (Text.lines (Utf8.decodeLossy stdout))[i + 1]? = some c.text ∧ c.file = p ∧
      (∀ (j : Nat) (c' : Columns),
        (Text.lines (Utf8.decodeLossy stdout))[j + 1]? = some c'.text → c'.file = p → j = i) ∧
      (m.fill df run).map.find? p =
        some (if c.fstype = "tmpfs".toList ∨ c.fstype = "devtmpfs".toList then v
          else .usage c.usage)

variable {df run m}

theorem run_fill (h : m.keys ≠ []) : (m.fill df run).run = some (arguments m.keys) := by
  cases ho : df.output (run (arguments m.keys)) with
  | error e => rw [fill_of_output_error h ho]
  | ok output =>
    cases hp : parse output m.keys with
    | error e => rw [fill_of_parse_error h ho hp]
    | ok us => rw [fill_of_parse_ok h ho hp]

theorem run_fill_eq_some_iff {args : List Text} :
    (m.fill df run).run = some args ↔ m.keys ≠ [] ∧ arguments m.keys = args := by
  by_cases h : m.keys = []
  · simp [fill_of_keys_eq_nil h, h]
  · simp [run_fill h, h]

theorem exists_parse_of_failure_eq_none (h : m.keys ≠ []) (hf : (m.fill df run).failure = none) :
    ∃ output us, df.output (run (arguments m.keys)) = .ok output ∧
      parse output m.keys = .ok us ∧ (m.fill df run).map = m.resolve us := by
  cases ho : df.output (run (arguments m.keys)) with
  | error e =>
    rw [fill_of_output_error h ho] at hf
    exact absurd hf nofun
  | ok output =>
    cases hp : parse output m.keys with
    | error e =>
      rw [fill_of_parse_error h ho hp] at hf
      exact absurd hf nofun
    | ok us =>
      rw [fill_of_parse_ok h ho hp]
      exact ⟨output, us, rfl, hp, rfl⟩

theorem find?_resolve_reported {us : List (Option DiskUsage)} {i : Nat} {p : Text} {v : DiskFree}
    {c : Columns} (hi : m.keys[i]? = some p) (hu : us[i]? = some c.reported)
    (hv : m.find? p = some v) : (m.resolve us).find? p =
      some (if c.fstype = "tmpfs".toList ∨ c.fstype = "devtmpfs".toList then v
        else .usage c.usage) := by
  have hz : (p, c.reported) ∈ m.keys.zip us := by
    apply List.mem_of_getElem? (i := i)
    rw [List.getElem?_zip_eq_some]
    exact ⟨hi, hu⟩
  rw [find?_resolve hz, hv, Columns.reported]
  split <;> rfl

/-- Whatever `df` answers, a look-up resolves all it can or leaves the map alone, and it never adds
a key or takes one away. -/
theorem fill_frames_map (df : Command) (run : List Text → Outcome) (m : DiskFreeMap) :
    Frames df run m where
  empty := fill_of_keys_eq_nil
  question h :=
    ⟨m.keys, run_fill h, fun _ => SortedMap.mem_keys_iff, keys_pairwise_encode_lt m⟩
  once run' h := by
    by_cases hk : m.keys = []
    · rw [fill_of_keys_eq_nil hk, fill_of_keys_eq_nil hk]
    · exact fill_congr (h _ (run_fill hk))
  failure e := by
    simp only [failure_fill_eq_some_iff, run_fill_eq_some_iff, Command.output_eq_error_iff]
    constructor
    · rintro ⟨hk, hfails | ⟨output, cause, ho, hp, rfl⟩⟩
      · exact ⟨_, ⟨hk, rfl⟩, .inl hfails⟩
      · obtain ⟨status, stdout, hrun, hs, rfl⟩ := Command.output_eq_ok_iff.mp ho
        exact ⟨_, ⟨hk, rfl⟩, .inr ⟨status, stdout, cause, hrun, hs, hp, rfl⟩⟩
    · rintro ⟨_, ⟨hk, rfl⟩, hfails | ⟨status, stdout, cause, hrun, hs, hp, rfl⟩⟩
      · exact ⟨hk, .inl hfails⟩
      · exact ⟨hk, .inr ⟨_, cause, Command.output_eq_ok_iff.mpr ⟨_, _, hrun, hs, rfl⟩, hp, rfl⟩⟩
  unchanged e h := by
    rcases fill_cases df run m with hmap | ⟨_, _, _, _, hok⟩
    · exact hmap
    · rw [hok] at h
      exact absurd h nofun
  keys := keys_fill df run m
  rows p v hf hv := by
    have hp : p ∈ m.keys := SortedMap.mem_keys_iff.mpr ⟨v, hv⟩
    have hk : m.keys ≠ [] := List.ne_nil_of_mem hp
    obtain ⟨output, us, ho, hparse, hmap⟩ := exists_parse_of_failure_eq_none hk hf
    obtain ⟨status, stdout, hrun, hs, rfl⟩ := Command.output_eq_ok_iff.mp ho
    -- the row at the place of the key among the keys
    obtain ⟨i, hi⟩ := List.mem_iff_getElem?.mp hp
    obtain ⟨c, hc, hfile, hu⟩ := (parse_eq_ok_iff.mp hparse).2.2 i p hi
    refine ⟨_, status, stdout, run_fill hk, hrun, hs, i, c, hc, hfile, ?_, ?_⟩
    · intro j c' hc' hfile'
      exact eq_of_file_eq hparse (SortedMap.keys_nodup m) hi hc' hfile'
    · rw [hmap]
      exact find?_resolve_reported hi hu hv

end DiskFreeMap
end CacheHost
