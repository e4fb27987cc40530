import CacheHost.Proofs.DiskReport.Columns

namespace CacheHost.DiskReport

/-- What a row tells of its path: nothing, if it stands on a pseudo file system. -/
def Columns.reported (c : Columns) : Option DiskUsage :=
  if c.fstype = "tmpfs".toList ∨ c.fstype = "devtmpfs".toList then none else some c.usage

inductive Offends (path line : Text) : Error → Prop
  | malformed : (∀ c : Columns, c.text ≠ line) → Offends path line (.malformed line)
  | misplaced (c : Columns) : c.text = line → c.file ≠ path →
      Offends path line (.misplaced c.file path)

variable {path line : Text}

theorem isPseudo_iff {fstype : Text} :
    isPseudo fstype = true ↔ fstype = "tmpfs".toList ∨ fstype = "devtmpfs".toList := by
  rw [isPseudo, Bool.or_eq_true, decide_eq_true_iff, decide_eq_true_iff]

theorem usageFor_text (c : Columns) : usageFor path c.text =
    if c.file = path then .ok c.reported else .error (.misplaced c.file path) := by
  rw [usageFor, row?_text]
  simp only [Columns.row, Columns.reported, isPseudo_iff]

theorem usageFor_of_forall_ne (h : ∀ c : Columns, c.text ≠ line) :
    usageFor path line = .error (.malformed line) := by
  have hr : row? line = none := by
    apply Option.eq_none_iff_forall_ne_some.mpr
    intro row hrow
    obtain ⟨c, hc, -⟩ := row?_eq_some_iff.mp hrow
    exact h c hc
  rw [usageFor, hr]

theorem usageFor_eq_ok_iff {u : Option DiskUsage} : usageFor path line = .ok u ↔
    ∃ c : Columns, c.text = line ∧ c.file = path ∧ c.reported = u := by
  by_cases h : ∃ c : Columns, c.text = line
  · obtain ⟨c, rfl⟩ := h
    rw [usageFor_text]
    constructor
    · intro hu
      split at hu
      · rename_i hf
        exact ⟨c, rfl, hf, Except.ok.inj hu⟩
      · simp at hu
    · intro ⟨c', hc, hf, hu⟩
      obtain rfl := Columns.text_injective hc
      rw [if_pos hf, hu]
  · rw [usageFor_of_forall_ne (not_exists.mp h)]
    constructor
    · intro hu
      simp at hu
    · intro ⟨c, hc, _⟩
      exact absurd ⟨c, hc⟩ h

theorem usageFor_eq_error_iff {e : Error} :
    usageFor path line = .error e ↔ Offends path line e := by
  by_cases h : ∃ c : Columns, c.text = line
  · obtain ⟨c, rfl⟩ := h
    rw [usageFor_text]
    constructor
    · intro he
      split at he
      · simp at he
      · rename_i hf
        exact Except.error.inj he ▸ .misplaced c rfl hf
    · intro ho
      cases ho with
      | malformed hm => exact absurd rfl (hm c)
      | misplaced c' hc hf =>
        obtain rfl := Columns.text_injective hc
        rw [if_neg hf]
  · rw [usageFor_of_forall_ne (not_exists.mp h)]
    constructor
    · intro he
      exact Except.error.inj he ▸ .malformed (not_exists.mp h)
    · intro ho
      cases ho with
      | malformed _ => rfl
      | misplaced c hc _ => exact absurd ⟨c, hc⟩ h

theorem usages_cons {paths lines : List Text} : usages (path :: paths) (line :: lines) =
    (usageFor path line).bind fun u => (usages paths lines).bind fun us => .ok (u :: us) := rfl

theorem usages_cons_eq_ok_iff {paths lines : List Text} {us : List (Option DiskUsage)} :
    usages (path :: paths) (line :: lines) = .ok us ↔
      ∃ u us', us = u :: us' ∧ usageFor path line = .ok u ∧ usages paths lines = .ok us' := by
  rw [usages_cons]
  cases usageFor path line with
  | error e => simp [Except.bind]
  | ok u =>
    cases usages paths lines with
    | error e => simp [Except.bind]
    | ok us' => simp [Except.bind, eq_comm]

theorem usages_cons_eq_error_iff {paths lines : List Text} {e : Error} :
    usages (path :: paths) (line :: lines) = .error e ↔ usageFor path line = .error e ∨
      (∃ u, usageFor path line = .ok u) ∧ usages paths lines = .error e := by
  rw [usages_cons]
  cases usageFor path line with
  | error e' => simp [Except.bind]
  | ok u =>
    cases usages paths lines with
    | error e' => simp [Except.bind]
    | ok us' => simp [Except.bind]

theorem usages_eq_ok_iff {paths lines : List Text} {us : List (Option DiskUsage)}
    (hlen : lines.length = paths.length) : usages paths lines = .ok us ↔
      us.length = paths.length ∧ ∀ (i : Nat) (path line : Text), paths[i]? = some path →
        lines[i]? = some line → ∃ u, us[i]? = some u ∧ usageFor path line = .ok u := by
  induction paths generalizing lines us with
  | nil => simp [usages, eq_comm]
  | cons path paths ih =>
    -- a path more needs a line more, and gives a usage more
    obtain ⟨line, lines, rfl⟩ := List.exists_cons_of_length_eq_add_one hlen
    have hlen' : lines.length = paths.length := by simpa using hlen
    rw [usages_cons_eq_ok_iff]
    constructor
    · intro ⟨u, us', hus, hu, hr⟩
      subst hus
      obtain ⟨hl, hi⟩ := (ih hlen').mp hr
      refine ⟨by simp [hl], fun i => ?_⟩
      cases i with
      | zero => simp [hu]
      | succ i => simpa using hi i
    · intro ⟨hl, hi⟩
      obtain ⟨u, us', rfl⟩ := List.exists_cons_of_length_eq_add_one hl
      obtain ⟨u', hu', hu⟩ := hi 0 path line rfl rfl
      obtain rfl : u = u' := by simpa using hu'
      refine ⟨u, us', rfl, hu, (ih hlen').mpr ⟨by simpa using hl, fun i p l hp hl => ?_⟩⟩
      simpa using hi (i + 1) p l (by simpa using hp) (by simpa using hl)

/-- The rows are read in order, so the first that is wrong decides. -/
theorem usages_eq_error_iff {paths lines : List Text} {e : Error} : usages paths lines = .error e ↔
      ∃ (i : Nat) (path line : Text), paths[i]? = some path ∧ lines[i]? = some line ∧
        usageFor path line = .error e ∧ ∀ (j : Nat) (path line : Text), j < i →
          paths[j]? = some path → lines[j]? = some line → ∃ u, usageFor path line = .ok u := by
  induction paths generalizing lines with
  | nil => simp [usages]
  | cons path paths ih =>
    cases lines with
    | nil => simp [usages]
    | cons line lines =>
      rw [usages_cons_eq_error_iff, ih]
      constructor
      · intro h
        rcases h with he | ⟨hu, i, p, l, hp, hl, he, hj⟩
        · exact ⟨0, path, line, rfl, rfl, he, fun j _ _ hj => absurd hj (Nat.not_lt_zero j)⟩
        · -- the first row is right, so the rows before the wrong one are it and those of the rest
          refine ⟨i + 1, p, l, by simpa using hp, by simpa using hl, he, fun j p' l' hji => ?_⟩
          cases j with
          | zero =>
            intro hp' hl'
            obtain rfl : path = p' := by simpa using hp'
            obtain rfl : line = l' := by simpa using hl'
            exact hu
          | succ j => simpa using hj j p' l' (Nat.lt_of_succ_lt_succ hji)
      · intro ⟨i, p, l, hp, hl, he, hj⟩
        cases i with
        | zero =>
          obtain rfl : path = p := by simpa using hp
          obtain rfl : line = l := by simpa using hl
          exact .inl he
        | succ i =>
          refine .inr ⟨hj 0 path line (Nat.zero_lt_succ i) rfl rfl, i, p, l, by simpa using hp,
            by simpa using hl, he, fun j p' l' hji hp' hl' => ?_⟩
          exact hj (j + 1) p' l' (Nat.succ_lt_succ hji) (by simpa using hp') (by simpa using hl')

/-- The lines of a report that has one row for each path. -/
theorem parse_of_length {output : Text} {paths : List Text}
    (h : (Text.lines output).length = paths.length + 1) :
    parse output paths = usages paths (Text.lines output).tail := if_pos h

theorem parse_of_length_ne {output : Text} {paths : List Text}
    (h : (Text.lines output).length ≠ paths.length + 1) :
    parse output paths = .error (.lineCount paths.length (Text.lines output).length) := if_neg h

theorem parse_eq_ok_iff {output : Text} {paths : List Text} {us : List (Option DiskUsage)} :
    parse output paths = .ok us ↔ (Text.lines output).length = paths.length + 1 ∧
      us.length = paths.length ∧ ∀ (i : Nat) (path : Text), paths[i]? = some path →
        ∃ c : Columns, (Text.lines output)[i + 1]? = some c.text ∧ c.file = path ∧
          us[i]? = some c.reported := by
  by_cases h : (Text.lines output).length = paths.length + 1
  · have hlen : (Text.lines output).tail.length = paths.length := by simp [h]
    rw [parse_of_length h, usages_eq_ok_iff hlen]
    simp only [h, true_and, List.getElem?_tail]
    apply and_congr_right
    intro hus
    constructor
    · intro hi i path hp
      have hlt : i + 1 < (Text.lines output).length := by
        have := (List.getElem?_eq_some_iff.mp hp).1
        omega
      obtain ⟨u, hu, ho⟩ := hi i path _ hp (List.getElem?_eq_getElem hlt)
      obtain ⟨c, hc, hf, rfl⟩ := usageFor_eq_ok_iff.mp ho
      exact ⟨c, hc ▸ List.getElem?_eq_getElem hlt, hf, hu⟩
    · intro hi i path line hp hl
      obtain ⟨c, hc, hf, hu⟩ := hi i path hp
      exact ⟨_, hu, usageFor_eq_ok_iff.mpr ⟨c, Option.some.inj (hc.symm.trans hl), hf, rfl⟩⟩
  · rw [parse_of_length_ne h]
    simp [h]

theorem parse_eq_error_iff {output : Text} {paths : List Text} {e : Error} :
    parse output paths = .error e ↔
      (Text.lines output).length ≠ paths.length + 1 ∧
        e = .lineCount paths.length (Text.lines output).length ∨
      (Text.lines output).length = paths.length + 1 ∧ ∃ (i : Nat) (path line : Text),
        paths[i]? = some path ∧ (Text.lines output)[i + 1]? = some line ∧ Offends path line e ∧
          ∀ j, j < i → ∃ c : Columns, (Text.lines output)[j + 1]? = some c.text ∧
            paths[j]? = some c.file := by
  by_cases h : (Text.lines output).length = paths.length + 1
  · rw [parse_of_length h, usages_eq_error_iff]
    simp only [h, ne_eq, not_true_eq_false, false_and, false_or, true_and, List.getElem?_tail,
      usageFor_eq_error_iff]
    constructor
    · intro ⟨i, path, line, hp, hl, ho, hj⟩
      refine ⟨i, path, line, hp, hl, ho, fun j hji => ?_⟩
      have hjp : j < paths.length := Nat.lt_trans hji (List.getElem?_eq_some_iff.mp hp).1
      have hjl : j + 1 < (Text.lines output).length := by omega
      obtain ⟨u, hu⟩ := hj j _ _ hji (List.getElem?_eq_getElem hjp) (List.getElem?_eq_getElem hjl)
      obtain ⟨c, hc, hf, -⟩ := usageFor_eq_ok_iff.mp hu
      exact ⟨c, hc ▸ List.getElem?_eq_getElem hjl, hf ▸ List.getElem?_eq_getElem hjp⟩
    · intro ⟨i, path, line, hp, hl, ho, hj⟩
      refine ⟨i, path, line, hp, hl, ho, fun j p l hji hp' hl' => ?_⟩
      obtain ⟨c, hc, hf⟩ := hj j hji
      exact ⟨_, usageFor_eq_ok_iff.mpr
        ⟨c, Option.some.inj (hc.symm.trans hl'), Option.some.inj (hf.symm.trans hp'), rfl⟩⟩
  · rw [parse_of_length_ne h]
    simp [h, eq_comm]

/-- Which reports are accepted and what each row tells, that a row can be cut in one way only, that
the header is not looked at, and what a refusal reports. -/
theorem parse_accepts_exactly (output : Text) (paths : List Text) :
    (∀ us, parse output paths = .ok us ↔ (Text.lines output).length = paths.length + 1 ∧
      us.length = paths.length ∧ ∀ (i : Nat) (path : Text), paths[i]? = some path →
        ∃ c : Columns, (Text.lines output)[i + 1]? = some c.text ∧ c.file = path ∧
          us[i]? = some c.reported) ∧
    (∀ c c' : Columns, c.text = c'.text → c = c') ∧
    (∀ output', (Text.lines output').length = (Text.lines output).length →
      (Text.lines output').tail = (Text.lines output).tail →
        parse output' paths = parse output paths) ∧
    ∀ e, parse output paths = .error e ↔
      (Text.lines output).length ≠ paths.length + 1 ∧
        e = .lineCount paths.length (Text.lines output).length ∨
      (Text.lines output).length = paths.length + 1 ∧ ∃ (i : Nat) (path line : Text),
        paths[i]? = some path ∧ (Text.lines output)[i + 1]? = some line ∧ Offends path line e ∧
          ∀ j, j < i → ∃ c : Columns, (Text.lines output)[j + 1]? = some c.text ∧
            paths[j]? = some c.file := by
  refine ⟨fun _ => parse_eq_ok_iff, fun _ _ => Columns.text_injective, ?_, fun _ =>
    parse_eq_error_iff⟩
  intro output' hlen htail
  simp only [parse, hlen, htail]

/-- A path may look like a row itself. -/
example : parse "\n/a xfs 1 2 3\text4  +5 007 6 \n/b tmpfs 1 2 3".toList
    ["/a xfs 1 2 3".toList, "/b".toList] = .ok [some ⟨5, 7, 6⟩, none] := by decide

end CacheHost.DiskReport
