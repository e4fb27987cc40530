import CacheHost.Proofs.BlockConfig.Line
import CacheHost.Proofs.SortedMap
import Mathlib.Data.List.Induction
/-!
Which directory a device gets. A header and a `cachedir` line bind if no line between them is either
of the two, and the last binding of a device counts; a configuration is read line by line, so each
statement is an induction on the lines from the end.
-/
namespace CacheHost.BlockConfig

def Line.IsQuiet : Line → Prop
  | .header _ | .cachedir _ => False
  | .comment | .listen _ | .other => True

/-- The header on line `i` is the last line that is not quiet. -/
structure Waits (ls : List Line) (i : Nat) (device : Text) : Prop where
  header : ls[i]? = some (.header device)
  quiet : ∀ k l, i < k → ls[k]? = some l → l.IsQuiet

/-- The directory on line `j` belongs to the header on line `i`. -/
structure Binds (ls : List Line) (i j : Nat) (device path : Text) : Prop where
  lt : i < j
  header : ls[i]? = some (.header device)
  cachedir : ls[j]? = some (.cachedir path)
  quiet : ∀ k l, i < k → k < j → ls[k]? = some l → l.IsQuiet

def BindsLast (ls : List Line) (device path : Text) : Prop :=
  ∃ i j, Binds ls i j device path ∧ ∀ i' j' path', i < i' → ¬Binds ls i' j' device path'

variable {ls : List Line} {l : Line} {i j : Nat} {device path : Text}

theorem getElem?_concat_eq {k : Nat} (l' : Line) :
    (ls ++ [l])[k]? = some l' ↔ ls[k]? = some l' ∨ k = ls.length ∧ l = l' := by
  rw [List.getElem?_append]
  split
  · rename_i hk
    simp [Nat.ne_of_lt hk]
  · rename_i hk
    rw [List.getElem?_eq_none (Nat.le_of_not_lt hk), List.getElem?_singleton]
    split <;> simp <;> omega

theorem lt_length {l' : Line} (h : ls[i]? = some l') : i < ls.length :=
  (List.getElem?_eq_some_iff.mp h).1

theorem waits_concat_header {device' : Text} :
    Waits (ls ++ [.header device']) i device ↔ i = ls.length ∧ device' = device := by
  constructor
  · intro ⟨hh, hq⟩
    rcases (getElem?_concat_eq _).mp hh with hh | ⟨hi, hd⟩
    · -- an older header does not wait any more, as the new one is not quiet
      have := hq ls.length _ (lt_length hh) ((getElem?_concat_eq _).mpr (.inr ⟨rfl, rfl⟩))
      exact this.elim
    · exact ⟨hi, by simpa using hd⟩
  · rintro ⟨rfl, rfl⟩
    refine ⟨(getElem?_concat_eq _).mpr (.inr ⟨rfl, rfl⟩), fun k l hk hl => ?_⟩
    have := lt_length hl
    simp at this
    omega

theorem not_waits_concat_cachedir : ¬Waits (ls ++ [.cachedir path]) i device := by
  intro ⟨hh, hq⟩
  rcases (getElem?_concat_eq _).mp hh with hh | ⟨-, hd⟩
  · exact hq ls.length _ (lt_length hh) ((getElem?_concat_eq _).mpr (.inr ⟨rfl, rfl⟩))
  · simp at hd

theorem waits_concat_quiet (hl : l.IsQuiet) : Waits (ls ++ [l]) i device ↔ Waits ls i device := by
  constructor
  · intro ⟨hh, hq⟩
    rcases (getElem?_concat_eq _).mp hh with hh | ⟨-, rfl⟩
    · exact ⟨hh, fun k l' hk hl' => hq k l' hk ((getElem?_concat_eq _).mpr (.inl hl'))⟩
    · exact hl.elim
  · intro ⟨hh, hq⟩
    refine ⟨(getElem?_concat_eq _).mpr (.inl hh), fun k l' hk hl' => ?_⟩
    rcases (getElem?_concat_eq _).mp hl' with hl' | ⟨-, rfl⟩
    · exact hq k l' hk hl'
    · exact hl

theorem ofLines_concat (ls : List Line) (l : Line) : ofLines (ls ++ [l]) = (ofLines ls).add l := by
  simp [ofLines]

theorem waiting_eq_some_iff : (ofLines ls).waiting = some device ↔ ∃ i, Waits ls i device := by
  induction ls using List.reverseRecOn with
  | nil =>
    constructor
    · intro h
      simp [ofLines] at h
    · intro ⟨i, hh, _⟩
      simp at hh
  | append_singleton ls l ih =>
    rw [ofLines_concat]
    cases l with
    | header device' => simp [Draft.add, waits_concat_header]
    | cachedir path =>
      simp only [not_waits_concat_cachedir, exists_false, iff_false, Draft.add]
      split <;> simp [*]
    | comment | listen _ | other =>
      exact ih.trans (exists_congr fun i => (waits_concat_quiet (by trivial)).symm)

theorem Waits.unique {i' : Nat} {device' : Text} (h : Waits ls i device)
    (h' : Waits ls i' device') : i = i' ∧ device = device' := by
  have hi : i = i' := by
    rcases Nat.lt_trichotomy i i' with hlt | heq | hlt
    · exact (h.quiet i' _ hlt h'.header).elim
    · exact heq
    · exact (h'.quiet i _ hlt h.header).elim
  subst hi
  exact ⟨rfl, by simpa using h.header.symm.trans h'.header⟩

/-- A line adds at most one binding, that of the header which waits for it. -/
theorem binds_concat : Binds (ls ++ [l]) i j device path ↔
    Binds ls i j device path ∨ j = ls.length ∧ l = .cachedir path ∧ Waits ls i device := by
  constructor
  · intro ⟨hlt, hh, hc, hq⟩
    rcases (getElem?_concat_eq _).mp hc with hc | ⟨rfl, rfl⟩
    · have hh' : ls[i]? = some (.header device) := by
        rwa [List.getElem?_append_left (Nat.lt_trans hlt (lt_length hc))] at hh
      exact .inl ⟨hlt, hh', hc, fun k l' hk hkj hl' =>
        hq k l' hk hkj ((getElem?_concat_eq _).mpr (.inl hl'))⟩
    · rw [List.getElem?_append_left hlt] at hh
      exact .inr ⟨rfl, rfl, hh, fun k l' hk hl' =>
        hq k l' hk (lt_length hl') ((getElem?_concat_eq _).mpr (.inl hl'))⟩
  · rintro (⟨hlt, hh, hc, hq⟩ | ⟨rfl, rfl, hh, hq⟩)
    · refine ⟨hlt, (getElem?_concat_eq _).mpr (.inl hh), (getElem?_concat_eq _).mpr (.inl hc), ?_⟩
      intro k l' hk hkj hl'
      rw [List.getElem?_append_left (Nat.lt_trans hkj (lt_length hc))] at hl'
      exact hq k l' hk hkj hl'
    · refine ⟨lt_length hh, (getElem?_concat_eq _).mpr (.inl hh),
        (getElem?_concat_eq _).mpr (.inr ⟨rfl, rfl⟩), ?_⟩
      intro k l' hk hkj hl'
      rw [List.getElem?_append_left hkj] at hl'
      exact hq k l' hk hl'

theorem Binds.lt_length (h : Binds ls i j device path) : j < ls.length :=
  BlockConfig.lt_length h.cachedir

theorem Binds.lt_of_waits {i' : Nat} {device' : Text} (h : Binds ls i j device path)
    (hw : Waits ls i' device') : i < i' := by
  rcases Nat.lt_trichotomy i i' with hlt | rfl | hlt
  · exact hlt
  · exact (hw.quiet j _ h.lt h.cachedir).elim
  · exact (hw.quiet i _ hlt h.header).elim

/-- A line that completes no binding of a device leaves its last binding. -/
theorem bindsLast_concat_of_not (h : ∀ i path, Waits ls i device → l ≠ .cachedir path) :
    BindsLast (ls ++ [l]) device path ↔ BindsLast ls device path := by
  have hb : ∀ i j path, Binds (ls ++ [l]) i j device path ↔ Binds ls i j device path := by
    intro i j path
    rw [binds_concat]
    exact or_iff_left fun ⟨_, hl, hw⟩ => h i path hw hl
  simp only [BindsLast, hb]

theorem bindsLast_concat_of_waits {path' : Text} (hw : Waits ls i device) :
    BindsLast (ls ++ [.cachedir path]) device path' ↔ path' = path := by
  have hnew : Binds (ls ++ [.cachedir path]) i ls.length device path :=
    binds_concat.mpr (.inr ⟨rfl, rfl, hw⟩)
  constructor
  · intro ⟨i', j', hb, hlast⟩
    rcases binds_concat.mp hb with hb | ⟨-, hl, -⟩
    · -- an old binding is not the last one, as its header stands above the one that waits
      exact (hlast i _ _ (hb.lt_of_waits hw) hnew).elim
    · exact (Line.cachedir.inj hl).symm
  · rintro rfl
    refine ⟨i, _, hnew, fun i' j' q hi' hb => ?_⟩
    rcases binds_concat.mp hb with hb | ⟨-, -, hw'⟩
    · exact Nat.lt_asymm hi' (hb.lt_of_waits hw)
    · exact Nat.ne_of_lt hi' (hw.unique hw').1

theorem find?_devices_ofLines {paths : List Text} :
    (ofLines ls).config.devices.find? device = some paths ↔
      ∃ path, paths = [path] ∧ BindsLast ls device path := by
  induction ls using List.reverseRecOn with
  | nil =>
    constructor
    · intro h
      simp [ofLines] at h
    · intro ⟨path, _, i, j, hb, _⟩
      exact absurd hb.lt_length (Nat.not_lt_zero j)
  | append_singleton ls l ih =>
    rw [ofLines_concat]
    by_cases hl : ∃ i path, Waits ls i device ∧ l = .cachedir path
    · obtain ⟨i, path, hw, rfl⟩ := hl
      simp only [Draft.add, waiting_eq_some_iff.mpr ⟨i, hw⟩, SortedMap.find?_insert, if_true,
        Option.some.injEq, bindsLast_concat_of_waits hw]
      constructor
      · rintro rfl
        exact ⟨path, rfl, rfl⟩
      · rintro ⟨_, rfl, rfl⟩
        rfl
    · have hnot : ∀ i path, Waits ls i device → l ≠ .cachedir path :=
        fun i path hw he => hl ⟨i, path, hw, he⟩
      simp only [bindsLast_concat_of_not hnot, ← ih]
      cases l with
      | cachedir path =>
        simp only [Draft.add]
        split
        · rename_i device' hd
          -- the directory goes to another device
          have hne : device' ≠ device := by
            rintro rfl
            obtain ⟨i, hw⟩ := waiting_eq_some_iff.mp hd
            exact hnot i path hw rfl
          simp only [SortedMap.find?_insert, if_neg hne]
        · rfl
      | header _ | comment | listen _ | other => rfl

theorem exists_bindsLast (h : Binds ls i j device path) : ∃ path', BindsLast ls device path' := by
  induction ls using List.reverseRecOn generalizing i j path with
  | nil => exact absurd h.lt_length (Nat.not_lt_zero j)
  | append_singleton ls l ih =>
    by_cases hl : ∃ i path, Waits ls i device ∧ l = .cachedir path
    · obtain ⟨i, path, hw, rfl⟩ := hl
      exact ⟨path, (bindsLast_concat_of_waits hw).mpr rfl⟩
    · have hnot : ∀ i path, Waits ls i device → l ≠ .cachedir path :=
        fun i path hw he => hl ⟨i, path, hw, he⟩
      simp only [bindsLast_concat_of_not hnot]
      rcases binds_concat.mp h with h | ⟨-, he, hw⟩
      · exact ih h
      · exact (hnot _ _ hw he).elim

theorem mem_keys_devices_ofLines :
    device ∈ (ofLines ls).config.devices.keys ↔ ∃ i j path, Binds ls i j device path := by
  rw [SortedMap.mem_keys_iff]
  constructor
  · intro ⟨paths, h⟩
    obtain ⟨path, -, i, j, hb, -⟩ := find?_devices_ofLines.mp h
    exact ⟨i, j, path, hb⟩
  · intro ⟨i, j, path, hb⟩
    obtain ⟨path', hlast⟩ := exists_bindsLast hb
    exact ⟨[path'], find?_devices_ofLines.mpr ⟨path', rfl, hlast⟩⟩

def ListensLast (ls : List Line) (address : Text) : Prop :=
  ∃ i : Nat, ls[i]? = some (.listen address) ∧
    ∀ (k : Nat) (a : Text), i < k → ls[k]? ≠ some (.listen a)

theorem listensLast_concat_listen {a address : Text} :
    ListensLast (ls ++ [.listen a]) address ↔ a = address := by
  have hnew : (ls ++ [Line.listen a])[ls.length]? = some (Line.listen a) :=
    (getElem?_concat_eq _).mpr (.inr ⟨rfl, rfl⟩)
  constructor
  · intro ⟨i, hi, hlast⟩
    rcases (getElem?_concat_eq _).mp hi with hi | ⟨-, hl⟩
    · exact (hlast _ a (lt_length hi) hnew).elim
    · exact Line.listen.inj hl
  · rintro rfl
    refine ⟨_, hnew, fun k b hk hb => ?_⟩
    rcases (getElem?_concat_eq _).mp hb with hb | ⟨he, -⟩
    · exact Nat.lt_asymm hk (lt_length hb)
    · omega

theorem listensLast_concat_of_ne {address : Text} (h : ∀ a, l ≠ .listen a) :
    ListensLast (ls ++ [l]) address ↔ ListensLast ls address := by
  have hl : ∀ (k : Nat) (a : Text),
      (ls ++ [l])[k]? = some (Line.listen a) ↔ ls[k]? = some (Line.listen a) := by
    intro k a
    rw [getElem?_concat_eq]
    exact or_iff_left fun ⟨_, he⟩ => h a he
  simp only [ListensLast, ne_eq, hl]

theorem listen_ofLines_eq_some_iff {address : Text} :
    (ofLines ls).config.listen = some address ↔ ListensLast ls address := by
  induction ls using List.reverseRecOn with
  | nil => simp [ofLines, ListensLast]
  | append_singleton ls l ih =>
    rw [ofLines_concat]
    cases l with
    | listen a => simp [Draft.add, listensLast_concat_listen]
    | cachedir path =>
      rw [listensLast_concat_of_ne (by simp), ← ih, Draft.add]
      split <;> rfl
    | header _ | comment | other =>
      rw [listensLast_concat_of_ne (by simp), ← ih]
      rfl

theorem listen_ofLines_eq_none_iff :
    (ofLines ls).config.listen = none ↔ ∀ a, Line.listen a ∉ ls := by
  induction ls using List.reverseRecOn with
  | nil => simp [ofLines]
  | append_singleton ls l ih =>
    rw [ofLines_concat]
    cases l with
    | listen a =>
      simp only [Draft.add, reduceCtorEq, false_iff]
      exact fun h => h a (List.mem_append_right ls List.mem_cons_self)
    | cachedir path =>
      simp only [List.mem_append, List.mem_singleton, reduceCtorEq, or_false, ← ih, Draft.add]
      split <;> rfl
    | header _ | comment | other =>
      simp only [List.mem_append, List.mem_singleton, reduceCtorEq, or_false, ← ih]
      rfl

/-- A configuration means what its lines say: the kind of a line is told by its text, a device gets
the directory of its last binding, and the last `listen` line decides. -/
theorem parse_follows_last_lines (text : Text) :
    (∀ line kind, Line.of line = kind ↔ kind.Describes (Text.trimStart line)) ∧
    (∀ device paths, (parse text).devices.find? device = some paths ↔
      ∃ path, paths = [path] ∧ BindsLast ((Text.lines text).map Line.of) device path) ∧
    (∀ device, device ∈ (parse text).devices.keys ↔
      ∃ i j path, Binds ((Text.lines text).map Line.of) i j device path) ∧
    (∀ address, (parse text).listen = some address ↔
      ListensLast ((Text.lines text).map Line.of) address) ∧
    ((parse text).listen = none ↔ ∀ address, .listen address ∉ (Text.lines text).map Line.of) :=
  ⟨fun _ _ => of_eq_iff, fun _ _ => find?_devices_ofLines, fun _ => mem_keys_devices_ofLines,
    fun _ => listen_ofLines_eq_some_iff, listen_ofLines_eq_none_iff⟩

/-- A comment and a `listen` line do not part a header from its directory, a second directory under
it counts for nothing, and a second header of the name counts again. -/
example :
    parse "[a]\n# c\nlisten h x\ncachedir /1\ncachedir /2\n[b\n [a]\n\tcachedir /3 ".toList =
      ⟨SortedMap.empty.insert ['a'] ["/3".toList], some ['h']⟩ := by decide

end CacheHost.BlockConfig
