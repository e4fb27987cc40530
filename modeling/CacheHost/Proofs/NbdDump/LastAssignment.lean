import CacheHost.Proofs.NbdDump.Export
import CacheHost.Proofs.NbdDump.Field

namespace CacheHost

theorem NbdEntry.ext_get {e e' : NbdEntry} (h : ∀ f, e.get f = e'.get f) : e = e' := by
  have hd : e.device = e'.device := h .device
  have hn : e.name = e'.name := h .name
  have hh : e.host = e'.host := h .host
  cases e
  cases e'
  simp_all

namespace NbdDump

theorem mem_keys_add {d : NbdDump} {a : Assignment} {index : Nat} :
    index ∈ (d.add a).keys ↔ a.index = index ∨ index ∈ d.keys := by
  simp only [SortedMap.mem_keys_iff, add, SortedMap.find?_insert]
  by_cases h : a.index = index <;> simp [h]

theorem mem_keys_foldl_add {as : List Assignment} {d : NbdDump} {index : Nat} :
    index ∈ (as.foldl add d).keys ↔ (∃ a ∈ as, a.index = index) ∨ index ∈ d.keys := by
  induction as generalizing d with
  | nil => simp
  | cons a as ih => simp [ih, mem_keys_add, or_assoc, or_left_comm]

theorem mem_keys_parse {text : Text} {index : Nat} :
    index ∈ (parse text).keys ↔ ∃ a ∈ assignments text, a.index = index := by
  have h : index ∉ (SortedMap.empty : NbdDump).keys := List.not_mem_nil
  rw [parse, mem_keys_foldl_add]
  simp [h]

/-- Dumps with the same indices and the same fields are equal. -/
theorem ext_valueAt {d d' : NbdDump} (hk : ∀ i, i ∈ d.keys ↔ i ∈ d'.keys)
    (hv : ∀ i f, d.valueAt i f = d'.valueAt i f) : d = d' := by
  apply SortedMap.ext_find?
  intro i
  by_cases hi : i ∈ d.keys
  · obtain ⟨e, he⟩ := SortedMap.mem_keys_iff.mp hi
    obtain ⟨e', he'⟩ := SortedMap.mem_keys_iff.mp ((hk i).mp hi)
    have hee : e = e' := NbdEntry.ext_get fun f => by simpa [valueAt, he, he'] using hv i f
    rw [he, he', hee]
  · have hi' : i ∉ d'.keys := fun h => hi ((hk i).mpr h)
    rw [SortedMap.find?_eq_none_iff.mpr hi, SortedMap.find?_eq_none_iff.mpr hi']

def valueTo? (index : Nat) (f : Field) (line : Text) : Option Text :=
  ((assignment? line).filter (·.IsTo index f)).map (·.value)

theorem valueTo?_eq_some_iff {index : Nat} {f : Field} {line value : Text} :
    valueTo? index f line = some value ↔ assignment? line = some ⟨f, index, value⟩ := by
  simp only [valueTo?, Option.map_eq_some_iff, Option.filter_eq_some_iff, decide_eq_true_eq]
  constructor
  · rintro ⟨⟨_, _, _⟩, ⟨h, rfl, rfl⟩, rfl⟩
    exact h
  · intro h
    exact ⟨_, ⟨h, rfl, rfl⟩, rfl⟩

theorem valueTo?_eq_none_iff {index : Nat} {f : Field} {line : Text} :
    valueTo? index f line = none ↔ ∀ value, assignment? line ≠ some ⟨f, index, value⟩ := by
  simp [Option.eq_none_iff_forall_ne_some, ← valueTo?_eq_some_iff]

def assignmentsTo (text : Text) (index : Nat) (f : Field) : List Assignment :=
  (assignments text).filter (·.IsTo index f)

theorem valueAt_parse_eq_getLast? (text : Text) (index : Nat) (f : Field) :
    (parse text).valueAt index f = (assignmentsTo text index f).getLast?.map (·.value) := by
  rw [valueAt_parse, assignmentsTo, List.getLast?_eq_head?_reverse, ← List.filter_reverse,
    List.head?_filter]

theorem assignmentsTo_eq_map (text : Text) (index : Nat) (f : Field) :
    assignmentsTo text index f =
      ((Text.lines text).filterMap (valueTo? index f)).map (⟨f, index, ·⟩) := by
  rw [assignmentsTo, assignments, List.filter_filterMap, List.map_filterMap]
  congr 1
  funext line
  ext a
  simp only [Option.filter_eq_some_iff, Option.map_eq_some_iff, valueTo?_eq_some_iff,
    decide_eq_true_eq]
  constructor
  · rintro ⟨h, rfl, rfl⟩
    exact ⟨a.value, h, rfl⟩
  · rintro ⟨value, h, rfl⟩
    exact ⟨h, rfl, rfl⟩

theorem filterMap_valueTo?_lines (text : Text) (index : Nat) (f : Field) :
    (Text.lines text).filterMap (valueTo? index f) = (assignmentsTo text index f).map (·.value) := by
  rw [assignmentsTo_eq_map, List.map_map]
  exact (List.map_id' _).symm

/-- A field holds the value of the last line that assigns to it. -/
theorem valueAt_parse_eq_some_iff {text value : Text} {index : Nat} {f : Field} :
    (parse text).valueAt index f = some value ↔ ∃ before line after,
      Text.lines text = before ++ line :: after ∧
      assignment? line = some ⟨f, index, value⟩ ∧
      ∀ l ∈ after, ∀ w, assignment? l ≠ some ⟨f, index, w⟩ := by
  rw [valueAt_parse_eq_getLast?, ← List.getLast?_map, ← filterMap_valueTo?_lines,
    List.getLast?_eq_head?_reverse, ← List.filterMap_reverse, List.head?_filterMap,
    List.findSome?_eq_some_iff]
  simp only [valueTo?_eq_some_iff, valueTo?_eq_none_iff]
  constructor
  · intro ⟨after, line, before, hl, hv, ha⟩
    refine ⟨before.reverse, line, after.reverse, ?_, hv, ?_⟩
    · simpa using congrArg List.reverse hl
    · simpa using ha
  · intro ⟨before, line, after, hl, hv, ha⟩
    refine ⟨after.reverse, line, before.reverse, ?_, hv, ?_⟩
    · simp [hl]
    · simpa using ha

/-- Every index of a dump has a field, as it was made for one. -/
theorem exists_get_of_find? {text : Text} {index : Nat} {e : NbdEntry}
    (h : (parse text).find? index = some e) : ∃ f value, e.get f = some value := by
  obtain ⟨a, ha, rfl⟩ := mem_keys_parse.mp (SortedMap.mem_keys_iff.mpr ⟨e, h⟩)
  have hne : assignmentsTo text a.index a.field ≠ [] :=
    List.ne_nil_of_mem (List.mem_filter.mpr ⟨ha, decide_eq_true ⟨rfl, rfl⟩⟩)
  have hv := valueAt_parse_eq_getLast? text a.index a.field
  rw [valueAt, h, List.getLast?_eq_some_getLast hne] at hv
  exact ⟨a.field, _, hv⟩

/-- Nothing but the order of the assignments to the same field matters. -/
theorem parse_eq_of_assignmentsTo {text text' : Text}
    (h : ∀ i f, assignmentsTo text i f = assignmentsTo text' i f) : parse text = parse text' := by
  have hmem : ∀ a, a ∈ assignments text ↔ a ∈ assignments text' := by
    intro a
    have ha : ∀ t, a ∈ assignments t ↔ a ∈ assignmentsTo t a.index a.field := fun t => by
      simp [assignmentsTo, Assignment.IsTo]
    rw [ha, ha, h]
  apply ext_valueAt
  · intro i
    simp only [mem_keys_parse, hmem]
  · intro i f
    rw [valueAt_parse_eq_getLast?, valueAt_parse_eq_getLast?, h]

def Apart (line line' : Text) : Prop :=
  ∀ a ∈ assignment? line, ∀ a' ∈ assignment? line', ¬a.IsTo a'.index a'.field

instance (line line' : Text) : Decidable (Apart line line') :=
  inferInstanceAs (Decidable
    (∀ a ∈ assignment? line, ∀ a' ∈ assignment? line', ¬a.IsTo a'.index a'.field))

theorem apart_iff {line line' : Text} : Apart line line' ↔
    ∀ i f, valueTo? i f line = none ∨ valueTo? i f line' = none := by
  constructor
  · intro h i f
    cases hv : valueTo? i f line with
    | none => exact .inl rfl
    | some v =>
      refine .inr (valueTo?_eq_none_iff.mpr fun w hw => ?_)
      exact h _ (valueTo?_eq_some_iff.mp hv) _ hw ⟨rfl, rfl⟩
  · rintro h ⟨f, i, v⟩ ha ⟨_, _, w⟩ ha' ⟨rfl, rfl⟩
    rcases h i f with hv | hv
    · exact valueTo?_eq_none_iff.mp hv v ha
    · exact valueTo?_eq_none_iff.mp hv w ha'

/-- What may be done to the lines of a dump: one may be spelt in another way, one that assigns
nothing may come or go, and two neighbours that do not assign to the same field may change places. -/
inductive Rearranged : List Text → List Text → Prop
  | nil : Rearranged [] []
  | cons {line line' : Text} {ls ls' : List Text} (h : assignment? line = assignment? line') :
    Rearranged ls ls' → Rearranged (line :: ls) (line' :: ls')
  | leaveOut {line : Text} (h : assignment? line = none) (ls : List Text) :
    Rearranged (line :: ls) ls
  | swap {line line' : Text} (h : Apart line line') (ls : List Text) :
    Rearranged (line :: line' :: ls) (line' :: line :: ls)
  | symm {ls ls' : List Text} : Rearranged ls ls' → Rearranged ls' ls
  | trans {ls ls' ls'' : List Text} :
    Rearranged ls ls' → Rearranged ls' ls'' → Rearranged ls ls''

namespace Rearranged

variable {ls ls' before after : List Text} {line : Text}

theorem refl (ls : List Text) : Rearranged ls ls := by
  induction ls with
  | nil => exact .nil
  | cons line ls ih => exact .cons rfl ih

theorem filterMap_valueTo?_eq (h : Rearranged ls ls') (index : Nat) (f : Field) :
    ls.filterMap (valueTo? index f) = ls'.filterMap (valueTo? index f) := by
  induction h with
  | nil => rfl
  | cons h _ ih =>
    simp only [List.filterMap_cons, valueTo?, h] at ih ⊢
    rw [ih]
  | @leaveOut line h ls =>
    have hv : valueTo? index f line = none := valueTo?_eq_none_iff.mpr fun v => by simp [h]
    rw [List.filterMap_cons_none hv]
  | swap h ls =>
    rcases apart_iff.mp h index f with hv | hv
    · simp only [List.filterMap_cons, hv]
    · simp only [List.filterMap_cons, hv]
  | symm _ ih => exact ih.symm
  | trans _ _ ih₁ ih₂ => exact ih₁.trans ih₂

/-- A line goes to the front past lines that do not assign to its field. -/
theorem toFront (h : ∀ l ∈ before, Apart l line) :
    Rearranged (before ++ line :: after) (line :: (before ++ after)) := by
  induction before with
  | nil => exact refl _
  | cons l before ih =>
    obtain ⟨hl, hbefore⟩ := List.forall_mem_cons.mp h
    exact (Rearranged.cons rfl (ih hbefore)).trans (.swap hl _)

theorem of_filterMap_valueTo?_eq_nil (h : ∀ i f, ls.filterMap (valueTo? i f) = []) :
    Rearranged ls [] := by
  induction ls with
  | nil => exact .nil
  | cons line ls ih =>
    have hline : assignment? line = none := by
      refine Option.eq_none_iff_forall_ne_some.mpr fun a ha => ?_
      have hv : valueTo? a.index a.field line = some a.value := valueTo?_eq_some_iff.mpr ha
      simpa [hv] using h a.index a.field
    have hls := leaveOut hline ls
    exact hls.trans (ih fun i f => (hls.filterMap_valueTo?_eq i f).symm.trans (h i f))

/-- If a line that assigns comes first, the other lines have one like it that can come first. -/
theorem exists_toFront {a : Assignment} (hline : assignment? line = some a)
    (h : ∀ i f, (line :: ls).filterMap (valueTo? i f) = ls'.filterMap (valueTo? i f)) :
    ∃ rest, Rearranged ls' (line :: rest) := by
  have hv : valueTo? a.index a.field line = some a.value := valueTo?_eq_some_iff.mpr hline
  have hfirst := (h a.index a.field).symm
  rw [List.filterMap_cons_some hv] at hfirst
  obtain ⟨before, line', after, rfl, hbefore, hv', -⟩ := List.filterMap_eq_cons_iff.mp hfirst
  have hline' : assignment? line' = some a := valueTo?_eq_some_iff.mp hv'
  have hfront : ∀ l ∈ before, Apart l line' := by
    intro l hl b hb a' ha'
    obtain rfl := Option.some.inj (hline'.symm.trans ha')
    rintro ⟨hi, hf⟩
    obtain ⟨_, _, w⟩ := b
    exact valueTo?_eq_none_iff.mp (hbefore l hl) w (hf ▸ hi ▸ hb)
  exact ⟨before ++ after, (toFront hfront).trans (.cons (hline'.trans hline.symm) (refl _))⟩

end Rearranged

/-- Lines are rearranged just if they assign the same values to each field, in the same order. -/
theorem rearranged_iff {ls ls' : List Text} : Rearranged ls ls' ↔
    ∀ i f, ls.filterMap (valueTo? i f) = ls'.filterMap (valueTo? i f) := by
  refine ⟨fun h => h.filterMap_valueTo?_eq, fun h => ?_⟩
  -- `ls'` is generalized, as the line that comes first in `ls` is taken out of it
  induction ls generalizing ls' with
  | nil => exact (Rearranged.of_filterMap_valueTo?_eq_nil fun i f => (h i f).symm).symm
  | cons line ls ih =>
    cases hline : assignment? line with
    | none =>
      have hls := Rearranged.leaveOut hline ls
      exact hls.trans (ih fun i f => (hls.filterMap_valueTo?_eq i f).symm.trans (h i f))
    | some a =>
      obtain ⟨rest, hrest⟩ := Rearranged.exists_toFront hline h
      refine (Rearranged.cons rfl (ih fun i f => ?_)).trans hrest.symm
      have hcons := (h i f).trans (hrest.filterMap_valueTo?_eq i f)
      rw [List.filterMap_cons, List.filterMap_cons] at hcons
      cases hv : valueTo? i f line with
      | none => simpa [hv] using hcons
      | some v => simpa [hv] using hcons

/-- Two texts have the same assignments to each field just if the lines of one can be rearranged into
those of the other. -/
theorem assignmentsTo_eq_iff_rearranged {text text' : Text} :
    (∀ i f, assignmentsTo text' i f = assignmentsTo text i f) ↔
      Rearranged (Text.lines text') (Text.lines text) := by
  simp only [rearranged_iff, assignmentsTo_eq_map]
  refine forall_congr' fun i => forall_congr' fun f => ?_
  exact List.map_inj_right fun v w h => congrArg Assignment.value h

/-- A dump has an entry at the indices that some line assigns to, and each field of it holds the
value of the last line that assigns to it. Two texts with the same assignments to each field, in the
same order, are the same dump, whatever stands between these assignments. -/
theorem parse_keeps_last_assignments (text : Text) :
    (∀ i, i ∈ (parse text).keys ↔
      ∃ line ∈ Text.lines text, ∃ f value, assignment? line = some ⟨f, i, value⟩) ∧
    (∀ i f value, (parse text).valueAt i f = some value ↔ ∃ before line after,
      Text.lines text = before ++ line :: after ∧ assignment? line = some ⟨f, i, value⟩ ∧
      ∀ l ∈ after, ∀ w, assignment? l ≠ some ⟨f, i, w⟩) ∧
    (∀ e ∈ (parse text).values, ∃ f value, e.get f = some value) ∧
    (∀ text', (∀ i f, assignmentsTo text' i f = assignmentsTo text i f) →
      parse text' = parse text ∧
        ∀ c : BlockConfig, c.withExports (parse text') = c.withExports (parse text)) := by
  refine ⟨fun i => ?_, fun i f value => valueAt_parse_eq_some_iff, fun e he => ?_, fun text' h => ?_⟩
  · rw [mem_keys_parse]
    simp only [assignments, List.mem_filterMap]
    constructor
    · intro ⟨a, ⟨line, hl, ha⟩, hi⟩
      exact ⟨line, hl, a.field, a.value, hi ▸ ha⟩
    · intro ⟨line, hl, f, value, ha⟩
      exact ⟨_, ⟨line, hl, ha⟩, rfl⟩
  · obtain ⟨index, hi⟩ := SortedMap.mem_values_iff.mp he
    exact exists_get_of_find? hi
  · have hp : parse text' = parse text := parse_eq_of_assignmentsTo h
    exact ⟨hp, fun c => by rw [hp]⟩

def sampleText : Text := "NBD_NAME[3]=a\nNBD_HOST[03]=h\nNBD_NAME[3]=b\n".toList

/-- The same after the host has gone in front, with a line that has no index. -/
def sampleReordered : Text := "NBD_HOST[3]=h\nNBD_NAME[3]=a\nNBD_NAME=c\nNBD_NAME[3]=b\n".toList

theorem parse_sampleReordered :
    (∀ i f, assignmentsTo sampleReordered i f = assignmentsTo sampleText i f) ∧
      parse sampleReordered = parse sampleText ∧
      parse sampleText = .ofList [(3, ⟨none, some ['b'], some ['h']⟩)] := by
  have hr : Text.lines sampleReordered = ["NBD_HOST[3]=h".toList, "NBD_NAME[3]=a".toList,
      "NBD_NAME=c".toList, "NBD_NAME[3]=b".toList] := by decide
  have ht : Text.lines sampleText =
      ["NBD_NAME[3]=a".toList, "NBD_HOST[03]=h".toList, "NBD_NAME[3]=b".toList] := by decide
  have h : ∀ i f, assignmentsTo sampleReordered i f = assignmentsTo sampleText i f := by
    rw [assignmentsTo_eq_iff_rearranged, hr, ht]
    refine .trans (.swap (by decide) _) (.cons rfl (.cons (by decide) ?_))
    exact .leaveOut (by decide) _
  exact ⟨h, ((parse_keeps_last_assignments sampleText).2.2.2 sampleReordered h).1, by decide⟩

end NbdDump
end CacheHost
