import CacheHost.SortedMap
import Mathlib.Data.List.Nodup

namespace CacheHost.SortedMap
variable {κ α β : Type} [Ord κ] [Std.LawfulEqOrd κ]

theorem mem_keys_iff {m : SortedMap κ α} {k : κ} : k ∈ m.keys ↔ ∃ v, m.find? k = some v := by
  simp [keys, find?_eq_some_iff]

theorem find?_eq_none_iff {m : SortedMap κ α} {k : κ} : m.find? k = none ↔ k ∉ m.keys := by
  rw [mem_keys_iff, not_exists]
  exact Option.eq_none_iff_forall_ne_some

theorem mem_values_iff {m : SortedMap κ α} {v : α} : v ∈ m.values ↔ ∃ k, m.find? k = some v := by
  simp [values, find?_eq_some_iff]

theorem keys_nodup (m : SortedMap κ α) : m.keys.Nodup := by
  apply List.pairwise_map.mpr
  apply m.increasing.imp
  intro a b h he
  simp [he, Std.ReflCmp.compare_self] at h

@[simp] theorem find?_map [DecidableEq κ] (f : κ → α → β) (m : SortedMap κ α) (k : κ) :
    (m.map f).find? k = (m.find? k).map (f k) := by
  obtain ⟨es, hes⟩ := m
  simp only [find?, map]
  clear hes
  induction es with
  | nil => rfl
  | cons e es ih =>
    by_cases h : e.1 = k
    · simp [h]
    · simpa [List.find?_cons, h] using ih

omit [Std.LawfulEqOrd κ] in
/-- A map whose values are told by their keys. -/
theorem map_key_congr {m n : SortedMap κ α} (h : m.keys = n.keys) (f : κ → β) :
    m.map (fun k _ => f k) = n.map fun k _ => f k := by
  have hm : ∀ m : SortedMap κ α,
      (m.map fun k _ => f k).entries = m.keys.map fun k => (k, f k) := fun m => by
    simp [map, keys]
  exact ext (by rw [hm, hm, h])

omit [Std.LawfulEqOrd κ] in
@[simp] theorem keys_modify (m : SortedMap κ α) (k : κ) (f : α → α) :
    (m.modify k f).keys = m.keys := keys_map _ _

theorem find?_modify [DecidableEq κ] (m : SortedMap κ α) (k j : κ) (f : α → α) :
    (m.modify k f).find? j = (m.find? j).map fun v => if j = k then f v else v := by
  simp [modify]

variable [Std.TransOrd κ]

/-- Two maps with the same look-ups hold the same entries, and in the same order. -/
theorem ext_find? {m n : SortedMap κ α} (h : ∀ k, m.find? k = n.find? k) : m = n := by
  have hmem : ∀ e : κ × α, e ∈ m.entries ↔ e ∈ n.entries := by
    intro e
    rw [← find?_eq_some_iff (m := m), ← find?_eq_some_iff (m := n), h]
  apply ext
  -- sorted lists are equal if one is a rearrangement of the other
  refine List.Perm.eq_of_pairwise ?_ m.increasing n.increasing ?_
  · intro a b _ _ hab hba
    exact absurd hab (Std.OrientedCmp.not_lt_of_lt hba)
  · apply (List.perm_ext_iff_of_nodup ?_ ?_).mpr hmem
    · exact List.Nodup.of_map Prod.fst (keys_nodup m)
    · exact List.Nodup.of_map Prod.fst (keys_nodup n)

variable [DecidableEq κ]

/-- A key that is present keeps its place. -/
theorem keys_insert_of_mem {m : SortedMap κ α} {k : κ} {v : α} (h : k ∈ m.keys) :
    (m.insert k v).keys = m.keys := by
  have hm : m.insert k v = m.modify k fun _ => v := by
    apply ext_find?
    intro j
    obtain ⟨w, hw⟩ := mem_keys_iff.mp h
    rw [find?_insert, find?_modify]
    by_cases hj : k = j
    · simp [← hj, hw]
    · simp [hj, Ne.symm hj]
  rw [hm, keys_modify]

/-- Of the entries with one key the last decides. -/
theorem find?_foldl_insert (es : List (κ × α)) (m : SortedMap κ α) (k : κ) :
    (es.foldl (fun m e => m.insert e.1 e.2) m).find? k =
      ((es.reverse.find? fun e => e.1 = k).map (·.2)).or (m.find? k) := by
  induction es generalizing m with
  | nil => rfl
  | cons e es ih =>
    rw [List.foldl_cons, ih, find?_insert, List.reverse_cons, List.find?_append]
    cases es.reverse.find? (fun e => e.1 = k) with
    | some x => rfl
    | none => by_cases h : e.1 = k <;> simp [h]

theorem mem_keys_ofList {es : List (κ × α)} {k : κ} :
    k ∈ (ofList es).keys ↔ k ∈ es.map (·.1) := by
  rw [mem_keys_iff, ofList]
  simp only [find?_foldl_insert, find?_empty, Option.or_none, Option.map_eq_some_iff]
  constructor
  · intro ⟨v, e, he, _⟩
    have hm := List.mem_of_find?_eq_some he
    have hk := List.find?_some he
    exact List.mem_map.mpr ⟨e, List.mem_reverse.mp hm, of_decide_eq_true hk⟩
  · intro h
    obtain ⟨e, he, rfl⟩ := List.mem_map.mp h
    cases hf : es.reverse.find? (fun x => x.1 = e.1) with
    | some x => exact ⟨x.2, x, rfl, rfl⟩
    | none => exact absurd (List.find?_eq_none.mp hf e (List.mem_reverse.mpr he)) (by simp)

/-- A map is made of its entries. -/
theorem ofList_entries (m : SortedMap κ α) : ofList m.entries = m := by
  apply ext_find?
  intro k
  rw [ofList, find?_foldl_insert, find?_empty, Option.or_none]
  apply Option.ext
  intro v
  rw [Option.map_eq_some_iff]
  constructor
  · intro ⟨e, he, hv⟩
    have hk := List.find?_some he
    have hm := List.mem_reverse.mp (List.mem_of_find?_eq_some he)
    exact find?_eq_some_iff.mpr (of_decide_eq_true hk ▸ hv ▸ hm)
  · intro hv
    have hm := List.mem_reverse.mpr (find?_eq_some_iff.mp hv)
    cases hf : m.entries.reverse.find? (fun e => e.1 = k) with
    | none => exact absurd (List.find?_eq_none.mp hf (k, v) hm) (by simp)
    | some e =>
      have hk := List.find?_some hf
      have he := List.mem_reverse.mp (List.mem_of_find?_eq_some hf)
      have hv' : m.find? k = some e.2 := find?_eq_some_iff.mpr (of_decide_eq_true hk ▸ he)
      exact ⟨e, rfl, Option.some.inj (hv'.symm.trans hv)⟩

/-- The entries of both maps; on a common key those of the second count. -/
def overlay (m upper : SortedMap κ α) : SortedMap κ α :=
  upper.entries.foldl (fun m e => m.insert e.1 e.2) m

theorem find?_overlay (m upper : SortedMap κ α) (k : κ) :
    (m.overlay upper).find? k = (upper.find? k).or (m.find? k) := by
  have hupper : ((upper.entries.reverse.find? fun e => e.1 = k).map (·.2)) = upper.find? k := by
    rw [← Option.or_none (o := Option.map _ _), ← find?_empty k, ← find?_foldl_insert]
    exact congrArg (find? · k) (ofList_entries upper)
  rw [overlay, find?_foldl_insert, hupper]

end CacheHost.SortedMap
