/-!
Finite maps held as a list of entries with strictly increasing keys, so that equal maps are equal
lists. Keys that are texts are ordered by code point, which is also the order of their UTF-8 bytes.
-/
namespace CacheHost

structure SortedMap (κ : Type) (α : Type) [Ord κ] where
  entries : List (κ × α)
  increasing : entries.Pairwise fun a b => compare a.1 b.1 = .lt

namespace SortedMap
variable {κ α β : Type} [Ord κ]

@[ext] theorem ext {m n : SortedMap κ α} (h : m.entries = n.entries) : m = n := by
  cases m; cases n; cases h; rfl

instance [DecidableEq κ] [DecidableEq α] : DecidableEq (SortedMap κ α) := fun m n =>
  decidable_of_iff (m.entries = n.entries) ⟨ext, fun h => h ▸ rfl⟩

def empty : SortedMap κ α := ⟨[], .nil⟩

instance : Inhabited (SortedMap κ α) := ⟨empty⟩

def keys (m : SortedMap κ α) : List κ := m.entries.map (·.1)

def values (m : SortedMap κ α) : List α := m.entries.map (·.2)

def find? (m : SortedMap κ α) (k : κ) : Option α :=
  (m.entries.find? fun e => compare e.1 k == .eq).map (·.2)

@[simp] theorem find?_empty (k : κ) : (empty : SortedMap κ α).find? k = none := rfl

def map (f : κ → α → β) (m : SortedMap κ α) : SortedMap κ β where
  entries := m.entries.map fun e => (e.1, f e.1 e.2)
  increasing := List.pairwise_map.2 m.increasing

@[simp] theorem keys_map (f : κ → α → β) (m : SortedMap κ α) : (m.map f).keys = m.keys := by
  simp [keys, map]

/-- Changes the value of a key that is present. -/
def modify (m : SortedMap κ α) (k : κ) (f : α → α) : SortedMap κ α :=
  m.map fun k' v => if compare k' k == .eq then f v else v

def put (k : κ) (v : α) : List (κ × α) → List (κ × α)
  | [] => [(k, v)]
  | e :: es =>
    match compare k e.1 with
    | .lt => (k, v) :: e :: es
    | .eq => (k, v) :: es
    | .gt => e :: put k v es

theorem mem_put {k : κ} {v : α} {es : List (κ × α)} {x : κ × α} (h : x ∈ put k v es) :
    x = (k, v) ∨ x ∈ es := by
  induction es with
  | nil => simpa [put] using h
  | cons e es ih =>
    rw [put] at h
    split at h
    · simpa using h
    · rcases List.mem_cons.1 h with h | h
      · exact .inl h
      · exact .inr (.tail _ h)
    · rcases List.mem_cons.1 h with h | h
      · exact .inr (h ▸ .head _)
      · exact (ih h).imp id (.tail _)

theorem find?_put [Std.LawfulEqOrd κ] [DecidableEq κ] (k j : κ) (v : α) (es : List (κ × α)) :
    ((put k v es).find? fun e => compare e.1 j == .eq).map (·.2) =
      if k = j then some v else (es.find? fun e => compare e.1 j == .eq).map (·.2) := by
  induction es with
  | nil => by_cases h : k = j <;> simp [put, h]
  | cons e es ih =>
    rw [put]
    split <;> rename_i hc
    · by_cases h : k = j <;> simp [h]
    · have hk : k = e.1 := Std.LawfulEqCmp.eq_of_compare hc
      by_cases h : k = j <;> simp [h, ← hk]
    · have hk : k ≠ e.1 := fun h => by simp [h] at hc
      by_cases he : e.1 = j
      · simp [he, show k ≠ j from he ▸ hk]
      · simpa [he] using ih

theorem find?_eq_some_iff [Std.LawfulEqOrd κ] {m : SortedMap κ α} {k : κ} {v : α} :
    m.find? k = some v ↔ (k, v) ∈ m.entries := by
  obtain ⟨es, h⟩ := m
  simp only [find?]
  induction es with
  | nil => simp
  | cons e es ih =>
    have he := List.pairwise_cons.1 h
    rw [List.find?_cons]
    by_cases hk : e.1 = k
    · have hn : (k, v) ∉ es := fun hm => by
        have := he.1 _ hm
        simp [hk, Std.ReflCmp.compare_self] at this
      have : (compare e.1 k == .eq) = true := by simp [hk]
      simp only [this]
      constructor
      · intro hv
        simp only [Option.map_some, Option.some.injEq] at hv
        exact hk ▸ hv ▸ .head _
      · intro hm
        rcases List.mem_cons.1 hm with hm | hm
        · simp [← hm]
        · exact absurd hm hn
    · have : (compare e.1 k == .eq) = false := by
        simpa using hk
      simp only [this]
      rw [ih he.2]
      constructor
      · exact .tail _
      · intro hm
        rcases List.mem_cons.1 hm with hm | hm
        · exact absurd (by rw [← hm]) hk
        · exact hm

variable [Std.TransOrd κ] [Std.LawfulEqOrd κ]

theorem put_increasing (k : κ) (v : α) {es : List (κ × α)}
    (h : es.Pairwise fun a b => compare a.1 b.1 = .lt) :
    (put k v es).Pairwise fun a b => compare a.1 b.1 = .lt := by
  induction es with
  | nil => simp [put]
  | cons e es ih =>
    rw [put]
    have he := List.pairwise_cons.1 h
    split <;> rename_i hc
    · refine List.pairwise_cons.2 ⟨fun x hx => ?_, h⟩
      rcases List.mem_cons.1 hx with rfl | hx
      · exact hc
      · exact Std.TransCmp.lt_trans hc (he.1 x hx)
    · refine List.pairwise_cons.2 ⟨fun x hx => ?_, he.2⟩
      have hk : k = e.1 := Std.LawfulEqCmp.eq_of_compare hc
      exact hk ▸ he.1 x hx
    · refine List.pairwise_cons.2 ⟨fun x hx => ?_, ih he.2⟩
      rcases mem_put hx with rfl | hx
      · exact Std.OrientedCmp.lt_of_gt hc
      · exact he.1 x hx

def insert (m : SortedMap κ α) (k : κ) (v : α) : SortedMap κ α :=
  ⟨put k v m.entries, put_increasing k v m.increasing⟩

@[simp] theorem find?_insert [DecidableEq κ] (m : SortedMap κ α) (k j : κ) (v : α) :
    (m.insert k v).find? j = if k = j then some v else m.find? j :=
  find?_put k j v m.entries

/-- Of entries with one key the last counts. -/
def ofList (es : List (κ × α)) : SortedMap κ α :=
  es.foldl (fun m e => m.insert e.1 e.2) empty

end SortedMap
end CacheHost
