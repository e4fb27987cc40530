import CacheHost.NbdDump
import CacheHost.Proofs.SortedMap
import CacheHost.Proofs.Text.Blank
import CacheHost.Proofs.Text.Line
import CacheHost.Proofs.Text.Numeral

namespace CacheHost

def NbdEntry.get (e : NbdEntry) : NbdDump.Field → Option Text
  | .device => e.device
  | .name => e.name
  | .host => e.host

theorem NbdEntry.get_set (e : NbdEntry) (value : Text) (f g : NbdDump.Field) :
    (e.set value f).get g = if f = g then some value else e.get g := by
  cases f <;> cases g <;> rfl

namespace NbdDump

def valueAt (d : NbdDump) (index : Nat) (f : Field) : Option Text :=
  (d.find? index).bind (·.get f)

def Assignment.IsTo (a : Assignment) (index : Nat) (f : Field) : Prop :=
  a.index = index ∧ a.field = f

instance (a : Assignment) (index : Nat) (f : Field) : Decidable (a.IsTo index f) :=
  inferInstanceAs (Decidable (_ ∧ _))

theorem get_default (f : Field) : ({} : NbdEntry).get f = none := by
  cases f <;> rfl

theorem valueAt_add (d : NbdDump) (a : Assignment) (index : Nat) (f : Field) :
    (d.add a).valueAt index f = if a.IsTo index f then some a.value else d.valueAt index f := by
  unfold valueAt add Assignment.IsTo
  rw [SortedMap.find?_insert]
  by_cases hi : a.index = index
  · -- the entry at this index is a new one or keeps its other fields
    subst hi
    simp only [if_true, Option.bind_some, NbdEntry.get_set, true_and]
    split
    · rfl
    · cases d.find? a.index with
      | none => exact get_default f
      | some e => rfl
  · simp [hi]

/-- The last assignment to a field decides. -/
theorem valueAt_foldl_add (as : List Assignment) (d : NbdDump) (index : Nat) (f : Field) :
    (as.foldl add d).valueAt index f =
      ((as.reverse.find? (·.IsTo index f)).map (·.value)).or (d.valueAt index f) := by
  induction as generalizing d with
  | nil => rfl
  | cons a as ih =>
    rw [List.foldl_cons, ih, valueAt_add, List.reverse_cons, List.find?_append]
    cases as.reverse.find? (·.IsTo index f) with
    | some x => rfl
    | none => by_cases h : a.IsTo index f <;> simp [h]

theorem valueAt_parse (text : Text) (index : Nat) (f : Field) : (parse text).valueAt index f =
    ((assignments text).reverse.find? (·.IsTo index f)).map (·.value) := by
  rw [parse, valueAt_foldl_add]
  exact Option.or_none

theorem exists_assignment_of_valueAt {text value : Text} {index : Nat} {f : Field}
    (h : (parse text).valueAt index f = some value) :
    ∃ a ∈ assignments text, a.IsTo index f ∧ a.value = value := by
  rw [valueAt_parse] at h
  obtain ⟨a, ha, hv⟩ := Option.map_eq_some_iff.mp h
  have hto := List.find?_some ha
  exact ⟨a, List.mem_reverse.mp (List.mem_of_find?_eq_some ha), of_decide_eq_true hto, hv⟩

/-- What stands after an equals sign, without the blanks and the quote that open it. -/
def remainder (rest : Text) : Text :=
  (Text.after? ['"'] (Text.trimStart rest)).getD (Text.trimStart rest)

/-- Up to the quote that closes it, or else up to the blanks at the end. -/
def closed (r : Text) : Text := if '"' ∈ r then r.takeWhile (· != '"') else Text.trimEnd r

theorem value?_eq_some_iff {tail value : Text} : value? tail = some value ↔
    ∃ rest, Text.trimStart tail = '=' :: rest ∧ closed (remainder rest) = value ∧ value ≠ [] := by
  unfold value?
  split
  · rename_i rest hs
    change (if closed (remainder rest) = [] then none else some (closed (remainder rest))) = _ ↔ _
    constructor
    · intro h
      split at h
      · simp at h
      · rename_i hne
        obtain rfl := Option.some.inj h
        exact ⟨rest, hs, rfl, hne⟩
    · intro ⟨rest', hs', hv, hne⟩
      obtain rfl := (List.cons.inj (hs.symm.trans hs')).2
      rw [if_neg (hv ▸ hne), hv]
  · rename_i hs
    constructor
    · intro h
      simp at h
    · intro ⟨rest, hs', _⟩
      exact absurd hs' (hs rest)

/-- Where there is no sign, the digits are all there is. -/
theorem read_toOption_eq_some_iff {limit n : Nat} {ds : Text} (hd : ∀ c ∈ ds, c.isDigit = true) :
    (Numeral.read limit ds).toOption = some n ↔
      ds ≠ [] ∧ Nat.ofDigitChars 10 ds 0 = n ∧ n < limit := by
  have hoption : (Numeral.read limit ds).toOption = some n ↔ Numeral.read limit ds = .ok n := by
    cases Numeral.read limit ds <;> simp [Except.toOption]
  rw [hoption, Numeral.read_eq_ok_iff]
  constructor
  · rintro ⟨⟨ds', rfl | rfl, hne, -, hn⟩, hlt⟩
    · exact ⟨hne, hn, hlt⟩
    · exact absurd (hd '+' List.mem_cons_self) (by decide)
  · rintro ⟨hne, hn, hlt⟩
    exact ⟨⟨ds, .inl rfl, hne, hd, hn⟩, hlt⟩

theorem index?_eq_some_iff {s tail : Text} {n : Nat} : index? s = some (n, tail) ↔
    ∃ digits, digits ≠ [] ∧ (∀ c ∈ digits, c.isDigit = true) ∧ n < UInt64.size ∧
      Nat.ofDigitChars 10 digits 0 = n ∧ s = '[' :: (digits ++ ']' :: tail) := by
  constructor
  · intro h
    unfold index? at h
    split at h
    · rename_i rest
      simp only at h
      split at h
      · rename_i c tail' hd
        split at h
        · rename_i hdigits
          obtain ⟨m, hm, he⟩ := Option.map_eq_some_iff.mp h
          obtain ⟨rfl, rfl⟩ := Prod.mk.inj he
          have hdig := List.all_eq_true.mp hdigits
          obtain ⟨hne, hn, hlt⟩ := (read_toOption_eq_some_iff hdig).mp hm
          exact ⟨_, hne, hdig, hlt, hn, congrArg _ (Text.eq_takeWhile_append_of_dropWhile hd)⟩
        · simp at h
      · simp at h
    · simp at h
  · rintro ⟨digits, hne, hdig, hlt, hn, rfl⟩
    have hbracket : ∀ c ∈ digits, (c != ']') = true := by
      intro c hc
      have := hdig c hc
      simp only [bne_iff_ne]
      rintro rfl
      simp at this
    have hhead : ∀ c ∈ (']' :: tail).head?, (c != ']') = false := by simp
    have hread := (read_toOption_eq_some_iff hdig).mpr ⟨hne, hn, hlt⟩
    simp only [index?, Text.takeWhile_append_of_head hbracket hhead,
      Text.dropWhile_append_of_head hbracket hhead, List.all_eq_true.mpr hdig, if_true, hread,
      Option.map_some]

theorem index?_subset {s tail : Text} {n : Nat} (h : index? s = some (n, tail)) : tail ⊆ s := by
  obtain ⟨digits, -, -, -, -, rfl⟩ := index?_eq_some_iff.mp h
  intro c hc
  simp [hc]

theorem after?_subset {lead s r : Text} (h : Text.after? lead s = some r) : r ⊆ s := by
  rw [Text.after?_eq_some_iff.mp h]
  exact List.subset_append_right lead r

theorem remainder_subset (rest : Text) : remainder rest ⊆ rest := by
  unfold remainder
  cases h : Text.after? ['"'] (Text.trimStart rest) with
  | none => exact Text.trimStart_subset rest
  | some r => exact List.Subset.trans (after?_subset h) (Text.trimStart_subset rest)

theorem closed_subset (r : Text) : closed r ⊆ r := by
  unfold closed
  split
  · exact (List.takeWhile_sublist _).subset
  · exact Text.trimEnd_subset r

theorem value?_subset {tail value : Text} (h : value? tail = some value) : value ⊆ tail := by
  obtain ⟨rest, hs, rfl, -⟩ := value?_eq_some_iff.mp h
  have ht : '=' :: rest ⊆ tail := hs ▸ Text.trimStart_subset tail
  have hv : closed (remainder rest) ⊆ rest :=
    List.Subset.trans (closed_subset _) (remainder_subset rest)
  intro c hc
  exact ht (List.mem_cons_of_mem _ (hv hc))

theorem assignmentTo?_eq_some_iff {f : Field} {line : Text} {a : Assignment} :
    assignmentTo? f line = some a ↔ ∃ rest n tail value, Text.after? f.keyword line = some rest ∧
      index? rest = some (n, tail) ∧ value? tail = some value ∧ ⟨f, n, value⟩ = a := by
  simp [assignmentTo?, Option.bind_eq_some_iff]

/-- A value is never empty, and all its characters stand on the line. -/
theorem value_of_assignment? {line : Text} {a : Assignment} (h : assignment? line = some a) :
    a.value ≠ [] ∧ a.value ⊆ line := by
  obtain ⟨f, -, hf⟩ := List.exists_of_findSome?_eq_some h
  obtain ⟨rest, n, tail, value, hr, hi, hv, rfl⟩ := assignmentTo?_eq_some_iff.mp hf
  obtain ⟨_, -, -, hne⟩ := value?_eq_some_iff.mp hv
  have hrest : value ⊆ rest := List.Subset.trans (value?_subset hv) (index?_subset hi)
  refine ⟨hne, fun c hc => ?_⟩
  exact Text.trimStart_subset line (after?_subset hr (hrest hc))

theorem value_of_mem_assignments {text : Text} {a : Assignment} (h : a ∈ assignments text) :
    a.value ≠ [] ∧ '\n' ∉ a.value := by
  obtain ⟨line, hl, ha⟩ := List.mem_filterMap.mp h
  obtain ⟨hne, hsub⟩ := value_of_assignment? ha
  exact ⟨hne, fun hn => Text.newline_not_mem_of_mem_lines hl (hsub hn)⟩

theorem value_of_valueAt {text value : Text} {index : Nat} {f : Field}
    (h : (parse text).valueAt index f = some value) : value ≠ [] ∧ '\n' ∉ value := by
  obtain ⟨a, ha, -, rfl⟩ := exists_assignment_of_valueAt h
  exact value_of_mem_assignments ha

end NbdDump
end CacheHost
