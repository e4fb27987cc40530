import CacheHost.Text.Numeral
import CacheHost.Proofs.Text.Blank

namespace CacheHost

theorem Text.isBlank_of_isDigit {c : Char} (h : c.isDigit = true) : isBlank c = false := by
  simp only [Char.isDigit, Bool.and_eq_true, decide_eq_true_eq, ge_iff_le,
    UInt32.le_iff_toNat_le] at h
  have h1 : 48 ≤ c.toNat := h.1
  have h2 : c.toNat ≤ 57 := h.2
  simp [isBlank]
  omega

namespace Numeral

/-- An optional plus sign and one or more digits, which stand for `n`. -/
def Denotes (s : Text) (n : Nat) : Prop :=
  ∃ ds, (s = ds ∨ s = '+' :: ds) ∧ ds ≠ [] ∧ (∀ c ∈ ds, c.isDigit = true) ∧
    Nat.ofDigitChars 10 ds 0 = n

theorem Denotes.isWord {s : Text} {n : Nat} (h : Denotes s n) : Text.IsWord s := by
  obtain ⟨ds, hs, hne, hd, -⟩ := h
  have hw : Text.IsWord ds := ⟨hne, fun c hc => Text.isBlank_of_isDigit (hd c hc)⟩
  rcases hs with rfl | rfl
  · exact hw
  · refine ⟨List.cons_ne_nil _ _, fun c hc => ?_⟩
    rcases List.mem_cons.mp hc with rfl | hc
    · decide
    · exact hw.2 c hc

/-- A trim finds the numeral between the blanks around it. -/
theorem denotes_trim_iff {text : Text} {n : Nat} : Denotes (Text.trim text) n ↔
    ∃ gap numeral gap', Text.IsGap gap ∧ Text.IsGap gap' ∧ Denotes numeral n ∧
      text = gap ++ numeral ++ gap' := by
  constructor
  · intro h
    obtain ⟨-, gap, gap', hg, hg', ht⟩ := Text.trim_eq_iff.mp (rfl : Text.trim text = _)
    exact ⟨gap, _, gap', hg, hg', h, ht⟩
  · rintro ⟨gap, numeral, gap', hg, hg', h, ht⟩
    rwa [Text.trim_eq_iff.mpr ⟨h.isWord.isTrimmed, gap, gap', hg, hg', ht⟩]

theorem le_ofDigitChars (v : Nat) (ds : Text) : v ≤ Nat.ofDigitChars 10 ds v := by
  induction ds generalizing v with
  | nil => simp
  | cons c ds ih =>
    rw [Nat.ofDigitChars_cons]
    have := ih (10 * v + (c.toNat - '0'.toNat))
    omega

/-- The value only grows, so a numeral that ends below the limit never reached it. -/
theorem digits_eq_ok_iff {limit v n : Nat} {s : Text} :
    digits limit v s = .ok n ↔ (∀ c ∈ s, c.isDigit = true) ∧
      Nat.ofDigitChars 10 s v = n ∧ (s ≠ [] → n < limit) := by
  induction s generalizing v with
  | nil => simp [digits]
  | cons c s ih =>
    rw [digits, digit?, Nat.ofDigitChars_cons, Nat.mul_comm 10 v]
    by_cases hc : c.isDigit = true
    · simp only [hc, if_true]
      have hle := le_ofDigitChars (v * 10 + (c.toNat - '0'.toNat)) s
      split
      · rename_i hlt
        rw [ih]
        constructor
        · rintro ⟨hs, rfl, hn⟩
          refine ⟨by simpa [hc] using hs, rfl, fun _ => ?_⟩
          -- the last digit is not bounded by the others, as there are none
          cases s with
          | nil => simpa using hlt
          | cons d s => exact hn (by simp)
        · rintro ⟨hs, rfl, hn⟩
          exact ⟨fun d hd => hs d (List.mem_cons_of_mem c hd), rfl, fun _ => hn (by simp)⟩
      · rename_i hlt
        constructor
        · simp
        · rintro ⟨-, rfl, hn⟩
          have := hn (by simp)
          omega
    · simp [hc]

theorem read_eq_digits {limit : Nat} {s : Text} (h : s ≠ []) (hp : s.head? ≠ some '+') :
    read limit s = digits limit 0 s := by
  unfold read
  split <;> simp_all

theorem read_plus {limit : Nat} {s : Text} (h : s ≠ []) :
    read limit ('+' :: s) = digits limit 0 s := by
  unfold read
  split <;> simp_all

theorem read_eq_ok_iff {limit n : Nat} {s : Text} :
    read limit s = .ok n ↔ Denotes s n ∧ n < limit := by
  constructor
  · intro h
    by_cases hs : s = []
    · simp [hs, read] at h
    by_cases hp : s.head? = some '+'
    · obtain ⟨ds, rfl⟩ : ∃ ds, s = '+' :: ds := by
        cases s with
        | nil => simp at hp
        | cons c ds => exact ⟨ds, by simpa using hp⟩
      by_cases hd : ds = []
      · simp [hd, read] at h
      rw [read_plus hd, digits_eq_ok_iff] at h
      exact ⟨⟨ds, .inr rfl, hd, h.1, h.2.1⟩, h.2.2 hd⟩
    · rw [read_eq_digits hs hp, digits_eq_ok_iff] at h
      exact ⟨⟨s, .inl rfl, hs, h.1, h.2.1⟩, h.2.2 hs⟩
  · intro ⟨⟨ds, hs, hd, hdig, hn⟩, hlt⟩
    have hr : digits limit 0 ds = .ok n := digits_eq_ok_iff.mpr ⟨hdig, hn, fun _ => hlt⟩
    rcases hs with rfl | rfl
    · rw [read_eq_digits hd, hr]
      intro hp
      have := hdig '+' (List.mem_of_head? hp)
      simp at this
    · rw [read_plus hd, hr]

/-- A numeral stands for one number. -/
theorem Denotes.unique {s : Text} {m n : Nat} (hm : Denotes s m) (hn : Denotes s n) : m = n := by
  have hrm : read (m + n + 1) s = .ok m := read_eq_ok_iff.mpr ⟨hm, by omega⟩
  have hrn : read (m + n + 1) s = .ok n := read_eq_ok_iff.mpr ⟨hn, by omega⟩
  exact Except.ok.inj (hrm.symm.trans hrn)

theorem denotes_ofNat (n : Nat) : Denotes (Text.ofNat n) n :=
  ⟨_, .inl rfl, Nat.toDigits_ne_nil,
    fun _ hc => Nat.isDigit_of_mem_toDigits (by decide) (by decide) hc,
    Nat.ofDigitChars_ten_toDigits⟩

theorem read64?_eq_some_iff {s : Text} {u : UInt64} : read64? s = some u ↔ Denotes s u.toNat := by
  unfold read64? read64
  constructor
  · intro h
    cases hr : read UInt64.size s with
    | error e =>
      rw [hr] at h
      cases h
    | ok n =>
      obtain ⟨hd, hlt⟩ := read_eq_ok_iff.mp hr
      rw [hr] at h
      have hu : UInt64.ofNat n = u := Option.some.inj h
      rwa [← hu, UInt64.toNat_ofNat_of_lt' hlt]
  · intro h
    rw [read_eq_ok_iff.mpr ⟨h, u.toNat_lt_size⟩]
    exact congrArg some UInt64.ofNat_toNat

theorem read64_eq_ok_iff {s : Text} {u : UInt64} : read64 s = .ok u ↔ Denotes s u.toNat := by
  rw [← read64?_eq_some_iff, read64?]
  cases read64 s <;> simp [Except.toOption]

end Numeral
end CacheHost
