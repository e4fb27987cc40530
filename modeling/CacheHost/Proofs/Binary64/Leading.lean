import CacheHost.Proofs.Binary64.Layout
import CacheHost.Proofs.Json.Number
import Mathlib.Data.List.DropRight

namespace CacheHost.Binary64

/-- The digits of a number and the exponent of the first of them. No digit at all stands for zero
too. -/
structure Leads (digits : Text) (e : Int) : Prop where
  isDigit : ∀ c ∈ digits, c.isDigit = true
  zero : digits.head? = some '0' → digits = ['0'] ∧ e = 0
  empty : digits = [] → e = 0

theorem low_interval_pos {d : Dyadic} (h : 0 < d.mantissa) : 0 < (interval d).low := by
  have hscale : 0 < Nat.pow 2 (d.exponent - 2).toNat := Nat.pow_pos (by decide)
  simp only [interval]
  apply Nat.mul_pos ?_ hscale
  split <;> omega

variable {i : Interval} {e : Int}

theorem holds_zero (h : 0 < i.low) : i.holds 0 e = false := by
  have hunit : 0 < Nat.pow 10 (-e).toNat := Nat.pow_pos (by decide)
  have hlow : 0 < i.low * Nat.pow 10 (-e).toNat := Nat.mul_pos h hunit
  simp only [Interval.holds, Nat.zero_mul]
  split
  · have hle : ¬i.low * Nat.pow 10 (-e).toNat ≤ 0 := by omega
    simp only [hle, decide_false, Bool.false_and]
  · simp only [Nat.not_lt_zero, decide_false, Bool.false_and]

theorem digits_pos_of_onGrid? (h : 0 < i.low) {d : Decimal} (hd : i.onGrid? e = some d) :
    0 < d.digits := by
  have hpos : ∀ {c : Nat}, i.holds c e = true → 0 < c := by
    intro c hc
    apply Nat.pos_of_ne_zero
    rintro rfl
    rw [holds_zero h] at hc
    exact absurd hc Bool.false_ne_true
  unfold Interval.onGrid? at hd
  simp only at hd
  split at hd
  · rename_i hbelow _
    split at hd
    · exact Option.some.inj hd ▸ hpos hbelow
    · exact Option.some.inj hd ▸ Nat.succ_pos _
  · rename_i hbelow _
    exact Option.some.inj hd ▸ hpos hbelow
  · exact Option.some.inj hd ▸ Nat.succ_pos _
  · simp at hd

theorem shortest_cases (h : 0 < i.low) : i.shortest = ⟨0, 0⟩ ∨ 0 < i.shortest.digits := by
  unfold Interval.shortest
  cases hs : (List.range 17).findSome? fun (n : Nat) => i.onGrid? (i.magnitude - n) with
  | none => exact .inl rfl
  | some d =>
    obtain ⟨n, -, hd⟩ := List.exists_of_findSome?_eq_some hs
    exact .inr (digits_pos_of_onGrid? h hd)

theorem head?_ofNat_ne {n : Nat} (h : 0 < n) : (Text.ofNat n).head? ≠ some '0' := by
  intro hz
  have hv : Nat.ofDigitChars 10 (Text.ofNat n) 0 = n := Nat.ofDigitChars_ten_toDigits
  rw [Json.head?_ofNat hz] at hv
  have hzero : Nat.ofDigitChars 10 ['0'] 0 = 0 := rfl
  omega

/-- Zeros at the end are left out, so nothing is left of zero, and at least the first digit of
another number. -/
theorem leads_scientific {d : Decimal} (h : d = ⟨0, 0⟩ ∨ 0 < d.digits) :
    Leads d.scientific.1 d.scientific.2 := by
  rcases h with rfl | h
  · have hnil : Decimal.scientific ⟨0, 0⟩ = ([], 0) := rfl
    rw [hnil]
    exact ⟨by simp, by simp, fun _ => rfl⟩
  have hdigits : d.scientific.1 = (Text.ofNat d.digits).rdropWhile (· == '0') := rfl
  obtain ⟨rest, hrest⟩ := List.rdropWhile_prefix (· == '0') (Text.ofNat d.digits)
  have hhead := head?_ofNat_ne h
  rw [← hdigits] at hrest
  cases hs : d.scientific.1 with
  | nil =>
    -- all digits would be zeros, and so the first one
    obtain ⟨c, s, hn⟩ := List.exists_cons_of_ne_nil (Nat.toDigits_ne_nil (n := d.digits) (b := 10))
    have hall := List.rdropWhile_eq_nil_iff.mp (hdigits.symm.trans hs)
    have hc : c = '0' := by simpa using hall c (by simp [Text.ofNat, hn])
    exact absurd (by rw [Text.ofNat, hn, hc]; rfl) hhead
  | cons c s =>
    rw [← hrest, hs, List.cons_append, List.head?_cons] at hhead
    refine ⟨fun c hc => isDigit_scientific (hs ▸ hc), fun hz => absurd hz hhead, nofun⟩

theorem mantissa_dyadic_pos {bits : Nat} (h : bits ≠ 0) : 0 < (dyadic bits).mantissa := by
  unfold dyadic
  simp only
  split
  · rename_i hfield
    have hlt := (Nat.div_eq_zero_iff_lt (Nat.pow_pos (by decide))).mp hfield
    show 0 < bits % Nat.pow 2 52
    rw [Nat.mod_eq_of_lt hlt]
    exact Nat.pos_of_ne_zero h
  · exact Nat.lt_of_lt_of_le (by decide) (Nat.le_add_right _ _)

theorem Layout.exists_leads_of_text? {l : Layout} {x : Float} {t : Text} (h : l.text? x = some t) :
    ∃ (negative : Bool) (digits : Text) (e : Int), Leads digits e ∧
      t = (if negative then ['-'] else []) ++ l.place digits e := by
  have hsign : ∀ p : Prop, [Decidable p] →
      (if p then ['-'] else []) = if decide p then ['-'] else [] := by simp
  unfold text? at h
  simp only at h
  split at h
  · simp at h
  · split at h
    · obtain rfl := Option.some.inj h
      exact ⟨_, ['0'], 0, ⟨by simp, fun _ => ⟨rfl, rfl⟩, nofun⟩, by rw [hsign]⟩
    · rename_i hne
      obtain rfl := Option.some.inj h
      have hlow := low_interval_pos (mantissa_dyadic_pos hne)
      exact ⟨_, _, _, leads_scientific (shortest_cases hlow), by rw [hsign]⟩

end CacheHost.Binary64
