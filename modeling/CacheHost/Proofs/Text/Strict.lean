import CacheHost.Proofs.Text.Utf8

namespace CacheHost.Utf8

/-- A character that has begun is followed by a byte in its range, or it is damage. -/
theorem run_pending_cases (owed bits : Nat) (low high : UInt8) {bs : Bytes}
    (h : none ∉ run (some ⟨owed, low, high, bits⟩) bs) :
    ∃ b rest, bs = b :: rest ∧ low.toNat ≤ b.toNat ∧ b.toNat ≤ high.toNat ∧
      run (some ⟨owed, low, high, bits⟩) bs =
        if owed ≤ 1 then some (Char.ofNat (bits * 64 + (b.toNat - 0x80))) :: run none rest
        else run (some ⟨owed - 1, 0x80, 0xBF, bits * 64 + (b.toNat - 0x80)⟩) rest := by
  cases bs with
  | nil => simp [run] at h
  | cons b rest =>
    refine ⟨b, rest, rfl, ?_⟩
    rw [run, step] at h ⊢
    split
    · rename_i hb
      refine ⟨UInt8.le_iff_toNat_le.mp hb.1, UInt8.le_iff_toNat_le.mp hb.2, ?_⟩
      split
      · rfl
      · rfl
    · rename_i hb
      rw [if_neg hb] at h
      simp at h

/-- The bounds of a second byte, of which a lead byte may make one tighter. -/
theorem second_bounds {b low high : UInt8} {p q : Prop} [Decidable p] [Decidable q]
    (hlow : 0x80 ≤ low.toNat) (hhigh : high.toNat ≤ 0xBF)
    (hl : (if p then low else 0x80).toNat ≤ b.toNat)
    (hh : b.toNat ≤ (if q then high else 0xBF).toNat) :
    0x80 ≤ b.toNat ∧ b.toNat ≤ 0xBF ∧ (p → low.toNat ≤ b.toNat) ∧ (q → b.toNat ≤ high.toNat) := by
  refine ⟨?_, ?_, fun hp => by rwa [if_pos hp] at hl, fun hq => by rwa [if_pos hq] at hh⟩
  · split at hl
    · exact Nat.le_trans hlow hl
    · exact hl
  · split at hh
    · exact Nat.le_trans hh hhigh
    · exact hh

theorem toNat_val_ofNat {v : Nat} (h : v < 0xD800 ∨ 0xDFFF < v ∧ v < 0x110000) :
    (Char.ofNat v).val.toNat = v := by
  have hv : v.isValidChar := h
  rw [Char.ofNat, dif_pos hv]
  rfl

theorem cons_eq_ofNat_cons {b : UInt8} {n : Nat} {r r' : Bytes} (hb : b.toNat = n) (hr : r = r') :
    b :: r = UInt8.ofNat n :: r' := by
  rw [← hb, UInt8.ofNat_toNat, hr]

/-- Bytes that are read without damage start with those of a character. -/
theorem exists_encodeChar_of_run {b : UInt8} {bs : Bytes} (h : none ∉ run none (b :: bs)) :
    ∃ c rest, b :: bs = String.utf8EncodeChar c ++ rest := by
  have hb := b.toNat_lt
  rw [run, step, start] at h
  split at h
  · -- one byte
    refine ⟨Char.ofNat b.toNat, bs, ?_⟩
    rw [String.utf8EncodeChar, toNat_val_ofNat (by omega), if_pos (by omega)]
    exact cons_eq_ofNat_cons rfl rfl
  split at h
  · simp at h
  split at h
  · -- two bytes
    obtain ⟨b₁, r, rfl, hl₁, hh₁, -⟩ := run_pending_cases _ _ _ _ h
    simp only [UInt8.reduceToNat] at hl₁ hh₁
    refine ⟨Char.ofNat ((b.toNat - 0xC0) * 64 + (b₁.toNat - 0x80)), r, ?_⟩
    rw [String.utf8EncodeChar, toNat_val_ofNat (by omega), if_neg (by omega), if_pos (by omega)]
    exact cons_eq_ofNat_cons (by omega) (cons_eq_ofNat_cons (by omega) rfl)
  split at h
  · -- three bytes
    obtain ⟨b₁, r₁, rfl, hl₁, hh₁, hrun⟩ := run_pending_cases _ _ _ _ h
    rw [List.nil_append, hrun, if_neg (by decide)] at h
    obtain ⟨b₂, r, rfl, hl₂, hh₂, -⟩ := run_pending_cases _ _ _ _ h
    obtain ⟨hl, hh, hlow, hhigh⟩ := second_bounds (by decide) (by decide) hl₁ hh₁
    simp only [UInt8.reduceToNat] at hlow hhigh hl₂ hh₂
    refine ⟨Char.ofNat (((b.toNat - 0xE0) * 64 + (b₁.toNat - 0x80)) * 64 +
      (b₂.toNat - 0x80)), r, ?_⟩
    rw [String.utf8EncodeChar, toNat_val_ofNat (by omega), if_neg (by omega), if_neg (by omega),
      if_pos (by omega)]
    exact cons_eq_ofNat_cons (by omega) (cons_eq_ofNat_cons (by omega)
      (cons_eq_ofNat_cons (by omega) rfl))
  split at h
  · -- four bytes
    obtain ⟨b₁, r₁, rfl, hl₁, hh₁, hrun₁⟩ := run_pending_cases _ _ _ _ h
    rw [List.nil_append, hrun₁, if_neg (by decide)] at h
    obtain ⟨b₂, r₂, rfl, hl₂, hh₂, hrun₂⟩ := run_pending_cases _ _ _ _ h
    rw [hrun₂, if_neg (by decide)] at h
    obtain ⟨b₃, r, rfl, hl₃, hh₃, -⟩ := run_pending_cases _ _ _ _ h
    obtain ⟨hl, hh, hlow, hhigh⟩ := second_bounds (by decide) (by decide) hl₁ hh₁
    simp only [UInt8.reduceToNat] at hlow hhigh hl₂ hh₂ hl₃ hh₃
    refine ⟨Char.ofNat ((((b.toNat - 0xF0) * 64 + (b₁.toNat - 0x80)) * 64 +
      (b₂.toNat - 0x80)) * 64 + (b₃.toNat - 0x80)), r, ?_⟩
    rw [String.utf8EncodeChar, toNat_val_ofNat (by omega), if_neg (by omega), if_neg (by omega),
      if_neg (by omega)]
    exact cons_eq_ofNat_cons (by omega) (cons_eq_ofNat_cons (by omega)
      (cons_eq_ofNat_cons (by omega) (cons_eq_ofNat_cons (by omega) rfl)))
  · simp at h

/-- What is read without damage was written. -/
theorem exists_encode_of_run {bs : Bytes} (h : none ∉ run none bs) : ∃ s, bs = encode s := by
  -- the bytes of the first character are left out in each round
  induction hn : bs.length using Nat.strongRecOn generalizing bs with
  | ind n ih =>
    cases bs with
    | nil => exact ⟨[], rfl⟩
    | cons b bs =>
      obtain ⟨c, rest, hc⟩ := exists_encodeChar_of_run h
      have hlt : rest.length < n := by
        have hpos := List.length_pos_iff.mpr (encodeChar_ne_nil c)
        rw [← hn, hc, List.length_append]
        omega
      rw [hc, run_encodeChar] at h
      have hrest : none ∉ run none rest := fun hm => h (List.mem_cons_of_mem _ hm)
      obtain ⟨s, rfl⟩ := ih rest.length hlt hrest rfl
      exact ⟨c :: s, hc⟩

theorem mapM_id_eq_some_iff {α : Type} {l : List (Option α)} {s : List α} :
    l.mapM id = some s ↔ l = s.map some := by
  induction l generalizing s with
  | nil => cases s <;> simp
  | cons x l ih =>
    rw [List.mapM_cons]
    cases x with
    | none => cases s <;> simp
    | some a =>
      cases s with
      | nil => simp [Option.bind_eq_some_iff]
      | cons b s =>
        simp only [id, Option.bind_eq_bind, Option.bind_some, Option.bind_eq_some_iff, ih,
          Option.pure_def, Option.some.injEq, List.cons.injEq, List.map_cons]
        constructor
        · rintro ⟨t, rfl, rfl, rfl⟩
          exact ⟨rfl, rfl⟩
        · rintro ⟨rfl, rfl⟩
          exact ⟨s, rfl, rfl, rfl⟩

/-- Just the texts that were written are read as texts. -/
theorem decode?_eq_some_iff {bs : Bytes} {s : Text} : decode? bs = some s ↔ bs = encode s := by
  rw [decode?, mapM_id_eq_some_iff]
  constructor
  · intro h
    obtain ⟨t, rfl⟩ := @exists_encode_of_run bs (by rw [h]; simp)
    rw [run_encode] at h
    rw [(List.map_inj_right fun _ _ => Option.some.inj).mp h]
  · rintro rfl
    exact run_encode s

@[simp]
theorem decode?_encode (s : Text) : decode? (encode s) = some s := decode?_eq_some_iff.mpr rfl

theorem decode?_eq_none_iff {bs : Bytes} : decode? bs = none ↔ ∀ s, bs ≠ encode s := by
  simp only [Option.eq_none_iff_forall_ne_some, ne_eq, decode?_eq_some_iff]

theorem encode_inj {s t : Text} : encode s = encode t ↔ s = t := by
  rw [← decode?_eq_some_iff, decode?_encode, Option.some.injEq]

end CacheHost.Utf8
