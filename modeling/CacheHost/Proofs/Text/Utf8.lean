import CacheHost.Text.Utf8

namespace CacheHost.Utf8

theorem within {low high : UInt8} {n : Nat} (hl : low.toNat ≤ n) (hh : n ≤ high.toNat) :
    (UInt8.ofNat n).toNat = n ∧ low ≤ UInt8.ofNat n ∧ UInt8.ofNat n ≤ high := by
  have hn : (UInt8.ofNat n).toNat = n := UInt8.toNat_ofNat_of_lt' (Nat.lt_of_le_of_lt hh high.toNat_lt)
  simp only [UInt8.le_iff_toNat_le, hn]
  exact ⟨trivial, hl, hh⟩

/-- The last byte of a character. -/
theorem run_last {low high : UInt8} {bits n : Nat} {bs : Bytes}
    (hl : low.toNat ≤ n) (hh : n ≤ high.toNat) :
    run (some ⟨1, low, high, bits⟩) (UInt8.ofNat n :: bs) =
      some (Char.ofNat (bits * 64 + (n - 0x80))) :: run none bs := by
  obtain ⟨hn, hb⟩ := within hl hh
  simp [run, step, hb, hn]

/-- A byte of a character that is owed more after it. -/
theorem run_inner {owed bits n : Nat} {low high : UInt8} {bs : Bytes}
    (hl : low.toNat ≤ n) (hh : n ≤ high.toNat) :
    run (some ⟨owed + 2, low, high, bits⟩) (UInt8.ofNat n :: bs) =
      run (some ⟨owed + 1, 0x80, 0xBF, bits * 64 + (n - 0x80)⟩) bs := by
  obtain ⟨hn, hb⟩ := within hl hh
  simp [run, step, hb, hn]

theorem run_ascii {n : Nat} {bs : Bytes} (h : n < 0x80) :
    run none (UInt8.ofNat n :: bs) = some (Char.ofNat n) :: run none bs := by
  have hn : (UInt8.ofNat n).toNat = n := UInt8.toNat_ofNat_of_lt' (show n < 256 by omega)
  simp [run, step, start, hn, h]

theorem run_lead_two {n : Nat} {bs : Bytes} (hl : 0xC2 ≤ n) (hh : n < 0xE0) :
    run none (UInt8.ofNat n :: bs) = run (some ⟨1, 0x80, 0xBF, n - 0xC0⟩) bs := by
  have hn : (UInt8.ofNat n).toNat = n := UInt8.toNat_ofNat_of_lt' (show n < 256 by omega)
  simp only [run, step, start, hn]
  rw [if_neg (by omega), if_neg (by omega), if_pos hh, List.nil_append]

theorem run_lead_three {n : Nat} {bs : Bytes} (hl : 0xE0 ≤ n) (hh : n < 0xF0) :
    run none (UInt8.ofNat n :: bs) = run (some ⟨2, if n = 0xE0 then 0xA0 else 0x80,
      if n = 0xED then 0x9F else 0xBF, n - 0xE0⟩) bs := by
  have hn : (UInt8.ofNat n).toNat = n := UInt8.toNat_ofNat_of_lt' (show n < 256 by omega)
  simp only [run, step, start, hn]
  rw [if_neg (by omega), if_neg (by omega), if_neg (by omega), if_pos hh, List.nil_append]

theorem run_lead_four {n : Nat} {bs : Bytes} (hl : 0xF0 ≤ n) (hh : n < 0xF5) :
    run none (UInt8.ofNat n :: bs) = run (some ⟨3, if n = 0xF0 then 0x90 else 0x80,
      if n = 0xF4 then 0x8F else 0xBF, n - 0xF0⟩) bs := by
  have hn : (UInt8.ofNat n).toNat = n := UInt8.toNat_ofNat_of_lt' (show n < 256 by omega)
  simp only [run, step, start, hn]
  rw [if_neg (by omega), if_neg (by omega), if_neg (by omega), if_neg (by omega), if_pos hh,
    List.nil_append]

/-- The four cases are the four lengths of a character; the bounds on the second byte are what keeps
out overlong forms and surrogates. -/
theorem run_encodeChar (c : Char) (bs : Bytes) :
    run none (String.utf8EncodeChar c ++ bs) = some c :: run none bs := by
  have hv : c.val.toNat < 0xD800 ∨ 0xDFFF < c.val.toNat ∧ c.val.toNat < 0x110000 := c.valid
  have hc : ∀ n, n = c.val.toNat → Char.ofNat n = c := fun n hn => hn ▸ Char.ofNat_toNat c
  simp only [String.utf8EncodeChar]
  generalize c.val.toNat = v at hv hc
  split
  · -- one byte
    rw [List.singleton_append, run_ascii (by omega), hc _ rfl]
  split
  · -- two bytes
    rw [List.cons_append, List.singleton_append, run_lead_two (by omega) (by omega),
      run_last (by simp) (by simp; omega), hc]
    omega
  split
  · -- three bytes
    simp only [List.cons_append, List.nil_append]
    rw [run_lead_three (by omega) (by omega), run_inner, run_last (by simp) (by simp; omega), hc]
    · omega
    · split
      · simp
        omega
      · simp
    · split
      · simp
        omega
      · simp
        omega
  · -- four bytes
    simp only [List.cons_append, List.nil_append]
    rw [run_lead_four (by omega) (by omega), run_inner, run_inner (by simp) (by simp; omega),
      run_last (by simp) (by simp; omega), hc]
    · omega
    · split
      · simp
        omega
      · simp
    · split
      · simp
        omega
      · simp
        omega

theorem encodeChar_ne_nil (c : Char) : String.utf8EncodeChar c ≠ [] := by
  apply List.ne_nil_of_length_pos
  rw [String.length_utf8EncodeChar]
  exact c.utf8Size_pos

theorem encode_cons (c : Char) (s : Text) :
    encode (c :: s) = String.utf8EncodeChar c ++ encode s := rfl

theorem run_encode (s : Text) : run none (encode s) = s.map some := by
  induction s with
  | nil => rfl
  | cons c s ih =>
    change run none (String.utf8EncodeChar c ++ encode s) = _
    rw [run_encodeChar, ih, List.map_cons]

theorem decodeLossy_encode (s : Text) : decodeLossy (encode s) = s := by
  rw [decodeLossy, run_encode, List.map_map]
  exact List.map_id s

end CacheHost.Utf8
