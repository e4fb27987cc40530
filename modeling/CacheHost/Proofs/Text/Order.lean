import CacheHost.Proofs.Text.Utf8
import Mathlib.Data.List.Basic

namespace CacheHost.Utf8

theorem ofNat_cons_lt {n m : Nat} {r r' : Bytes} (h : n < m) (hm : m < 256) :
    UInt8.ofNat n :: r < UInt8.ofNat m :: r' := by
  have hn : (UInt8.ofNat n).toNat = n := UInt8.toNat_ofNat_of_lt' (Nat.lt_trans h hm)
  have hm' : (UInt8.ofNat m).toNat = m := UInt8.toNat_ofNat_of_lt' hm
  apply List.cons_lt_cons_iff.mpr
  left
  rwa [UInt8.lt_iff_toNat_lt, hn, hm']

theorem ofNat_cons_lt_of_eq {n m : Nat} {r r' : Bytes} (h : n = m) (hr : r < r') :
    UInt8.ofNat n :: r < UInt8.ofNat m :: r' :=
  List.cons_lt_cons_iff.mpr (.inr ⟨congrArg _ h, hr⟩)

/-- The bytes differ before either character ends, so what follows the characters does not count. -/
theorem encodeChar_append_lt {c d : Char} (h : c < d) (r r' : Bytes) :
    String.utf8EncodeChar c ++ r < String.utf8EncodeChar d ++ r' := by
  have hlt : c.val.toNat < d.val.toNat := UInt32.lt_iff_toNat_lt.mp h
  have hd : d.val.toNat < 0xD800 ∨ 0xDFFF < d.val.toNat ∧ d.val.toNat < 0x110000 := d.valid
  simp only [String.utf8EncodeChar]
  generalize c.val.toNat = v at hlt
  generalize d.val.toNat = w at hlt hd
  split
  · -- one byte, which is less than the first of any longer character
    split
    · exact ofNat_cons_lt hlt (by omega)
    split
    · exact ofNat_cons_lt (by omega) (by omega)
    split <;> exact ofNat_cons_lt (by omega) (by omega)
  split
  · -- two bytes
    rw [if_neg (show ¬w ≤ 127 by omega)]
    split
    · rcases (by omega : v / 64 < w / 64 ∨ v / 64 = w / 64 ∧ v % 64 < w % 64) with h | ⟨e, h⟩
      · exact ofNat_cons_lt (by omega) (by omega)
      · exact ofNat_cons_lt_of_eq (by omega) (ofNat_cons_lt (by omega) (by omega))
    split <;> exact ofNat_cons_lt (by omega) (by omega)
  split
  · -- three bytes
    rw [if_neg (show ¬w ≤ 127 by omega), if_neg (show ¬w ≤ 2047 by omega)]
    split
    · rcases (by omega : v / 4096 < w / 4096 ∨ v / 4096 = w / 4096 ∧
          (v / 64 % 64 < w / 64 % 64 ∨ v / 64 % 64 = w / 64 % 64 ∧ v % 64 < w % 64))
        with h | ⟨e, h | ⟨e', h⟩⟩
      · exact ofNat_cons_lt (by omega) (by omega)
      · exact ofNat_cons_lt_of_eq (by omega) (ofNat_cons_lt (by omega) (by omega))
      · exact ofNat_cons_lt_of_eq (by omega) (ofNat_cons_lt_of_eq (by omega)
          (ofNat_cons_lt (by omega) (by omega)))
    · exact ofNat_cons_lt (by omega) (by omega)
  · -- four bytes
    rw [if_neg (show ¬w ≤ 127 by omega), if_neg (show ¬w ≤ 2047 by omega),
      if_neg (show ¬w ≤ 65535 by omega)]
    rcases (by omega : v / 262144 < w / 262144 ∨ v / 262144 = w / 262144 ∧
        (v / 4096 % 64 < w / 4096 % 64 ∨ v / 4096 % 64 = w / 4096 % 64 ∧
          (v / 64 % 64 < w / 64 % 64 ∨ v / 64 % 64 = w / 64 % 64 ∧ v % 64 < w % 64)))
      with h | ⟨e, h | ⟨e', h | ⟨e'', h⟩⟩⟩
    · exact ofNat_cons_lt (by omega) (by omega)
    · exact ofNat_cons_lt_of_eq (by omega) (ofNat_cons_lt (by omega) (by omega))
    · exact ofNat_cons_lt_of_eq (by omega) (ofNat_cons_lt_of_eq (by omega)
        (ofNat_cons_lt (by omega) (by omega)))
    · exact ofNat_cons_lt_of_eq (by omega) (ofNat_cons_lt_of_eq (by omega)
        (ofNat_cons_lt_of_eq (by omega) (ofNat_cons_lt (by omega) (by omega))))

theorem encode_lt_of_compare {s t : Text} (h : compare s t = .lt) : encode s < encode t := by
  induction s generalizing t with
  | nil =>
    cases t with
    | nil => simp at h
    | cons d t =>
      obtain ⟨b, bs, hb⟩ := List.exists_cons_of_ne_nil (encodeChar_ne_nil d)
      rw [encode_cons, hb]
      exact List.nil_lt_cons b _
  | cons c s ih =>
    cases t with
    | nil => simp at h
    | cons d t =>
      rw [List.compare_cons_cons, Ordering.then_eq_lt] at h
      rw [encode_cons, encode_cons]
      rcases h with h | ⟨h, ht⟩
      · exact encodeChar_append_lt (compareOfLessAndEq_eq_lt.mp h) _ _
      · obtain rfl := Std.LawfulEqCmp.eq_of_compare h
        exact List.append_left_lt (ih ht)

end CacheHost.Utf8
