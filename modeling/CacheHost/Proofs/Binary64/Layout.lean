import CacheHost.Json
import Mathlib.Algebra.Group.Nat.Defs
import Mathlib.Logic.Basic

namespace CacheHost.Binary64
variable {l : Layout} {digits : Text} {e : Int}

theorem isDigit_ofNat {n : Nat} {c : Char} (h : c ∈ Text.ofNat n) : c.isDigit = true :=
  Nat.isDigit_of_mem_toDigits (by decide) (by decide) h

theorem isDigit_scientific {d : Decimal} {c : Char} (h : c ∈ d.scientific.1) : c.isDigit = true := by
  have hs := (List.dropWhile_sublist (· == '0')).subset (List.mem_reverse.mp h)
  exact isDigit_ofNat (List.mem_reverse.mp hs)

def Layout.IsMark (l : Layout) (c : Char) : Prop :=
  c.isDigit = true ∨ c = '.' ∨ c = 'e' ∨ c = '-' ∨ c ∈ l.positiveSign

theorem Layout.isMark_ofInt {i : Int} {c : Char} (h : c ∈ Text.ofInt i) : l.IsMark c := by
  cases i with
  | ofNat n => exact .inl (isDigit_ofNat h)
  | negSucc n =>
    rcases List.mem_cons.mp h with rfl | h
    · exact .inr (.inr (.inr (.inl rfl)))
    · exact .inl (isDigit_ofNat h)

theorem Layout.isMark_place (hd : ∀ c ∈ digits, c.isDigit = true) :
    ∀ c ∈ l.place digits e, l.IsMark c := by
  have htake : ∀ n, ∀ c ∈ digits.take n, l.IsMark c :=
    fun n c hc => .inl (hd c (List.mem_of_mem_take hc))
  have hdrop : ∀ n, ∀ c ∈ digits.drop n, l.IsMark c :=
    fun n c hc => .inl (hd c (List.mem_of_mem_drop hc))
  have hzeros : ∀ n, ∀ c ∈ List.replicate n '0', l.IsMark c :=
    fun n c hc => .inl (List.eq_of_mem_replicate hc ▸ rfl)
  have hsign : ∀ c ∈ l.positiveSign, l.IsMark c := fun c hc => .inr (.inr (.inr (.inr hc)))
  unfold place
  split
  · split
    · simp only [List.forall_mem_append, List.forall_mem_singleton]
      refine ⟨⟨⟨htake _, hzeros _⟩, .inr (.inl rfl)⟩, ?_⟩
      split
      · exact List.forall_mem_singleton.mpr (.inl rfl)
      · exact hdrop _
    · simp only [List.forall_mem_append, List.forall_mem_cons]
      exact ⟨⟨⟨.inl rfl, .inr (.inl rfl), by simp⟩, hzeros _⟩, fun c hc => .inl (hd c hc)⟩
  · simp only [List.forall_mem_append, List.forall_mem_singleton]
    refine ⟨⟨⟨⟨htake _, ?_⟩, .inr (.inr (.inl rfl))⟩, ?_⟩, fun c hc => isMark_ofInt hc⟩
    · split
      · simp
      · exact List.forall_mem_cons.mpr ⟨.inr (.inl rfl), hdrop _⟩
    · split
      · exact hsign
      · simp

theorem Layout.point_or_mark_mem_place : '.' ∈ l.place digits e ∨ 'e' ∈ l.place digits e := by
  unfold place
  split
  · split
    · simp
    · simp
  · simp

/-- What the text of a finite number is made of. -/
theorem Layout.text?_eq_some {x : Float} {t : Text} (h : l.text? x = some t) :
    (∀ c ∈ t, l.IsMark c) ∧ ('.' ∈ t ∨ 'e' ∈ t) := by
  have hplace : ∀ digits e, (∀ c ∈ digits, c.isDigit = true) → ∀ sign, sign = ['-'] ∨ sign = [] →
      (∀ c ∈ sign ++ l.place digits e, l.IsMark c) ∧
        ('.' ∈ sign ++ l.place digits e ∨ 'e' ∈ sign ++ l.place digits e) := by
    intro digits e hd sign hs
    constructor
    · refine List.forall_mem_append.mpr ⟨?_, isMark_place hd⟩
      rcases hs with rfl | rfl
      · exact List.forall_mem_singleton.mpr (.inr (.inr (.inr (.inl rfl))))
      · simp
    · exact point_or_mark_mem_place.imp (List.mem_append_right _) (List.mem_append_right _)
  unfold text? at h
  simp only at h
  split at h
  · simp at h
  · -- zero has no leading digit, so it is laid out apart from the others
    split at h
    · obtain rfl := Option.some.inj h
      exact hplace ['0'] 0 (by simp) _ (ite_eq_or_eq _ _ _)
    · obtain rfl := Option.some.inj h
      exact hplace _ _ (fun c hc => isDigit_scientific hc) _ (ite_eq_or_eq _ _ _)

section Finite
open Float.Model

theorem isFinite_eq (x : Float) : x.isFinite =
    !decide (@UnpackedFloat.unpackExponent Format.binary64 x.toBits.toBitVec = -1#11) := by
  show (UnpackedFloat.unpack Format.binary64 x.toBits.toBitVec).isFinite = _
  unfold UnpackedFloat.unpack
  dsimp only
  rw [apply_ite UnpackedFloat.isFinite, apply_ite UnpackedFloat.isFinite,
    apply_ite UnpackedFloat.isFinite, apply_dite UnpackedFloat.isFinite]
  dsimp only [UnpackedFloat.isFinite]
  simp

theorem toNat_unpackExponent (b : BitVec 64) :
    (@UnpackedFloat.unpackExponent Format.binary64 b).toNat = b.toNat / 2 ^ 52 % 2 ^ 11 := by
  simp [UnpackedFloat.unpackExponent, BitVec.extractLsb_toNat, Nat.shiftRight_eq_div_pow]

/-- The exponent of a finite number is not all ones. -/
theorem isFinite_iff (x : Float) :
    x.isFinite = true ↔ x.toBits.toNat % 2 ^ 63 < 2047 * 2 ^ 52 := by
  have hexp := toNat_unpackExponent x.toBits.toBitVec
  have hbits : x.toBits.toBitVec.toNat = x.toBits.toNat := rfl
  have hones : (-1#11 : BitVec 11).toNat = 2047 := rfl
  have hlt := x.toBits.toNat_lt
  rw [isFinite_eq, Bool.not_eq_true', decide_eq_false_iff_not, ← BitVec.toNat_inj, hexp, hbits,
    hones]
  omega

theorem Layout.text?_eq_none_iff {x : Float} : l.text? x = none ↔ x.isFinite = false := by
  rw [← Bool.not_eq_true, isFinite_iff]
  have h63 : Nat.pow 2 63 = 2 ^ 63 := rfl
  have h52 : Nat.pow 2 52 = 2 ^ 52 := rfl
  unfold text?
  simp only [h63, h52]
  split
  · simp only [true_iff]
    omega
  · split
    · simp only [reduceCtorEq, false_iff]
      omega
    · simp only [reduceCtorEq, false_iff]
      omega

end Finite

end CacheHost.Binary64
