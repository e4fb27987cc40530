import CacheHost.Proofs.Text.Line
import CacheHost.Text.Utf8
/-!
How far damage reaches in a text that is read from bytes. No character that is owed bytes can take a
line feed, and none of more than one byte is one, so the bytes of a line decide about this line
only.
-/
namespace CacheHost.Utf8

/-- The byte that is owed next lies above ASCII, and so will the character. -/
structure Pending.IsOpen (p : Pending) : Prop where
  low : 0x80 ≤ p.low.toNat
  bits : 1 ≤ p.bits ∨ 2 ≤ p.owed ∧ 0x80 < p.low.toNat

theorem isOpen_start (b : UInt8) : ∀ p ∈ (start b).2, p.IsOpen := by
  intro p hp
  simp only [start] at hp
  split at hp
  · simp at hp
  split at hp
  · simp at hp
  split at hp
  · -- the least of these leading bytes has two bits to give
    obtain rfl := Option.some.inj hp
    exact ⟨Nat.le_refl _, .inl (by simp only; omega)⟩
  split at hp
  · obtain rfl := Option.some.inj hp
    by_cases h : b.toNat = 0xE0
    · exact ⟨by simp [h], .inr ⟨Nat.le_refl _, by simp [h]⟩⟩
    · exact ⟨by simp [h], .inl (by simp only; omega)⟩
  split at hp
  · obtain rfl := Option.some.inj hp
    by_cases h : b.toNat = 0xF0
    · exact ⟨by simp [h], .inr ⟨by simp, by simp [h]⟩⟩
    · exact ⟨by simp [h], .inl (by simp only; omega)⟩
  · simp at hp

variable {state : Option Pending}

theorem isOpen_step (hs : ∀ p ∈ state, p.IsOpen) (b : UInt8) :
    ∀ p ∈ (step state b).2, p.IsOpen := by
  cases state with
  | none => exact isOpen_start b
  | some q =>
    have hq := hs q rfl
    intro p hp
    simp only [step] at hp
    split at hp
    · rename_i hb
      split at hp
      · simp at hp
      · obtain rfl := Option.some.inj hp
        have hlow := UInt8.le_iff_toNat_le.mp hb.1
        have hbits := hq.bits
        exact ⟨Nat.le_refl _, .inl (by simp only; omega)⟩
    · exact isOpen_start b p hp

theorem eq_ten_of_ofNat_eq_newline {n : Nat} (h : Char.ofNat n = '\n') : n = 10 := by
  by_cases hv : n.isValidChar
  · rw [Char.ofNat, dif_pos hv] at h
    exact congrArg Char.toNat h
  · rw [Char.ofNat, dif_neg hv] at h
    exact absurd h (by decide)

theorem newline_notMem_start {b : UInt8} (hb : b ≠ 0x0A) : some '\n' ∉ (start b).1 := by
  intro h
  simp only [start] at h
  split at h
  · have hn := Option.some.inj (List.mem_singleton.mp h)
    exact hb (UInt8.toNat_inj.mp (eq_ten_of_ofNat_eq_newline hn.symm))
  split at h
  · simp at h
  split at h
  · simp at h
  split at h
  · simp at h
  split at h <;> simp at h

theorem newline_notMem_step (hs : ∀ p ∈ state, p.IsOpen) {b : UInt8} (hb : b ≠ 0x0A) :
    some '\n' ∉ (step state b).1 := by
  cases state with
  | none => exact newline_notMem_start hb
  | some p =>
    have hp := hs p rfl
    intro h
    simp only [step] at h
    split at h
    · split at h
      · -- the last byte of a character of more than one
        have hn := Option.some.inj (List.mem_singleton.mp h)
        have hten := eq_ten_of_ofNat_eq_newline hn.symm
        have hbits := hp.bits
        omega
      · simp at h
    · exact newline_notMem_start hb (by simpa using h)

theorem newline_notMem_run (hs : ∀ p ∈ state, p.IsOpen) {bs : Bytes} (hbs : 0x0A ∉ bs) :
    some '\n' ∉ run state bs := by
  induction bs generalizing state with
  | nil => cases state <;> simp [run]
  | cons b bs ih =>
    obtain ⟨hb, hbs⟩ := List.ne_and_not_mem_of_not_mem_cons hbs
    rw [run, List.mem_append, not_or]
    exact ⟨newline_notMem_step hs hb.symm, ih (isOpen_step hs b) hbs⟩

/-- Whatever is owed at a line feed stays owed, and behind it the reader stands between characters. -/
theorem run_append_newline (hs : ∀ p ∈ state, p.IsOpen) (a b : Bytes) :
    run state (a ++ 0x0A :: b) = run state a ++ some '\n' :: run none b := by
  induction a generalizing state with
  | nil =>
    cases state with
    | none => rfl
    | some p =>
      have hlow := (hs p rfl).low
      have hout : ¬(p.low ≤ 0x0A ∧ 0x0A ≤ p.high) := by
        rintro ⟨h, -⟩
        have h10 : p.low.toNat ≤ 10 := UInt8.le_iff_toNat_le.mp h
        omega
      simp only [List.nil_append, run, step, if_neg hout]
      rfl
  | cons x a ih =>
    simp only [List.cons_append, run, ih (isOpen_step hs x), List.append_assoc]

theorem decodeLossy_append_newline (a b : Bytes) :
    decodeLossy (a ++ 0x0A :: b) = decodeLossy a ++ '\n' :: decodeLossy b := by
  simp [decodeLossy, run_append_newline]

theorem newline_notMem_decodeLossy {bs : Bytes} (h : 0x0A ∉ bs) : '\n' ∉ decodeLossy bs := by
  intro hn
  obtain ⟨piece, hp, hc⟩ := List.mem_map.mp hn
  cases piece with
  | none => simp at hc
  | some c =>
    obtain rfl : c = '\n' := hc
    exact newline_notMem_run (by simp) h hp

/-- A byte of ASCII between characters. -/
theorem decodeLossy_cons_ascii {b : UInt8} (h : b.toNat < 0x80) (bs : Bytes) :
    decodeLossy (b :: bs) = Char.ofNat b.toNat :: decodeLossy bs := by
  simp [decodeLossy, run, step, start, h]

/-- Nothing stands behind the last line feed. -/
def IsEnded (bs : Bytes) : Prop := bs = [] ∨ bs.getLast? = some 0x0A

instance (bs : Bytes) : Decidable (IsEnded bs) := inferInstanceAs (Decidable (_ ∨ _))

variable {a : Bytes}

theorem decodeLossy_append (h : IsEnded a) (b : Bytes) :
    decodeLossy (a ++ b) = decodeLossy a ++ decodeLossy b := by
  rcases h with rfl | h
  · rfl
  · obtain ⟨a, rfl⟩ := List.getLast?_eq_some_iff.mp h
    rw [List.append_assoc, List.singleton_append, decodeLossy_append_newline,
      decodeLossy_append_newline, List.append_assoc]
    rfl

theorem isEnded_decodeLossy (h : IsEnded a) : Text.IsEnded (decodeLossy a) := by
  rcases h with rfl | h
  · exact .inl rfl
  · obtain ⟨a, rfl⟩ := List.getLast?_eq_some_iff.mp h
    right
    rw [decodeLossy_append_newline, List.getLast?_append]
    rfl

/-- The lines of a text into which a line is put that has no line feed in its bytes. -/
theorem lines_decodeLossy_insert {l : Bytes} (ha : IsEnded a) (hl : 0x0A ∉ l) (b : Bytes) :
    Text.lines (decodeLossy (a ++ l ++ 0x0A :: b)) =
      Text.lines (decodeLossy a) ++ Text.dropReturn (decodeLossy l) ::
        Text.lines (decodeLossy b) := by
  rw [List.append_assoc, decodeLossy_append ha, decodeLossy_append_newline,
    Text.lines_append (isEnded_decodeLossy ha),
    Text.lines_append_newline (newline_notMem_decodeLossy hl)]

theorem lines_decodeLossy_append (ha : IsEnded a) (b : Bytes) :
    Text.lines (decodeLossy (a ++ b)) =
      Text.lines (decodeLossy a) ++ Text.lines (decodeLossy b) := by
  rw [decodeLossy_append ha, Text.lines_append (isEnded_decodeLossy ha)]

end CacheHost.Utf8
