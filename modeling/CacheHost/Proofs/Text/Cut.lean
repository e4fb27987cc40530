import CacheHost.Proofs.Text.Damage
import CacheHost.Proofs.Text.Utf8

namespace CacheHost

namespace Utf8

theorem encode_append (s t : Text) : encode (s ++ t) = encode s ++ encode t := List.flatMap_append

/-- Bytes behind a text that was written. -/
theorem run_encode_append (s : Text) (bs : Bytes) :
    run none (encode s ++ bs) = s.map some ++ run none bs := by
  induction s with
  | nil => rfl
  | cons c s ih =>
    rw [encode_cons, List.append_assoc, run_encodeChar, ih, List.map_cons, List.cons_append]

theorem isSome_start {b : UInt8} (h : (start b).1 = []) : (start b).2.isSome = true := by
  unfold start at h ⊢
  grind

theorem isSome_step {state : Option Pending} {b : UInt8} (h : (step state b).1 = []) :
    (step state b).2.isSome = true := by
  cases state with
  | none => exact isSome_start h
  | some p =>
    unfold step at h ⊢
    grind

/-- What is read of a first part does not hang on what follows; if nothing is read of it, then the
reader holds a character that is owed bytes. -/
theorem exists_run_append (state : Option Pending) (a : Bytes) : ∃ pieces state',
    (∀ b, run state (a ++ b) = pieces ++ run state' b) ∧
      (pieces = [] → a ≠ [] ∨ state.isSome → state'.isSome) := by
  induction a generalizing state with
  | nil => exact ⟨[], state, fun _ => rfl, by simp⟩
  | cons x a ih =>
    obtain ⟨pieces, state', hrun, hsome⟩ := ih (step state x).2
    refine ⟨(step state x).1 ++ pieces, state', fun b => ?_, fun h _ => ?_⟩
    · rw [List.cons_append, run, hrun, List.append_assoc]
    · obtain ⟨hx, hp⟩ := List.append_eq_nil_iff.mp h
      exact hsome hp (.inr (isSome_step hx))

/-- Something is read of any bytes. -/
theorem run_ne_nil {state : Option Pending} {bs : Bytes} (h : bs ≠ []) : run state bs ≠ [] := by
  intro hrun
  obtain ⟨pieces, state', hp, hsome⟩ := exists_run_append state bs
  have he := hp []
  rw [List.append_nil, hrun, eq_comm, List.append_eq_nil_iff] at he
  obtain ⟨p, rfl⟩ := Option.isSome_iff_exists.mp (hsome he.1 (.inl h))
  exact absurd he.2 nofun

/-- A character that is cut is one piece of damage, however many of its bytes are left. -/
theorem run_take_encodeChar (c : Char) {k : Nat} (h : 0 < k)
    (hk : k < (String.utf8EncodeChar c).length) :
    run none ((String.utf8EncodeChar c).take k) = [none] := by
  have hfront : (String.utf8EncodeChar c).take k ≠ [] :=
    List.ne_nil_of_length_pos (by rw [List.length_take]; omega)
  have hback : (String.utf8EncodeChar c).drop k ≠ [] :=
    List.ne_nil_of_length_pos (by rw [List.length_drop]; omega)
  obtain ⟨pieces, state', hp, hsome⟩ := exists_run_append none ((String.utf8EncodeChar c).take k)
  -- the one piece that the whole character gives is left to the bytes that were cut off
  have hwhole : pieces ++ run state' ((String.utf8EncodeChar c).drop k) = [some c] := by
    rw [← hp, List.take_append_drop]
    simpa [run] using run_encodeChar c []
  have hnil : pieces = [] := by
    rcases List.append_eq_singleton_iff.mp hwhole with ⟨hn, -⟩ | ⟨-, hn⟩
    · exact hn
    · exact absurd hn (run_ne_nil hback)
  obtain ⟨p, rfl⟩ := Option.isSome_iff_exists.mp (hsome hnil (.inl hfront))
  have hcut := hp []
  rwa [List.append_nil, hnil] at hcut

/-- No other character has the byte of a line feed. -/
theorem newline_mem_of_mem_encode {s : Text} (h : 0x0A ∈ encode s) : '\n' ∈ s := by
  obtain ⟨a, b, hab⟩ := List.append_of_mem h
  have hrun := run_encode s
  rw [hab, run_append_newline (by simp)] at hrun
  have hm : some '\n' ∈ s.map some := by
    rw [← hrun]
    simp
  simpa using hm

end Utf8

namespace Text

theorem cut?_append {n : Nat} {p : Text} (h : (Utf8.encode p).length = n) (r : Text) :
    cut? n (p ++ r) = some p := by
  induction p generalizing n with
  | nil =>
    obtain rfl : 0 = n := h
    cases r <;> rfl
  | cons c p ih =>
    have hc := Char.utf8Size_pos c
    rw [Utf8.encode_cons, List.length_append, String.length_utf8EncodeChar] at h
    rw [List.cons_append, cut?, if_neg (by omega), if_pos (by omega), ih (by omega), Option.map_some]

/-- A text is parted at the end of its first bytes, or they end inside a character. -/
theorem cut?_cases {n : Nat} {s : Text} (h : n ≤ (Utf8.encode s).length) :
    (∃ p r, cut? n s = some p ∧ s = p ++ r ∧ (Utf8.encode p).length = n) ∨
      cut? n s = none ∧ ∃ p c r k, s = p ++ c :: r ∧ 0 < k ∧
        k < (String.utf8EncodeChar c).length ∧ (Utf8.encode p).length + k = n := by
  induction s generalizing n with
  | nil =>
    obtain rfl : n = 0 := Nat.le_zero.mp h
    exact .inl ⟨[], [], rfl, rfl, rfl⟩
  | cons c s ih =>
    have hlen := String.length_utf8EncodeChar c
    by_cases hn : n = 0
    · subst hn
      exact .inl ⟨[], c :: s, rfl, rfl, rfl⟩
    by_cases hc : c.utf8Size ≤ n
    · rw [cut?, if_neg hn, if_pos hc]
      rw [Utf8.encode_cons, List.length_append, hlen] at h
      rcases ih (show n - c.utf8Size ≤ (Utf8.encode s).length by omega) with
        ⟨p, r, hp, rfl, hl⟩ | ⟨hp, p, d, r, k, rfl, hk, hkd, hl⟩
      · refine .inl ⟨c :: p, r, by rw [hp]; rfl, rfl, ?_⟩
        rw [Utf8.encode_cons, List.length_append, hlen]
        omega
      · refine .inr ⟨by rw [hp]; rfl, c :: p, d, r, k, rfl, hk, hkd, ?_⟩
        rw [Utf8.encode_cons, List.length_append, hlen]
        omega
    · -- the first character is already too long
      rw [cut?, if_neg hn, if_neg hc]
      exact .inr ⟨rfl, [], c, s, n, rfl, by omega, by omega, Nat.zero_add n⟩

end Text
end CacheHost
