import CacheHost.Text
import Mathlib.Data.List.TakeWhile

namespace CacheHost.Text
variable {p : Char → Bool} {w rest : Text}

theorem head?_dropWhile (s : Text) : ∀ c ∈ (s.dropWhile p).head?, p c = false := by
  intro c hc
  have h := List.head?_dropWhile_not p s
  rw [Option.mem_def.mp hc] at h
  simpa using h

theorem takeWhile_append_of_head (hw : ∀ c ∈ w, p c = true) (hr : ∀ c ∈ rest.head?, p c = false) :
    (w ++ rest).takeWhile p = w := by
  rw [List.takeWhile_append_of_pos hw]
  cases rest with
  | nil => simp
  | cons c rest => simp [hr c rfl]

theorem dropWhile_append_of_head (hw : ∀ c ∈ w, p c = true) (hr : ∀ c ∈ rest.head?, p c = false) :
    (w ++ rest).dropWhile p = rest := by
  rw [List.dropWhile_append_of_pos hw]
  cases rest with
  | nil => rfl
  | cons c rest => simp [hr c rfl]

theorem takeWhile_reverse_append (hw : ∀ c ∈ w, p c = true)
    (hr : ∀ c ∈ rest.getLast?, p c = false) : (rest ++ w).reverse.takeWhile p = w.reverse := by
  rw [List.reverse_append]
  apply takeWhile_append_of_head
  · intro c hc
    exact hw c (List.mem_reverse.mp hc)
  · rwa [List.head?_reverse]

/-- A search for a character stops at this character. -/
theorem eq_takeWhile_append_of_dropWhile {x c : Char} {s : Text}
    (h : s.dropWhile (· != x) = c :: rest) : s = s.takeWhile (· != x) ++ x :: rest := by
  have hc : c = x := by
    have hhead := head?_dropWhile (p := (· != x)) s c (by simp [h])
    simpa using hhead
  rw [hc] at h
  rw [← h, List.takeWhile_append_dropWhile]

/-- A text can be parted in one way into a piece that ends outside `p` and a piece inside `p`. -/
theorem append_span_inj {w' rest' : Text} (h : rest ++ w = rest' ++ w')
    (hr : ∀ c ∈ rest.getLast?, p c = false) (hw : ∀ c ∈ w, p c = true)
    (hr' : ∀ c ∈ rest'.getLast?, p c = false) (hw' : ∀ c ∈ w', p c = true) :
    rest = rest' ∧ w = w' := by
  have hww : w = w' := by
    have ht := takeWhile_reverse_append hw hr
    rw [h, takeWhile_reverse_append hw' hr'] at ht
    exact (List.reverse_inj.mp ht).symm
  subst hww
  exact ⟨List.append_cancel_right h, rfl⟩

theorem getLast?_append_of_forall {b : Bool} (hne : w ≠ []) (hw : ∀ c ∈ w, p c = b) :
    ∀ c ∈ (rest ++ w).getLast?, p c = b := by
  intro c hc
  rw [List.getLast?_append, List.getLast?_eq_some_getLast hne, Option.some_or] at hc
  exact hw c (Option.mem_some_iff.mp hc ▸ List.getLast_mem hne)

end CacheHost.Text
