import CacheHost.Text.Line

namespace CacheHost.Text

def dropReturn (l : Text) : Text := if l.getLast? = some '\r' then l.dropLast else l

theorem dropReturn_eq_self {l : Text} (h : l.getLast? ≠ some '\r') : dropReturn l = l := if_neg h

theorem dropReturn_cons (c : Char) {l : Text} (h : l ≠ []) :
    dropReturn (c :: l) = c :: dropReturn l := by
  unfold dropReturn
  cases l with
  | nil => exact absurd rfl h
  | cons d l => simp only [List.getLast?_cons_cons, List.dropLast_cons_cons]; split <;> rfl

/-- A character that neither ends a line nor goes along with the end of one. -/
theorem lines_cons {c : Char} {s : Text} (hc : c ≠ '\n') (hs : c = '\r' → s.head? ≠ some '\n') :
    lines (c :: s) = ((lines s).head?.elim [c] (c :: ·)) :: (lines s).tail := by
  rw [lines]
  · cases lines s <;> rfl
  · exact hc
  · rintro t rfl rfl
    exact hs rfl rfl

theorem lines_append_newline {l s : Text} (h : '\n' ∉ l) :
    lines (l ++ '\n' :: s) = dropReturn l :: lines s := by
  induction l with
  | nil => rfl
  | cons c l ih =>
    obtain ⟨hc, hl⟩ := List.ne_and_not_mem_of_not_mem_cons h
    by_cases hr : c = '\r' ∧ l = []
    · -- a lone return goes along with the line feed
      obtain ⟨rfl, rfl⟩ := hr
      rfl
    · rw [List.cons_append, lines_cons hc.symm, ih hl]
      · cases l with
        | nil =>
          have hr' : c ≠ '\r' := fun hr' => hr ⟨hr', rfl⟩
          simp [dropReturn, hr']
        | cons d l => simp [dropReturn_cons c (List.cons_ne_nil d l)]
      · rintro rfl hn
        cases l with
        | nil => exact hr ⟨rfl, rfl⟩
        | cons d l =>
          have hd : d = '\n' := by simpa using hn
          exact hl (hd ▸ List.mem_cons_self)

/-- A text without a line feed is one line. -/
theorem lines_of_newline_notMem {l : Text} (hne : l ≠ []) (h : '\n' ∉ l) : lines l = [l] := by
  induction l with
  | nil => exact absurd rfl hne
  | cons c l ih =>
    obtain ⟨hc, hl⟩ := List.ne_and_not_mem_of_not_mem_cons h
    have hhead : l.head? ≠ some '\n' := fun hn => hl (List.mem_of_head? hn)
    rw [lines_cons hc.symm fun _ => hhead]
    cases l with
    | nil => rfl
    | cons d l => rw [ih (List.cons_ne_nil d l) hl]; rfl

def IsEnded (s : Text) : Prop := s = [] ∨ s.getLast? = some '\n'

instance (s : Text) : Decidable (IsEnded s) := inferInstanceAs (Decidable (_ ∨ _))

theorem isEnded_of_cons {c : Char} {s : Text} (h : IsEnded (c :: s)) : IsEnded s := by
  cases s with
  | nil => exact .inl rfl
  | cons d s => exact .inr (by simpa [IsEnded] using h)

/-- Lines do not run from one text into the next if the first text is ended. -/
theorem lines_append {a b : Text} (h : IsEnded a) : lines (a ++ b) = lines a ++ lines b := by
  fun_induction lines a with
  | case1 => rfl
  | case2 s ih =>
    rw [List.cons_append, lines, ih (isEnded_of_cons h), List.cons_append]
  | case3 s ih =>
    rw [List.cons_append, List.cons_append, lines, ih (isEnded_of_cons (isEnded_of_cons h)),
      List.cons_append]
  | case4 c s hc hr hs ih =>
    -- the text would end in a character that is no line feed
    obtain rfl := lines_eq_nil_iff.mp hs
    rcases h with h | h
    · simp at h
    · exact absurd (by simpa using h) hc
  | case5 c s hc hr l ls hs ih =>
    have hne : s ≠ [] := fun he => by simp [he, lines] at hs
    rw [List.cons_append, lines_cons hc, ih (isEnded_of_cons h), hs]
    · rfl
    · rintro rfl hn
      cases s with
      | nil => exact hne rfl
      | cons d s => exact hr s rfl (by simpa using hn)

theorem newline_not_mem_of_mem_lines {s l : Text} (h : l ∈ lines s) : '\n' ∉ l := by
  fun_induction lines s generalizing l with
  | case1 => simp at h
  | case2 s ih | case3 s ih =>
    rcases List.mem_cons.mp h with rfl | h
    · simp
    · exact ih h
  | case4 c s hc _ hs ih =>
    obtain rfl := List.mem_singleton.mp h
    simpa using Ne.symm hc
  | case5 c s hc _ m ms hs ih =>
    rw [hs] at ih
    rcases List.mem_cons.mp h with rfl | h
    · simp [Ne.symm hc, ih List.mem_cons_self]
    · exact ih (List.mem_cons_of_mem m h)

end CacheHost.Text
