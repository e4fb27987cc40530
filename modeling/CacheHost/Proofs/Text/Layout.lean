import CacheHost.Proofs.Text.Blank
import CacheHost.Proofs.Text.Line
import Mathlib.Data.List.Basic
import Mathlib.Data.List.Induction

namespace CacheHost.Text

def withReturns (s : Text) : Text := s.flatMap fun c => if c = '\n' then ['\r', '\n'] else [c]

/-- Blanks in front of a line. A line feed would end it. -/
def IsIndent (g : Text) : Prop := IsGap g ∧ '\n' ∉ g

instance (g : Text) : Decidable (IsIndent g) := inferInstanceAs (Decidable (_ ∧ _))

/-- The second text is the first one with an indent, which may be empty, put in front of each line.
A line may hold returns; behind the last line feed there is a line only if there is a character. -/
inductive Indents : Text → Text → Prop
  | nil : Indents [] []
  | last {g l : Text} (hg : IsIndent g) (hne : l ≠ []) (hl : '\n' ∉ l) : Indents l (g ++ l)
  | line {g l s t : Text} (hg : IsIndent g) (hl : '\n' ∉ l) (h : Indents s t) :
    Indents (l ++ '\n' :: s) (g ++ l ++ '\n' :: t)

def unindented (s : Text) : List Text := (lines s).map trimStart

variable {s t : Text}

theorem lines_withReturns (h : '\r' ∉ s) : lines (withReturns s) = lines s := by
  induction s with
  | nil => rfl
  | cons c s ih =>
    obtain ⟨hc, hs⟩ := List.ne_and_not_mem_of_not_mem_cons h
    by_cases hn : c = '\n'
    · subst hn
      exact congrArg ([] :: ·) (ih hs)
    · have hw : withReturns (c :: s) = c :: withReturns s := by simp [withReturns, hn]
      rw [hw, lines_cons hn fun hr => absurd hr hc.symm, ih hs,
        lines_cons hn fun hr => absurd hr hc.symm]

/-- A text is parted behind its last line feed. -/
theorem exists_eq_append_last (s : Text) : ∃ a l, IsEnded a ∧ '\n' ∉ l ∧ s = a ++ l := by
  induction s using List.reverseRecOn with
  | nil => exact ⟨[], [], .inl rfl, List.not_mem_nil, rfl⟩
  | append_singleton s c ih =>
    by_cases hc : c = '\n'
    · exact ⟨s ++ [c], [], .inr (by simp [hc]), List.not_mem_nil, (List.append_nil _).symm⟩
    · obtain ⟨a, l, ha, hl, rfl⟩ := ih
      exact ⟨a, l ++ [c], ha, by simp [hl, Ne.symm hc], List.append_assoc ..⟩

/-- A line feed that ends the last line begins no other. A return in front would go along with it. -/
theorem lines_concat_newline (h : ¬IsEnded s) (hr : s.getLast? ≠ some '\r') :
    lines (s ++ ['\n']) = lines s := by
  obtain ⟨a, l, ha, hl, rfl⟩ := exists_eq_append_last s
  have hne : l ≠ [] := by
    rintro rfl
    exact h (by rwa [List.append_nil])
  rw [List.getLast?_append_of_ne_nil a hne] at hr
  rw [List.append_assoc, lines_append ha, lines_append ha, lines_append_newline hl,
    dropReturn_eq_self hr, lines_of_newline_notMem hne hl]
  rfl

/-- One more blank in front of a line. -/
theorem unindented_cons {c : Char} (hb : isBlank c = true) (hc : c ≠ '\n') (hs : s ≠ []) :
    unindented (c :: s) = unindented s := by
  by_cases hr : c = '\r' ∧ s.head? = some '\n'
  · -- a return in front of an empty line goes along with the end of it
    obtain ⟨rfl, hn⟩ := hr
    obtain ⟨s, rfl⟩ := List.head?_eq_some_iff.mp hn
    rfl
  · rw [unindented, unindented, lines_cons hc fun hcr hn => hr ⟨hcr, hn⟩]
    cases hl : lines s with
    | nil => exact absurd (lines_eq_nil_iff.mp hl) hs
    | cons l ls =>
      have hcl : trimStart (c :: l) = trimStart l := List.dropWhile_cons_of_pos hb
      exact congrArg (· :: ls.map trimStart) hcl

theorem unindented_append {g : Text} (hg : IsIndent g) (hs : s ≠ []) :
    unindented (g ++ s) = unindented s := by
  obtain ⟨hb, hn⟩ := hg
  induction g with
  | nil => rfl
  | cons c g ih =>
    obtain ⟨hbc, hbg⟩ := List.forall_mem_cons.mp hb
    obtain ⟨hc, hng⟩ := List.ne_and_not_mem_of_not_mem_cons hn
    rw [List.cons_append, unindented_cons hbc hc.symm (List.append_ne_nil_of_right_ne_nil g hs),
      ih hbg hng]

theorem unindented_line {l : Text} (hl : '\n' ∉ l) (s : Text) :
    unindented (l ++ '\n' :: s) = trimStart (dropReturn l) :: unindented s := by
  rw [unindented, lines_append_newline hl, List.map_cons, unindented]

theorem Indents.unindented_eq (h : Indents s t) : unindented t = unindented s := by
  induction h with
  | nil => rfl
  | last hg hne _ => exact unindented_append hg hne
  | line hg hl _ ih =>
    rw [List.append_assoc, unindented_append hg (by simp), unindented_line hl, unindented_line hl,
      ih]

end CacheHost.Text
