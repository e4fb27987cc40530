import CacheHost.Proofs.Json.Reading
/-!
A text denotes one value and no other. Of two values that a text denotes, both are what a reader
returns that keeps a number as it is written, so that none is out of range for it.
-/
namespace CacheHost.Json

def readFormWith (value : Reader Form) : Reader Form := fun s =>
  match skipSpace s with
  | [] => .error .truncated
  | c :: s =>
    match c with
    | 'n' => readWord "ull".toList .null s
    | 't' => readWord "rue".toList (.bool true) s
    | 'f' => readWord "alse".toList (.bool false) s
    | '"' => (readString .keep s).map fun p => (.string p.1, p.2)
    | '[' => (readItems value s).map fun p => (.array p.1, p.2)
    | '\x7b' => (readMembers .keep value s).map fun p => (.object p.1, p.2)
    | '-' => (numeral .truncated true s).map fun p => (.number p.1, p.2)
    | c => (numeral .truncated false (c :: s)).map fun p => (.number p.1, p.2)

def readForm : Nat → Reader Form
  | 0 => fun _ => .error .malformed
  | depth + 1 => readFormWith (readForm depth)

theorem readForm_skipSpace (depth : Nat) (s : Text) :
    readForm depth (skipSpace s) = readForm depth s := by
  cases depth with
  | zero => rfl
  | succ d => rw [readForm, readFormWith, readFormWith, skipSpace_idem]

section Reads
variable {value : Reader Form} {t : Text}

theorem readFormWith_digit {c : Char} (hc : c.isDigit = true) (s : Text) :
    readFormWith value (c :: s) =
      (numeral .truncated false (c :: s)).map fun p => (.number p.1, p.2) := by
  simp only [readFormWith, skipSpace_cons (isSpace_of_isDigit hc)]
  split
  case h_8 => rfl
  -- no digit is one of the other characters that begin a value
  all_goals exact absurd hc (by decide)

theorem reads_formNumeral {x : Numeral} (h : ShowsNumeral t x) :
    Reads (readFormWith value) t (.number x) := by
  obtain @⟨negative, whole, point, mark, _, _, hw, hz, hd, he⟩ := h
  have hread := @numeral_of_shows .truncated negative _ _ _ _ _ hw hz hd he
  cases negative with
  | true =>
    refine ⟨⟨'-', _, rfl, by decide, by decide⟩, fun rest hr => ?_⟩
    show (numeral .truncated true (whole ++ (point ++ mark) ++ rest)).map _ = _
    rw [numeral_append hread hr]
    rfl
  | false =>
    obtain ⟨c, whole, rfl⟩ := List.exists_cons_of_ne_nil hw.1
    have hc := hw.2 c List.mem_cons_self
    refine ⟨opens_digit hc _, fun rest hr => ?_⟩
    show readFormWith value (c :: (whole ++ (point ++ mark) ++ rest)) = _
    rw [readFormWith_digit hc]
    show (numeral .truncated false (c :: whole ++ (point ++ mark) ++ rest)).map _ = _
    rw [numeral_append hread hr]
    rfl

theorem reads_formQuoted {s : Text} (h : Quotes t s) :
    Reads (readFormWith value) ('"' :: (t ++ ['"'])) (.string s) := by
  refine reads_enclosed (by decide) (by decide) fun rest => ?_
  show (readString .keep _).map _ = _
  rw [readString_quotes h]
  rfl

theorem reads_formItems {vs : List Form}
    (h : ∀ rest, readItems value (t ++ ']' :: rest) = .ok (vs, rest)) :
    Reads (readFormWith value) ('[' :: (t ++ [']'])) (.array vs) := by
  refine reads_enclosed (by decide) (by decide) fun rest => ?_
  show (readItems value _).map _ = _
  rw [h]
  rfl

theorem reads_formMembers {ms : List (Text × Form)}
    (h : ∀ rest, readMembers .keep value (t ++ '\x7d' :: rest) = .ok (ms, rest)) :
    Reads (readFormWith value) ('\x7b' :: (t ++ ['\x7d'])) (.object ms) := by
  refine reads_enclosed (by decide) (by decide) fun rest => ?_
  show (readMembers .keep value _).map _ = _
  rw [h]
  rfl

end Reads

/-- A depth that does for each of finitely many does for all of them. -/
theorem exists_common_depth {α : Type} {P : Nat → α → Prop} {xs : List α}
    (h : ∀ x ∈ xs, ∃ n, ∀ d, n ≤ d → P d x) : ∃ n, ∀ d, n ≤ d → ∀ x ∈ xs, P d x := by
  induction xs with
  | nil => exact ⟨0, by simp⟩
  | cons x xs ih =>
    obtain ⟨⟨m, hm⟩, hxs⟩ := List.forall_mem_cons.mp h
    obtain ⟨n, hn⟩ := ih hxs
    refine ⟨max m n, fun d hd => List.forall_mem_cons.mpr ⟨hm d ?_, hn d ?_⟩⟩
    · exact Nat.le_trans (Nat.le_max_left m n) hd
    · exact Nat.le_trans (Nat.le_max_right m n) hd

theorem takes_form_succ {t : Text} {v : Form} {n : Nat}
    (h : ∀ d, n ≤ d → Reads (readFormWith (readForm d)) t v) :
    ∃ n, ∀ d, n ≤ d → Takes (readForm d) t v := by
  refine ⟨n + 1, fun d hd => ?_⟩
  cases d with
  | zero => exact absurd hd (Nat.not_succ_le_zero n)
  | succ d => exact (h d (Nat.le_of_succ_le_succ hd)).takes

theorem takes_form_leaf {t : Text} {v : Form}
    (h : ∀ value, Reads (readFormWith value) t v) : ∃ n, ∀ d, n ≤ d → Takes (readForm d) t v :=
  @takes_form_succ t v 0 fun d _ => h (readForm d)

/-- Whatever a text denotes is read from it, if arrays and objects may be nested deep enough. -/
theorem exists_takes_form {t : Text} {v : Form} (h : Denotes t v) :
    ∃ n, ∀ d, n ≤ d → Takes (readForm d) t v := by
  induction h with
  | padded hb _ ha ih =>
    obtain ⟨n, hn⟩ := ih
    exact ⟨n, fun d hd => (hn d hd).pad hb ha⟩
  | null =>
    exact takes_form_leaf fun _ => ⟨⟨'n', _, rfl, by decide, by decide⟩, fun _ _ => rfl⟩
  | false =>
    exact takes_form_leaf fun _ => ⟨⟨'f', _, rfl, by decide, by decide⟩, fun _ _ => rfl⟩
  | true =>
    exact takes_form_leaf fun _ => ⟨⟨'t', _, rfl, by decide, by decide⟩, fun _ _ => rfl⟩
  | number h => exact takes_form_leaf fun _ => reads_formNumeral h
  | string h => exact takes_form_leaf fun _ => reads_formQuoted h
  | noItems hg => exact takes_form_leaf fun _ => reads_formItems (readItems_gap _ hg)
  | @array es _ ih =>
    -- the brackets take one level more than the item that is nested deepest
    obtain ⟨n, hn⟩ := exists_common_depth ih
    refine takes_form_succ fun d (hd : n ≤ d) => reads_formItems (readItems_takes ?_)
    rw [List.forall₂_map_left_iff, List.forall₂_map_right_iff, List.forall₂_same]
    exact hn d hd
  | noMembers hg => exact takes_form_leaf fun _ => reads_formMembers (readMembers_gap .keep _ hg)
  | @object ms hn _ ih =>
    obtain ⟨n, hv⟩ := exists_common_depth ih
    exact takes_form_succ fun d (hd : n ≤ d) =>
      reads_formMembers (@readMembers_takes _ _ (readForm_skipSpace d) id _ hn (hv d hd))

/-- The grammar is unambiguous. -/
theorem Denotes.unique {t : Text} {v w : Form} (hv : Denotes t v) (hw : Denotes t w) : v = w := by
  obtain ⟨m, hm⟩ := exists_takes_form hv
  obtain ⟨n, hn⟩ := exists_takes_form hw
  have hends : EndsNumber [] := by simp [EndsNumber]
  obtain ⟨_, hreadv, -⟩ := (hm (max m n) (Nat.le_max_left m n)).take [] hends
  obtain ⟨_, hreadw, -⟩ := (hn (max m n) (Nat.le_max_right m n)).take [] hends
  exact congrArg Prod.fst (Except.ok.inj (hreadv.symm.trans hreadw))

end CacheHost.Json
