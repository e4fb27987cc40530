import CacheHost.Proofs.Json.Number
import CacheHost.Proofs.Json.Quoted
import Mathlib.Data.List.DropRight
import Mathlib.Data.List.Forall2

namespace CacheHost.Json
variable {α σ : Type}

/-- A text that a value starts with: neither space nor the end of an array. -/
def Opens (t : Text) : Prop := ∃ c s, t = c :: s ∧ isSpace c = false ∧ c ≠ ']'

/-- A reader takes the text of a value from the front of all that can follow it. -/
structure Reads (r : Reader α) (t : Text) (x : α) : Prop where
  opens : Opens t
  read : ∀ rest, EndsNumber rest → r (t ++ rest) = .ok (x, rest)

theorem skipSpace_cons {c : Char} (h : isSpace c = false) (s : Text) :
    skipSpace (c :: s) = c :: s := by
  simp [skipSpace, h]

theorem skipSpace_eq_self {t : Text} (h : Opens t) : skipSpace t = t := by
  obtain ⟨c, s, rfl, hc, -⟩ := h
  exact skipSpace_cons hc s

theorem skipSpace_idem (s : Text) : skipSpace (skipSpace s) = skipSpace s :=
  List.dropWhile_idempotent isSpace s

theorem skipSpace_append {t : Text} (h : Opens (skipSpace t)) (rest : Text) :
    skipSpace (t ++ rest) = skipSpace t ++ rest := by
  obtain ⟨c, s, hs, -⟩ := h
  have hne : (t.dropWhile isSpace).isEmpty = false := by
    change (skipSpace t).isEmpty = false
    rw [hs]
    rfl
  rw [skipSpace, List.dropWhile_append, hne]
  rfl

/-- A reader takes a value from behind the space in front of its text, and leaves all that follows,
but for space. -/
structure Takes (r : Reader α) (t : Text) (x : α) : Prop where
  opens : Opens (skipSpace t)
  take : ∀ rest, EndsNumber rest →
    ∃ left, r (skipSpace t ++ rest) = .ok (x, left) ∧ skipSpace left = skipSpace rest

theorem Reads.takes {r : Reader α} {t : Text} {x : α} (h : Reads r t x) : Takes r t x where
  opens := (skipSpace_eq_self h.opens).symm ▸ h.opens
  take rest hr := ⟨rest, (skipSpace_eq_self h.opens).symm ▸ h.read rest hr, rfl⟩

theorem intercalate_cons (sep t : Text) (ts : List Text) :
    sep.intercalate (t :: ts) = t ++ ts.flatMap (sep ++ ·) := by
  induction ts generalizing t with
  | nil => simp [List.intercalate]
  | cons u ts ih =>
    have hu : sep.intercalate (t :: u :: ts) = t ++ (sep ++ sep.intercalate (u :: ts)) := by
      simp [List.intercalate]
    rw [hu, ih, List.flatMap_cons, List.append_assoc]

/-- Each of these texts takes a character, as it stands behind a comma. -/
theorem length_le_flatMap_comma (ts : List Text) :
    ts.length ≤ (ts.flatMap ([','] ++ ·)).length := by
  induction ts with
  | nil => exact Nat.le_refl 0
  | cons t ts ih => simp only [List.flatMap_cons, List.length_append, List.length_cons]; omega

theorem endsNumber_cons {c : Char} (h : c.isDigit = false ∧ c ≠ '.' ∧ c ≠ 'e' ∧ c ≠ 'E')
    (s : Text) : EndsNumber (c :: s) := by
  intro d hd
  exact Option.some.inj hd ▸ h

theorem endsNumber_flatMap_comma (ts : List Text) {rest : Text} (h : EndsNumber rest) :
    EndsNumber (ts.flatMap ([','] ++ ·) ++ rest) := by
  cases ts with
  | nil => exact h
  | cons t ts => exact endsNumber_cons (by decide) _

theorem endsNumber_items (ts : List Text) (rest : Text) :
    EndsNumber (ts.flatMap ([','] ++ ·) ++ ']' :: rest) :=
  endsNumber_flatMap_comma ts (endsNumber_cons (by decide) rest)

theorem skipSpace_items (ts : List Text) (rest : Text) :
    skipSpace (ts.flatMap ([','] ++ ·) ++ ']' :: rest) =
      ts.flatMap ([','] ++ ·) ++ ']' :: rest := by
  cases ts <;> rfl

section Items
variable {item : Reader α} {ts : List Text} {xs : List α}

theorem nextItem_first {t : Text} (h : Opens (skipSpace t)) (rest : Text) :
    nextItem true (t ++ rest) = .ok (some (skipSpace t ++ rest)) := by
  have hs := skipSpace_append h rest
  obtain ⟨c, u, ht, -, hb⟩ := h
  rw [ht] at hs
  simp [nextItem, hs, ht]

theorem nextItem_comma {s t rest : Text} (hs : skipSpace s = ',' :: (t ++ rest))
    (h : Opens (skipSpace t)) : nextItem false s = .ok (some (skipSpace t ++ rest)) := by
  have ht := skipSpace_append h rest
  obtain ⟨c, u, hu, -, hb⟩ := h
  rw [hu] at ht
  simp [nextItem, hs, ht, hb, hu]

theorem readItemsWithin_comma (h : List.Forall₂ (Takes item) ts xs) {bound : Nat}
    (hb : ts.length < bound) {s rest : Text}
    (hs : skipSpace s = ts.flatMap ([','] ++ ·) ++ ']' :: rest) :
    readItemsWithin item bound false s = .ok (xs, rest) := by
  induction h generalizing bound s with
  | nil =>
    cases bound with
    | zero => exact absurd hb (Nat.not_lt_zero _)
    | succ n =>
      have hs : skipSpace s = ']' :: rest := hs
      simp [readItemsWithin, nextItem, close, hs, ok_bind]
  | @cons t x ts xs hx _ ih =>
    cases bound with
    | zero => exact absurd hb (Nat.not_lt_zero _)
    | succ n =>
      obtain ⟨left, hitem, hleft⟩ := hx.take _ (endsNumber_items ts rest)
      have hs : skipSpace s = ',' :: (t ++ (ts.flatMap ([','] ++ ·) ++ ']' :: rest)) := by
        rw [hs, List.flatMap_cons, List.append_assoc, List.append_assoc, List.singleton_append]
      rw [readItemsWithin, nextItem_comma hs hx.opens, ok_bind]
      show (item _ >>= _) = _
      rw [hitem, ok_bind]
      show (readItemsWithin item n false left >>= _) = _
      rw [ih (Nat.lt_of_succ_lt_succ hb) (hleft.trans (skipSpace_items ts rest)), ok_bind]

/-- The items of an array are read from their texts between commas. -/
theorem readItems_takes (h : List.Forall₂ (Takes item) ts xs) (rest : Text) :
    readItems item ([','].intercalate ts ++ ']' :: rest) = .ok (xs, rest) := by
  cases h with
  | nil => rfl
  | @cons t x ts xs hx hxs =>
    obtain ⟨left, hitem, hleft⟩ := hx.take _ (endsNumber_items ts rest)
    rw [intercalate_cons, List.append_assoc, readItems, readItemsWithin, nextItem_first hx.opens,
      ok_bind]
    show (item _ >>= _) = _
    rw [hitem, ok_bind]
    show (readItemsWithin item _ false left >>= _) = _
    rw [readItemsWithin_comma hxs ?_ (hleft.trans (skipSpace_items ts rest)), ok_bind]
    have := length_le_flatMap_comma ts
    simp only [List.length_append, List.length_cons]
    omega

theorem readItems_intercalate {enc : α → Text} (h : ∀ x ∈ xs, Reads item (enc x) x)
    (rest : Text) :
    readItems item ([','].intercalate (xs.map enc) ++ ']' :: rest) = .ok (xs, rest) := by
  apply readItems_takes
  rw [List.forall₂_map_left_iff, List.forall₂_same]
  exact fun x hx => (h x hx).takes

end Items

section Members
variable {use : Use} {member : σ → Text → Reader σ} {a b c : σ} {ts : List Text}
  {ms : List (Text × Text)}

/-- A member is read from its name between quotes and from what follows, and put to what the members
before it have given. -/
def TakesMember (use : Use) (member : σ → Text → Reader σ) (a : σ) (t : Text) (b : σ) : Prop :=
  ∃ u, skipSpace t = '"' :: u ∧ ∀ rest, EndsNumber rest → ∃ name s left,
    readString use (u ++ rest) = .ok (name, s) ∧ member a name s = .ok (b, left) ∧
      skipSpace left = skipSpace rest

inductive FoldTakes (use : Use) (member : σ → Text → Reader σ) : σ → List Text → σ → Prop where
  | nil (a : σ) : FoldTakes use member a [] a
  | cons {a b c : σ} {t : Text} {ts : List Text} (h : TakesMember use member a t b)
    (hs : FoldTakes use member b ts c) : FoldTakes use member a (t :: ts) c

theorem endsNumber_members (ts : List Text) (rest : Text) :
    EndsNumber (ts.flatMap ([','] ++ ·) ++ '\x7d' :: rest) :=
  endsNumber_flatMap_comma ts (endsNumber_cons (by decide) rest)

theorem skipSpace_members (ts : List Text) (rest : Text) :
    skipSpace (ts.flatMap ([','] ++ ·) ++ '\x7d' :: rest) =
      ts.flatMap ([','] ++ ·) ++ '\x7d' :: rest := by
  cases ts <;> rfl

theorem skipSpace_append_name {t u : Text} (h : skipSpace t = '"' :: u) (rest : Text) :
    skipSpace (t ++ rest) = '"' :: (u ++ rest) := by
  rw [skipSpace_append ⟨'"', u, h, by decide, by decide⟩, h, List.cons_append]

theorem nextName_first {t u : Text} (h : skipSpace t = '"' :: u) (rest : Text) :
    nextName true (t ++ rest) = .ok (some (u ++ rest)) := by
  simp [nextName, skipSpace_append_name h]

theorem nextName_comma {s t u rest : Text} (hs : skipSpace s = ',' :: (t ++ rest))
    (h : skipSpace t = '"' :: u) : nextName false s = .ok (some (u ++ rest)) := by
  simp [nextName, hs, skipSpace_append_name h]

theorem foldMembersWithin_comma (h : FoldTakes use member a ts b) {bound : Nat}
    (hb : ts.length < bound) {s rest : Text}
    (hs : skipSpace s = ts.flatMap ([','] ++ ·) ++ '\x7d' :: rest) :
    foldMembersWithin use member bound false a s = .ok (b, rest) := by
  induction h generalizing bound s with
  | nil a =>
    cases bound with
    | zero => exact absurd hb (Nat.not_lt_zero _)
    | succ n =>
      have hs : skipSpace s = '\x7d' :: rest := hs
      simp [foldMembersWithin, nextName, close, hs, ok_bind]
  | @cons a b c t ts hm _ ih =>
    cases bound with
    | zero => exact absurd hb (Nat.not_lt_zero _)
    | succ n =>
      obtain ⟨u, hu, htake⟩ := hm
      obtain ⟨name, behind, left, hname, hmember, hleft⟩ := htake _ (endsNumber_members ts rest)
      have hs : skipSpace s = ',' :: (t ++ (ts.flatMap ([','] ++ ·) ++ '\x7d' :: rest)) := by
        rw [hs, List.flatMap_cons, List.append_assoc, List.append_assoc, List.singleton_append]
      rw [foldMembersWithin, nextName_comma hs hu, ok_bind]
      show (readString use _ >>= _) = _
      rw [hname, ok_bind]
      show (member a name _ >>= _) = _
      rw [hmember, ok_bind]
      exact ih (Nat.lt_of_succ_lt_succ hb) (hleft.trans (skipSpace_members ts rest))

/-- The members of an object are read from their texts between commas. -/
theorem foldMembers_takes (h : FoldTakes use member a ts b) (rest : Text) :
    foldMembers use member a ([','].intercalate ts ++ '\x7d' :: rest) = .ok (b, rest) := by
  cases h with
  | nil => rfl
  | @cons _ b _ t ts hm hs =>
    obtain ⟨u, hu, htake⟩ := hm
    obtain ⟨name, behind, left, hname, hmember, hleft⟩ := htake _ (endsNumber_members ts rest)
    rw [intercalate_cons, List.append_assoc, foldMembers, foldMembersWithin, nextName_first hu,
      ok_bind]
    show (readString use _ >>= _) = _
    rw [hname, ok_bind]
    show (member a name _ >>= _) = _
    rw [hmember, ok_bind]
    apply foldMembersWithin_comma hs ?_ (hleft.trans (skipSpace_members ts rest))
    have := length_le_flatMap_comma ts
    simp only [List.length_append, List.length_cons]
    omega

def memberText (m : Text × Text) : Text := stringText m.1 ++ [':'] ++ m.2

/-- Members that are written without space are read in front of all that can follow them. -/
inductive FoldReads (member : σ → Text → Reader σ) : σ → List (Text × Text) → σ → Prop where
  | nil (a : σ) : FoldReads member a [] a
  | cons {a b c : σ} {name t : Text} {ms : List (Text × Text)}
    (h : ∀ rest, EndsNumber rest → member a name (':' :: (t ++ rest)) = .ok (b, rest))
    (hs : FoldReads member b ms c) : FoldReads member a ((name, t) :: ms) c

theorem FoldReads.append {ms' : List (Text × Text)} (h : FoldReads member a ms b)
    (h' : FoldReads member b ms' c) : FoldReads member a (ms ++ ms') c := by
  induction h with
  | nil a => exact h'
  | cons hm _ ih => exact .cons hm (ih h')

theorem skipSpace_memberText (m : Text × Text) : skipSpace (memberText m) =
    '"' :: (m.1.flatMap escapedChar ++ '"' :: ':' :: m.2) := by
  have h : memberText m = '"' :: (m.1.flatMap escapedChar ++ '"' :: ':' :: m.2) := by
    simp [memberText, stringText]
  rw [h, skipSpace_cons (by decide)]

theorem FoldReads.takes (h : FoldReads member a ms b) :
    FoldTakes use member a (ms.map memberText) b := by
  induction h with
  | nil a => exact .nil a
  | @cons a b c name t ms hm _ ih =>
    refine .cons ⟨_, skipSpace_memberText (name, t), fun rest hr => ?_⟩ ih
    refine ⟨name, ':' :: (t ++ rest), rest, ?_, hm rest hr, rfl⟩
    rw [List.append_assoc]
    exact readString_quoted use name _

theorem foldMembers_intercalate (h : FoldReads member a ms b) (rest : Text) :
    foldMembers use member a ([','].intercalate (ms.map memberText) ++ '\x7d' :: rest) =
      .ok (b, rest) :=
  foldMembers_takes h.takes rest

/-- Each member is put in front of the members before it. -/
theorem foldReads_cons {member : List (Text × α) → Text → Reader (List (Text × α))}
    {enc : α → Text} {es : List (Text × α)}
    (h : ∀ e ∈ es, ∀ acc rest, EndsNumber rest →
      member acc e.1 (':' :: (enc e.2 ++ rest)) = .ok (e :: acc, rest)) (acc : List (Text × α)) :
    FoldReads member acc (es.map fun e => (e.1, enc e.2)) (es.reverse ++ acc) := by
  induction es generalizing acc with
  | nil => exact .nil acc
  | cons e es ih =>
    obtain ⟨he, hes⟩ := List.forall_mem_cons.mp h
    rw [List.reverse_cons, List.append_assoc]
    exact .cons (he acc) (ih hes (e :: acc))

/-- Members that are all read alike. -/
theorem readMembers_intercalate {value : Reader α} (enc : α → Text) {es : List (Text × α)}
    (h : ∀ e ∈ es, Reads value (enc e.2) e.2) (rest : Text) :
    readMembers use value
      ([','].intercalate ((es.map fun e => (e.1, enc e.2)).map memberText) ++ '\x7d' :: rest) =
      .ok (es, rest) := by
  rw [readMembers, foldMembers_intercalate (foldReads_cons _ []) rest, ok_bind]
  · simp
  · intro e he acc rest hr
    show (value _ >>= _) = _
    rw [(h e he).read rest hr]
    rfl

end Members

end CacheHost.Json
