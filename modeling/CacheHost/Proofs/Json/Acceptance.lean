import CacheHost.Proofs.Json.Reading

namespace CacheHost.Json

theorem exists_spaces (s : Text) : ∃ gap, IsSpaces gap ∧ s = gap ++ skipSpace s := by
  refine ⟨s.takeWhile isSpace, fun c hc => ?_, List.takeWhile_append_dropWhile.symm⟩
  exact isSpace_eq_true_iff.mp (List.mem_takeWhile_imp hc)

section Number
variable {atEnd : DecodeError} {s r : Text}

theorem shows_of_decimalPart {d : Option Text} (h : decimalPart atEnd s = .ok (d, r)) :
    ∃ t, s = t ++ r ∧ ShowsDecimals t d := by
  rcases decimalPart_eq_ok_iff.mp h with ⟨rfl, rfl, -⟩ | ⟨ds, t, rfl, rfl, hd⟩
  · exact ⟨[], rfl, .none⟩
  · obtain ⟨hne, hds, -, rfl⟩ := someDigits_eq_ok_iff.mp hd
    exact ⟨'.' :: ds, rfl, .some ⟨hne, hds⟩⟩

theorem shows_of_exponentPart {e : Option (Bool × Text)} (h : exponentPart atEnd s = .ok (e, r)) :
    ∃ t, s = t ++ r ∧ ShowsExponent t e := by
  rcases exponentPart_eq_ok_iff.mp h with ⟨rfl, rfl, -⟩ | ⟨mark, t, ds, hm, rfl, rfl, hd⟩
  · exact ⟨[], rfl, .none⟩
  · obtain ⟨hne, hds, -, ht⟩ := someDigits_eq_ok_iff.mp hd
    have hmark : mark ∈ ['e', 'E'] := by simpa using hm
    revert ht
    fun_cases exponentSign t with
    | case1 t =>
      rintro rfl
      exact ⟨mark :: '-' :: ds, rfl, .minus hmark ⟨hne, hds⟩⟩
    | case2 t =>
      rintro rfl
      exact ⟨mark :: '+' :: ds, rfl, .plus hmark ⟨hne, hds⟩⟩
    | case3 =>
      rintro rfl
      exact ⟨mark :: ds, rfl, .bare hmark ⟨hne, hds⟩⟩

theorem shows_of_numeral {negative : Bool} {x : Numeral}
    (h : numeral atEnd negative s = .ok (x, r)) :
    ∃ t, (if negative then ['-'] else []) ++ s = t ++ r ∧ ShowsNumeral t x := by
  obtain ⟨negative', whole, decimals, exponent⟩ := x
  obtain ⟨rfl, s₁, s₂, hw, hd, he⟩ := numeral_eq_ok_iff.mp h
  obtain ⟨hdigits, hz⟩ := wholePart_eq_ok_iff.mp hw
  obtain ⟨hne, hds, -, rfl⟩ := someDigits_eq_ok_iff.mp hdigits
  obtain ⟨point, rfl, hpoint⟩ := shows_of_decimalPart hd
  obtain ⟨mark, rfl, hmark⟩ := shows_of_exponentPart he
  refine ⟨_, ?_, .intro ⟨hne, hds⟩ ?_ hpoint hmark⟩
  · simp
  · intro hzero
    by_contra hne
    exact hz ⟨hzero, hne⟩

end Number

section Quoted

theorem toNat_lt_of_hexDigit? {c : Char} {n : Nat} (h : hexDigit? c = some n) :
    c.toNat < 128 := by
  have hle : ∀ {d : Char}, c ≤ d → c.toNat ≤ d.toNat := fun h => h
  unfold hexDigit? at h
  split at h
  · rename_i hc
    have := (Char.isDigit_iff_toNat.mp hc).2
    have h9 : '9'.toNat = 57 := rfl
    omega
  · split at h
    · rename_i hc
      exact Nat.lt_of_le_of_lt (hle hc.2) (by decide)
    · split at h
      · rename_i hc
        exact Nat.lt_of_le_of_lt (hle hc.2) (by decide)
      · simp at h

theorem isHexDigit_of_hexDigit? {c : Char} {n : Nat} (h : hexDigit? c = some n) :
    IsHexDigit c n := by
  have hall : ∀ k < 128, ∀ n ∈ hexDigit? (Char.ofNat k),
      "0123456789abcdef".toList[n]? = some (Char.ofNat k) ∨
        "0123456789ABCDEF".toList[n]? = some (Char.ofNat k) := by decide
  have hc := hall c.toNat (toNat_lt_of_hexDigit? h) n
  rw [Char.ofNat_toNat] at hc
  exact hc h

theorem exists_of_foldl_hexDigit? {t : Text} {v n : Nat}
    (h : t.foldl (fun v c => v.bind fun v => (hexDigit? c).map (v * 16 + ·)) (some v) = some n) :
    ∃ ds : List (Char × Nat), t = ds.map (·.1) ∧ (∀ d ∈ ds, IsHexDigit d.1 d.2) ∧
      n = ds.foldl (fun n d => n * 16 + d.2) v := by
  induction t generalizing v with
  | nil => exact ⟨[], rfl, by simp, (Option.some.inj h).symm⟩
  | cons c t ih =>
    rw [List.foldl_cons, Option.bind_some] at h
    cases hc : hexDigit? c with
    | none =>
      rw [hc, Option.map_none, List.foldl_fixed' fun _ => rfl] at h
      exact absurd h nofun
    | some d =>
      rw [hc] at h
      obtain ⟨ds, rfl, hds, rfl⟩ := ih h
      exact ⟨(c, d) :: ds, rfl, List.forall_mem_cons.mpr ⟨isHexDigit_of_hexDigit? hc, hds⟩, rfl⟩

theorem isCode_of_hex? {a b c d : Char} {n : Nat} (h : hex? [a, b, c, d] = some n) :
    IsCode [a, b, c, d] n := by
  obtain ⟨ds, ht, hds, hn⟩ := exists_of_foldl_hexDigit? h
  have hl := congrArg List.length ht
  rw [List.length_map] at hl
  exact ⟨ds, hl.symm, hds, ht, hn⟩

theorem lt_of_isCode {t : Text} {n : Nat} (h : IsCode t n) : n < 0x10000 := by
  obtain ⟨ds, hl, hds, -, rfl⟩ := h
  match ds, hl with
  | [a, b, c, d], _ =>
    simp only [List.forall_mem_cons] at hds
    obtain ⟨ha, hb, hc, hd, -⟩ := hds
    have := lt_of_isHexDigit ha
    have := lt_of_isHexDigit hb
    have := lt_of_isHexDigit hc
    have := lt_of_isHexDigit hd
    simp only [List.foldl_cons, List.foldl_nil]
    omega

theorem toNat_ofNat {n : Nat} (h : n < 0xD800 ∨ 0xDFFF < n ∧ n < 0x110000) :
    (Char.ofNat n).toNat = n := by
  have hv : n.isValidChar := h
  rw [Char.ofNat, dif_pos hv]
  rfl

theorem isHighSurrogate_iff {n : Nat} : isHighSurrogate n = true ↔ 0xD800 ≤ n ∧ n < 0xDC00 := by
  simp [isHighSurrogate]

theorem isLowSurrogate_iff {n : Nat} : isLowSurrogate n = true ↔ 0xDC00 ≤ n ∧ n < 0xE000 := by
  simp [isLowSurrogate]

theorem pushChar_eq_ok_iff {c : Char} {y : Except DecodeError (Text × Text)} {x r : Text} :
    pushChar c y = .ok (x, r) ↔ ∃ x', y = .ok (x', r) ∧ c :: x' = x := by
  rw [pushChar, map_eq_ok_iff]
  constructor
  · rintro ⟨⟨x', r'⟩, rfl, he⟩
    obtain ⟨hx, rfl⟩ := Prod.mk.inj he
    exact ⟨x', rfl, hx⟩
  · rintro ⟨x', rfl, rfl⟩
    exact ⟨_, rfl, rfl⟩

theorem mem_shortEscapes {mark c : Char} (h : shortEscape? mark = some c) :
    (mark, c) ∈ shortEscapes := by
  unfold shortEscape? at h
  split at h
  case h_9 => simp at h
  all_goals
    obtain rfl := Option.some.inj h
    decide

theorem quotes_of_readString {s x r : Text} (h : readString .keep s = .ok (x, r)) :
    ∃ t, s = t ++ '"' :: r ∧ Quotes t x := by
  fun_induction readString .keep s generalizing x with
  | case2 s =>
    obtain ⟨rfl, rfl⟩ := Prod.mk.inj (Except.ok.inj h)
    exact ⟨[], rfl, .nil⟩
  | case4 a b c d s n hn hs ih =>
    obtain ⟨x', hx, rfl⟩ := pushChar_eq_ok_iff.mp h
    obtain ⟨t, rfl, ht⟩ := ih hx
    have hcode := isCode_of_hex? hn
    have hlt := lt_of_isCode hcode
    have hchar : (Char.ofNat n).toNat = n := by
      apply toNat_ofNat
      simp only [Bool.and_eq_true, Bool.not_eq_true', ← Bool.not_eq_true, isHighSurrogate_iff,
        isLowSurrogate_iff] at hs
      omega
    exact ⟨'\\' :: 'u' :: ([a, b, c, d] ++ t), rfl, .code (hchar.symm ▸ hcode) ht⟩
  | case8 a b c d n hn hs _ hnl e f g i s m hm hlow ih =>
    -- what is no surrogate was pushed before, so the first code is the upper half of a pair
    obtain ⟨x', hx, rfl⟩ := pushChar_eq_ok_iff.mp h
    obtain ⟨t, rfl, ht⟩ := ih hx
    rw [isLowSurrogate_iff] at hnl hlow
    simp only [Bool.and_eq_true, Bool.not_eq_true', ← Bool.not_eq_true, isHighSurrogate_iff,
      isLowSurrogate_iff] at hs
    have hchar := toNat_ofNat (n := 0x10000 + (n - 0xD800) * 0x400 + (m - 0xDC00)) (by omega)
    refine ⟨'\\' :: 'u' :: ([a, b, c, d] ++ '\\' :: 'u' :: ([e, f, g, i] ++ t)), rfl,
      .pair ?_ ?_ ?_ ht⟩
    · omega
    · convert isCode_of_hex? hn using 1
      omega
    · convert isCode_of_hex? hm using 1
      omega
  | case16 mark s _ _ c hc ih =>
    obtain ⟨x', hx, rfl⟩ := pushChar_eq_ok_iff.mp h
    obtain ⟨t, rfl, ht⟩ := ih hx
    exact ⟨'\\' :: mark :: t, rfl, .escape (mem_shortEscapes hc) ht⟩
  | case19 c s hq _ _ _ hb' hc ih =>
    obtain ⟨x', hx, rfl⟩ := pushChar_eq_ok_iff.mp h
    obtain ⟨t, rfl, ht⟩ := ih hx
    refine ⟨c :: t, rfl, .plain (Nat.le_of_not_lt hc) hq (fun hslash => ?_) ht⟩
    cases t with
    | nil => exact hb' _ _ hslash rfl
    | cons d t => exact hb' _ _ hslash rfl
  | _ => simp_all

end Quoted

/-- Space around a text does not change what stands in `P` to it. -/
def Pads {α : Type} (P : Text → α → Prop) : Prop :=
  ∀ {before t after : Text} {x : α}, IsSpaces before → P t x → IsSpaces after →
    P (before ++ (t ++ after)) x

section Items
variable {α : Type} {item : Reader α} {P : Text → α → Prop} {xs : List α} {s r : Text}

theorem nextItem_first_cases {o : Option Text} (h : nextItem true s = .ok o) :
    ∃ gap, IsSpaces gap ∧ ((o = none ∧ s = gap ++ ']' :: close s) ∨
      ∃ t, o = some t ∧ s = gap ++ t) := by
  obtain ⟨gap, hg, hs⟩ := exists_spaces s
  refine ⟨gap, hg, ?_⟩
  unfold nextItem at h
  split at h
  · simp at h
  · rename_i t ht
    exact .inl ⟨(Except.ok.inj h).symm, by rwa [close, ht, List.tail_cons, ← ht]⟩
  · rename_i c t _ ht
    exact .inr ⟨c :: t, (Except.ok.inj h).symm, ht ▸ hs⟩

theorem nextItem_comma_cases {o : Option Text} (h : nextItem false s = .ok o) :
    ∃ gap, IsSpaces gap ∧ ((o = none ∧ s = gap ++ ']' :: close s) ∨
      ∃ gap' t, IsSpaces gap' ∧ o = some t ∧ s = gap ++ ',' :: (gap' ++ t)) := by
  obtain ⟨gap, hg, hs⟩ := exists_spaces s
  refine ⟨gap, hg, ?_⟩
  unfold nextItem at h
  split at h
  · simp at h
  · rename_i t ht
    exact .inl ⟨(Except.ok.inj h).symm, by rwa [close, ht, List.tail_cons, ← ht]⟩
  · rename_i c t _ ht
    rw [if_neg Bool.false_ne_true] at h
    split at h
    · rename_i hc
      obtain ⟨gap', hg', ht'⟩ := exists_spaces t
      split at h
      · simp at h
      · simp at h
      · refine .inr ⟨gap', skipSpace t, hg', (Except.ok.inj h).symm, ?_⟩
        rw [← ht', ← hc, ← ht]
        exact hs
    · simp at h

theorem items_of_readItemsWithin (hp : Pads P)
    (hr : ∀ {s x r}, item s = .ok (x, r) → ∃ t, s = t ++ r ∧ P t x) {bound : Nat}
    (h : readItemsWithin item bound false s = .ok (xs, r)) :
    ∃ gap ts, IsSpaces gap ∧ s = gap ++ (ts.flatMap ([','] ++ ·) ++ ']' :: r) ∧
      List.Forall₂ P ts xs := by
  induction bound generalizing s xs with
  | zero => simp [readItemsWithin] at h
  | succ n ih =>
    obtain ⟨o, ho, h⟩ := bind_eq_ok_iff.mp h
    obtain ⟨gap, hg, ⟨rfl, hs⟩ | ⟨gap', t, hg', rfl, rfl⟩⟩ := nextItem_comma_cases ho
    · obtain ⟨rfl, rfl⟩ := Prod.mk.inj (Except.ok.inj h)
      exact ⟨gap, [], hg, hs, .nil⟩
    · obtain ⟨⟨x, s⟩, hx, h⟩ := bind_eq_ok_iff.mp h
      obtain ⟨⟨xs, r⟩, hxs, h⟩ := bind_eq_ok_iff.mp h
      obtain ⟨rfl, rfl⟩ := Prod.mk.inj (Except.ok.inj h)
      obtain ⟨u, rfl, hu⟩ := hr hx
      obtain ⟨gap'', ts, hg'', rfl, hts⟩ := ih hxs
      refine ⟨gap, (gap' ++ (u ++ gap'')) :: ts, hg, ?_, .cons (hp hg' hu hg'') hts⟩
      simp

/-- Each item that is read has a text, and an array without items is empty but for space. -/
theorem items_of_readItems (hp : Pads P)
    (hr : ∀ {s x r}, item s = .ok (x, r) → ∃ t, s = t ++ r ∧ P t x)
    (h : readItems item s = .ok (xs, r)) :
    (xs = [] ∧ ∃ gap, IsSpaces gap ∧ s = gap ++ ']' :: r) ∨
      ∃ ts, s = [','].intercalate ts ++ ']' :: r ∧ List.Forall₂ P ts xs := by
  obtain ⟨o, ho, h⟩ := bind_eq_ok_iff.mp h
  obtain ⟨gap, hg, ⟨rfl, hs⟩ | ⟨t, rfl, rfl⟩⟩ := nextItem_first_cases ho
  · obtain ⟨rfl, rfl⟩ := Prod.mk.inj (Except.ok.inj h)
    exact .inl ⟨rfl, gap, hg, hs⟩
  · obtain ⟨⟨x, s'⟩, hx, h⟩ := bind_eq_ok_iff.mp h
    obtain ⟨⟨xs, r⟩, hxs, h⟩ := bind_eq_ok_iff.mp h
    obtain ⟨rfl, rfl⟩ := Prod.mk.inj (Except.ok.inj h)
    obtain ⟨u, rfl, hu⟩ := hr hx
    obtain ⟨gap', ts, hg', rfl, hts⟩ := items_of_readItemsWithin hp hr hxs
    refine .inr ⟨(gap ++ (u ++ gap')) :: ts, ?_, .cons (hp hg hu hg') hts⟩
    simp [intercalate_cons]

end Items

section Members
variable {α : Type} {value : Reader α} {P : Text → Text × α → Prop} {acc es : List (Text × α)}
  {s r : Text}

theorem nextName_first_cases {o : Option Text} (h : nextName true s = .ok o) :
    ∃ gap, IsSpaces gap ∧ ((o = none ∧ s = gap ++ '\x7d' :: close s) ∨
      ∃ t, o = some t ∧ s = gap ++ '"' :: t) := by
  obtain ⟨gap, hg, hs⟩ := exists_spaces s
  refine ⟨gap, hg, ?_⟩
  unfold nextName at h
  split at h
  · simp at h
  · rename_i t ht
    exact .inl ⟨(Except.ok.inj h).symm, by rwa [close, ht, List.tail_cons, ← ht]⟩
  · rename_i c t _ ht
    rw [if_pos rfl] at h
    split at h
    · rename_i hc
      exact .inr ⟨t, (Except.ok.inj h).symm, hc ▸ ht ▸ hs⟩
    · simp at h

theorem nextName_comma_cases {o : Option Text} (h : nextName false s = .ok o) :
    ∃ gap, IsSpaces gap ∧ ((o = none ∧ s = gap ++ '\x7d' :: close s) ∨
      ∃ gap' t, IsSpaces gap' ∧ o = some t ∧ s = gap ++ ',' :: (gap' ++ '"' :: t)) := by
  obtain ⟨gap, hg, hs⟩ := exists_spaces s
  refine ⟨gap, hg, ?_⟩
  unfold nextName at h
  split at h
  · simp at h
  · rename_i t ht
    exact .inl ⟨(Except.ok.inj h).symm, by rwa [close, ht, List.tail_cons, ← ht]⟩
  · rename_i c t _ ht
    rw [if_neg Bool.false_ne_true] at h
    split at h
    · rename_i hc
      obtain ⟨gap', hg', ht'⟩ := exists_spaces t
      split at h
      · simp at h
      · rename_i u hu
        refine .inr ⟨gap', u, hg', (Except.ok.inj h).symm, ?_⟩
        rw [← hu, ← ht', ← hc, ← ht]
        exact hs
      · simp at h
    · simp at h

def ReadsMember (value : Reader α) (P : Text → Text × α → Prop) : Prop :=
  ∀ {name u s x r}, readString .keep u = .ok (name, s) → (colon s >>= value) = .ok (x, r) →
    ∃ t, '"' :: u = t ++ r ∧ P t (name, x)

theorem pushMember_eq_ok_iff {name : Text} :
    pushMember value acc name s = .ok (es, r) ↔
      ∃ x, (colon s >>= value) = .ok (x, r) ∧ es = (name, x) :: acc := by
  simp only [pushMember, bind_eq_ok_iff, Prod.exists]
  constructor
  · rintro ⟨t, ht, x, r', hx, he⟩
    obtain ⟨rfl, rfl⟩ := Prod.mk.inj (Except.ok.inj he)
    exact ⟨x, ⟨t, ht, hx⟩, rfl⟩
  · rintro ⟨x, ⟨t, ht, hx⟩, rfl⟩
    exact ⟨t, ht, x, r, hx, rfl⟩

theorem members_of_foldMembersWithin (hp : Pads P) (hr : ReadsMember value P) {bound : Nat}
    (h : foldMembersWithin .keep (pushMember value) bound false acc s = .ok (es, r)) :
    ∃ gap ts ms, IsSpaces gap ∧ s = gap ++ (ts.flatMap ([','] ++ ·) ++ '\x7d' :: r) ∧
      es = ms.reverse ++ acc ∧ List.Forall₂ P ts ms := by
  induction bound generalizing s acc with
  | zero => simp [foldMembersWithin] at h
  | succ n ih =>
    obtain ⟨o, ho, h⟩ := bind_eq_ok_iff.mp h
    obtain ⟨gap, hg, ⟨rfl, hs⟩ | ⟨gap', t, hg', rfl, rfl⟩⟩ := nextName_comma_cases ho
    · obtain ⟨rfl, rfl⟩ := Prod.mk.inj (Except.ok.inj h)
      exact ⟨gap, [], [], hg, hs, rfl, .nil⟩
    · obtain ⟨⟨name, s⟩, hname, h⟩ := bind_eq_ok_iff.mp h
      obtain ⟨⟨acc', s'⟩, hmember, h⟩ := bind_eq_ok_iff.mp h
      obtain ⟨x, hx, rfl⟩ := pushMember_eq_ok_iff.mp hmember
      obtain ⟨u, hu, hux⟩ := hr hname hx
      obtain ⟨gap'', ts, ms, hg'', rfl, rfl, hts⟩ := ih h
      refine ⟨gap, (gap' ++ (u ++ gap'')) :: ts, (name, x) :: ms, hg, ?_, ?_,
        .cons (hp hg' hux hg'') hts⟩
      · simp [hu]
      · simp

/-- Each member that is read has a text, and an object without members is empty but for space. -/
theorem members_of_readMembers (hp : Pads P) (hr : ReadsMember value P)
    (h : readMembers .keep value s = .ok (es, r)) :
    (es = [] ∧ ∃ gap, IsSpaces gap ∧ s = gap ++ '\x7d' :: r) ∨
      ∃ ts, s = [','].intercalate ts ++ '\x7d' :: r ∧ List.Forall₂ P ts es := by
  rw [readMembers_eq] at h
  obtain ⟨⟨es', r'⟩, hfold, he⟩ := map_eq_ok_iff.mp h
  obtain ⟨rfl, rfl⟩ := Prod.mk.inj he
  obtain ⟨o, ho, h⟩ := bind_eq_ok_iff.mp hfold
  obtain ⟨gap, hg, ⟨rfl, hs⟩ | ⟨t, rfl, rfl⟩⟩ := nextName_first_cases ho
  · obtain ⟨rfl, rfl⟩ := Prod.mk.inj (Except.ok.inj h)
    exact .inl ⟨rfl, gap, hg, hs⟩
  · obtain ⟨⟨name, s⟩, hname, h⟩ := bind_eq_ok_iff.mp h
    obtain ⟨⟨acc', s'⟩, hmember, h⟩ := bind_eq_ok_iff.mp h
    obtain ⟨x, hx, rfl⟩ := pushMember_eq_ok_iff.mp hmember
    obtain ⟨u, hu, hux⟩ := hr hname hx
    obtain ⟨gap', ts, ms, hg', rfl, rfl, hts⟩ := members_of_foldMembersWithin hp hr h
    refine .inr ⟨(gap ++ (u ++ gap')) :: ts, ?_, ?_⟩
    · simp [intercalate_cons, hu]
    · simpa using List.Forall₂.cons (hp hg hux hg') hts

end Members

section Value

/-- What a text gives: the value of a form that it denotes and that fits. -/
def Gives (depth : Nat) (t : Text) (j : Json) : Prop :=
  ∃ v : Form, Denotes t v ∧ v.Fits depth ∧ v.value = j

theorem pads_gives (depth : Nat) : Pads (Gives depth) := by
  rintro before t after j hb ⟨v, hd, hf, hv⟩ ha
  exact ⟨v, .padded hb hd ha, hf, hv⟩

theorem gives_array {depth : Nat} {ts : List Text} {js : List Json}
    (h : List.Forall₂ (Gives depth) ts js) :
    Gives (depth + 1) ('[' :: ([','].intercalate ts ++ [']'])) (.array js) := by
  obtain ⟨es, rfl, hes, rfl⟩ : ∃ es : List (Text × Form), es.map (·.1) = ts ∧
      (∀ e ∈ es, Denotes e.1 e.2 ∧ e.2.Fits depth) ∧ es.map (·.2.value) = js := by
    induction h with
    | nil => exact ⟨[], rfl, by simp, rfl⟩
    | cons h _ ih =>
      obtain ⟨v, hd, hf, rfl⟩ := h
      obtain ⟨es, rfl, hes, rfl⟩ := ih
      exact ⟨(_, v) :: es, rfl, List.forall_mem_cons.mpr ⟨⟨hd, hf⟩, hes⟩, rfl⟩
  refine ⟨_, .array fun e he => (hes e he).1, .array ?_, ?_⟩
  · exact List.forall_mem_map.mpr fun e he => (hes e he).2
  · simp [Function.comp_def]

def GivesMember (depth : Nat) (t : Text) (e : Text × Json) : Prop :=
  ∃ m : WrittenMember, m.text = t ∧ ShowsName m.nameText m.name ∧
    Denotes m.valueText m.value ∧ m.value.Fits depth ∧ (m.name, m.value.value) = e

theorem pads_givesMember (depth : Nat) : Pads (GivesMember depth) := by
  rintro before t after e hb ⟨⟨name, v, nameText, valueText⟩, rfl, hn, hd, hf, he⟩ ha
  obtain @⟨before', q, _, after', hb', hq, ha'⟩ := hn
  -- the space in front belongs to the name, that behind to the value
  refine ⟨⟨name, v, (before ++ before') ++ '"' :: (q ++ '"' :: after'), valueText ++ after⟩, ?_,
    .intro ?_ hq ha', ?_, hf, he⟩
  · simp [WrittenMember.text]
  · exact List.forall_mem_append.mpr ⟨hb, hb'⟩
  · exact .padded isSpaces_nil hd ha

theorem gives_object {depth : Nat} {ts : List Text} {es : List (Text × Json)}
    (h : List.Forall₂ (GivesMember depth) ts es) :
    Gives (depth + 1) ('\x7b' :: ([','].intercalate ts ++ ['\x7d'])) (.object es) := by
  obtain ⟨ms, rfl, hms, rfl⟩ : ∃ ms : List WrittenMember, ms.map WrittenMember.text = ts ∧
      (∀ m ∈ ms, ShowsName m.nameText m.name ∧ Denotes m.valueText m.value ∧
        m.value.Fits depth) ∧ ms.map (fun m => (m.name, m.value.value)) = es := by
    induction h with
    | nil => exact ⟨[], rfl, by simp, rfl⟩
    | cons h _ ih =>
      obtain ⟨m, rfl, hn, hd, hf, rfl⟩ := h
      obtain ⟨ms, rfl, hms, rfl⟩ := ih
      exact ⟨m :: ms, rfl, List.forall_mem_cons.mpr ⟨⟨hn, hd, hf⟩, hms⟩, rfl⟩
  refine ⟨_, .object (fun m hm => (hms m hm).1) fun m hm => (hms m hm).2.1, .object ?_, ?_⟩
  · exact List.forall_mem_map.mpr fun m hm => (hms m hm).2.2
  · simp [WrittenMember.member]

/-- The value that is read from the front of a text, and the text that gives it. -/
def ReadsGiven (depth : Nat) : Prop :=
  ∀ {s j r}, readValue .keep depth s = .ok (j, r) → ∃ t, s = t ++ r ∧ Gives depth t j

theorem readsMember_given {depth : Nat} (h : ReadsGiven depth) :
    ReadsMember (readValue .keep depth) (GivesMember depth) := by
  intro name u s j r hname hv
  obtain ⟨q, rfl, hq⟩ := quotes_of_readString hname
  obtain ⟨s', hs', hv⟩ := bind_eq_ok_iff.mp hv
  obtain ⟨t, rfl, v, hd, hf, hj⟩ := h hv
  obtain ⟨gap, hg, hs⟩ := exists_spaces s
  have hcolon : skipSpace s = ':' :: (t ++ r) := by
    unfold colon at hs'
    split at hs'
    · simp at hs'
    · rename_i s'' hs''
      rw [hs'', Except.ok.inj hs']
    · simp at hs'
  refine ⟨'"' :: (q ++ '"' :: gap) ++ ':' :: t, ?_, ⟨name, v, _, t⟩, rfl,
    .intro isSpaces_nil hq hg, hd, hf, by rw [hj]⟩
  rw [hs, hcolon]
  simp

theorem eq_append_of_readWord {w s r : Text} {v j : Json} (h : readWord w v s = .ok (j, r)) :
    s = w ++ r := by
  induction w generalizing s with
  | nil =>
    have hs : readWord [] v s = .ok (v, s) := by cases s <;> rfl
    rw [hs] at h
    exact (Prod.mk.inj (Except.ok.inj h)).2
  | cons c w ih =>
    cases s with
    | nil => simp [readWord] at h
    | cons d s =>
      rw [readWord] at h
      split at h
      · rename_i hc
        rw [hc, ih h, List.cons_append]
      · simp at h

theorem gives_word {depth : Nat} {c : Char} {w s r : Text} {v : Form} {j : Json}
    (hd : Denotes (c :: w) v) (hf : v.Fits depth) (h : readWord w v.value s = .ok (j, r)) :
    ∃ t, c :: s = t ++ r ∧ Gives depth t j := by
  obtain rfl := readWord_value h
  obtain rfl := eq_append_of_readWord h
  exact ⟨c :: w, rfl, v, hd, hf, rfl⟩

theorem gives_number {depth : Nat} (negative : Bool) {s r : Text} {j : Json}
    (h : (readNumber .keep negative s).map (fun p => (Json.number p.1, p.2)) = .ok (j, r)) :
    ∃ t, (if negative then ['-'] else []) ++ s = t ++ r ∧ Gives depth t j := by
  obtain ⟨⟨n, r'⟩, hn, he⟩ := map_eq_ok_iff.mp h
  obtain ⟨rfl, rfl⟩ := Prod.mk.inj he
  obtain ⟨x, hx, hv⟩ := readNumber_eq_ok_iff.mp hn
  obtain ⟨t, ht, hshows⟩ := shows_of_numeral hx
  have hne : x.value? ≠ none := by simp [hv]
  exact ⟨t, ht, .number x, .number hshows, .number hne, Form.value_number hv⟩

theorem gives_string {depth : Nat} {s r : Text} {j : Json}
    (h : (readString .keep s).map (fun p => (Json.string p.1, p.2)) = .ok (j, r)) :
    ∃ t, '"' :: s = t ++ r ∧ Gives depth t j := by
  obtain ⟨⟨x, r'⟩, hx, he⟩ := map_eq_ok_iff.mp h
  obtain ⟨rfl, rfl⟩ := Prod.mk.inj he
  obtain ⟨t, rfl, ht⟩ := quotes_of_readString hx
  exact ⟨'"' :: (t ++ ['"']), by simp, .string x, .string ht, .string x, rfl⟩

/-- Only a bracket and a brace lead to other values. -/
theorem gives_of_readValueWith {depth : Nat} {array object : Reader Json}
    (ha : ∀ {s j r}, array s = .ok (j, r) → ∃ t, '[' :: s = t ++ r ∧ Gives depth t j)
    (ho : ∀ {s j r}, object s = .ok (j, r) → ∃ t, '\x7b' :: s = t ++ r ∧ Gives depth t j)
    {s r : Text} {j : Json} (h : readValueWith .keep array object s = .ok (j, r)) :
    ∃ t, s = t ++ r ∧ Gives depth t j := by
  obtain ⟨gap, hg, hs⟩ := exists_spaces s
  suffices hgives : ∃ t, skipSpace s = t ++ r ∧ Gives depth t j by
    obtain ⟨t, ht, hj⟩ := hgives
    refine ⟨gap ++ (t ++ []), ?_, pads_gives depth hg hj isSpaces_nil⟩
    rw [hs, ht]
    simp
  unfold readValueWith at h
  split at h
  · simp at h
  · rename_i c t hc
    rw [hc]
    split at h
    · exact gives_word .null .null h
    · exact gives_word .true (.bool true) h
    · exact gives_word .false (.bool false) h
    · exact gives_string h
    · exact ha h
    · exact ho h
    · exact gives_number true h
    · split at h
      · exact gives_number false h
      · simp at h

/-- By induction on the depth: what the brackets and braces of a value hold is less deep. -/
theorem readsGiven (depth : Nat) : ReadsGiven depth := by
  induction depth with
  | zero => exact fun h => gives_of_readValueWith (by simp) (by simp) h
  | succ d ih =>
    intro s j r h
    apply gives_of_readValueWith ?_ ?_ h
    · intro s j r h
      obtain ⟨⟨js, r'⟩, hjs, he⟩ := map_eq_ok_iff.mp h
      obtain ⟨rfl, rfl⟩ := Prod.mk.inj he
      rcases items_of_readItems (pads_gives d) ih hjs with ⟨rfl, gap, hg, rfl⟩ | ⟨ts, rfl, hts⟩
      · exact ⟨'[' :: (gap ++ [']']), by simp, _, .noItems hg, .array (by simp), by simp⟩
      · exact ⟨'[' :: ([','].intercalate ts ++ [']']), by simp, gives_array hts⟩
    · intro s j r h
      obtain ⟨⟨es, r'⟩, hes, he⟩ := map_eq_ok_iff.mp h
      obtain ⟨rfl, rfl⟩ := Prod.mk.inj he
      rcases members_of_readMembers (pads_givesMember d) (readsMember_given ih) hes with
        ⟨rfl, gap, hg, rfl⟩ | ⟨ts, rfl, hts⟩
      · exact ⟨'\x7b' :: (gap ++ ['\x7d']), by simp, _, .noMembers hg, .object (by simp), by simp⟩
      · exact ⟨'\x7b' :: ([','].intercalate ts ++ ['\x7d']), by simp, gives_object hts⟩

end Value

/-- A text is read to its end exactly if it denotes a value that fits, and as this value. -/
theorem gives_iff {depth : Nat} {s : Text} {j : Json} : Gives depth s j ↔
    ∃ r, readValue .keep depth s = .ok (j, r) ∧ endDocument r = .ok () := by
  constructor
  · rintro ⟨v, hd, hf, rfl⟩
    exact readValue_of_denotes hd hf
  · rintro ⟨r, hread, hend⟩
    obtain ⟨t, rfl, hj⟩ := readsGiven depth hread
    obtain ⟨gap, hg, hr⟩ := exists_spaces r
    have hgap : r = gap := by
      unfold endDocument at hend
      split at hend
      · rename_i hnil
        rw [hr, hnil, List.append_nil]
      · simp at hend
    exact pads_gives depth isSpaces_nil hj (hgap ▸ hg)

end CacheHost.Json
