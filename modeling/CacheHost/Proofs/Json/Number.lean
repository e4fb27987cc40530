import CacheHost.Json.Reader
import CacheHost.Proofs.Text.Numeral
import CacheHost.Proofs.Text.Span
import Mathlib.Data.List.Basic
import Mathlib.Data.List.TakeDrop

namespace CacheHost.Json

theorem map_eq_ok_iff {ε α β : Type} {x : Except ε α} {f : α → β} {b : β} :
    x.map f = .ok b ↔ ∃ a, x = .ok a ∧ f a = b := by
  cases x <;> simp [Except.map]

theorem bind_eq_ok_iff {ε α β : Type} {x : Except ε α} {f : α → Except ε β} {b : β} :
    (x >>= f) = .ok b ↔ ∃ a, x = .ok a ∧ f a = .ok b := by
  cases x <;> simp [bind, Except.bind]

theorem ok_bind {ε α β : Type} (a : α) (f : α → Except ε β) : (Except.ok a >>= f) = f a := rfl

/-- A text that does not go on with the number in front of it. -/
def EndsNumber (rest : Text) : Prop :=
  ∀ c ∈ rest.head?, c.isDigit = false ∧ c ≠ '.' ∧ c ≠ 'e' ∧ c ≠ 'E'

variable {atEnd : DecodeError} {s r rest : Text}

theorem someDigits_eq_ok_iff {ds : Text} : someDigits atEnd s = .ok (ds, r) ↔
    ds ≠ [] ∧ (∀ c ∈ ds, c.isDigit = true) ∧ (∀ c ∈ r.head?, c.isDigit = false) ∧
      s = ds ++ r := by
  constructor
  · intro h
    cases s with
    | nil => simp [someDigits] at h
    | cons c s =>
      rw [someDigits] at h
      split at h
      · rename_i hc
        rw [List.span_eq_takeWhile_dropWhile] at h
        obtain ⟨rfl, rfl⟩ := Prod.mk.inj (Except.ok.inj h)
        refine ⟨by simp [hc], fun d hd => List.mem_takeWhile_imp hd, Text.head?_dropWhile _, ?_⟩
        exact List.takeWhile_append_dropWhile.symm
      · simp at h
  · rintro ⟨hne, hds, hr, rfl⟩
    cases ds with
    | nil => exact absurd rfl hne
    | cons c ds =>
      rw [List.cons_append, someDigits, if_pos (hds c List.mem_cons_self), ← List.cons_append,
        List.span_eq_takeWhile_dropWhile, Text.takeWhile_append_of_head hds hr,
        Text.dropWhile_append_of_head hds hr]

theorem someDigits_append {ds : Text} (h : someDigits atEnd s = .ok (ds, r))
    (hr : EndsNumber rest) : someDigits atEnd (s ++ rest) = .ok (ds, r ++ rest) := by
  obtain ⟨hne, hds, hs, rfl⟩ := someDigits_eq_ok_iff.mp h
  refine someDigits_eq_ok_iff.mpr ⟨hne, hds, ?_, List.append_assoc ds r rest⟩
  cases r with
  | nil => exact fun c hc => (hr c hc).1
  | cons c r => exact hs

theorem wholePart_eq_ok_iff {w : Text} : wholePart atEnd s = .ok (w, r) ↔
    someDigits atEnd s = .ok (w, r) ∧ ¬(w.head? = some '0' ∧ w ≠ ['0']) := by
  cases h : someDigits atEnd s with
  | error e => simp [wholePart, h, bind, Except.bind]
  | ok p =>
    obtain ⟨w', r'⟩ := p
    simp only [wholePart, h, bind, Except.bind]
    split
    · rename_i hz
      simp only [Except.ok.injEq, Prod.mk.injEq, reduceCtorEq, false_iff]
      rintro ⟨⟨rfl, rfl⟩, hn⟩
      exact hn hz
    · rename_i hz
      simp only [Except.ok.injEq, Prod.mk.injEq]
      constructor
      · rintro ⟨rfl, rfl⟩
        exact ⟨⟨rfl, rfl⟩, hz⟩
      · exact fun hw => hw.1

theorem wholePart_append {w : Text} (h : wholePart atEnd s = .ok (w, r)) (hr : EndsNumber rest) :
    wholePart atEnd (s ++ rest) = .ok (w, r ++ rest) := by
  obtain ⟨hd, hz⟩ := wholePart_eq_ok_iff.mp h
  exact wholePart_eq_ok_iff.mpr ⟨someDigits_append hd hr, hz⟩

/-- Decimals stand behind a point; without one nothing is taken. -/
theorem decimalPart_eq_ok_iff {d : Option Text} : decimalPart atEnd s = .ok (d, r) ↔
    (d = none ∧ s = r ∧ s.head? ≠ some '.') ∨
      ∃ ds t, d = some ds ∧ s = '.' :: t ∧ someDigits atEnd t = .ok (ds, r) := by
  unfold decimalPart
  split
  · rename_i t
    rw [bind_eq_ok_iff]
    constructor
    · rintro ⟨⟨ds, _⟩, hd, he⟩
      obtain ⟨rfl, rfl⟩ := Prod.mk.inj (Except.ok.inj he)
      exact .inr ⟨ds, t, rfl, rfl, hd⟩
    · rintro (⟨-, -, hp⟩ | ⟨ds, t, rfl, ht, hd⟩)
      · simp at hp
      · obtain rfl := (List.cons.inj ht).2
        exact ⟨_, hd, rfl⟩
  · rename_i hp
    have hs : s.head? ≠ some '.' := by
      intro h
      obtain ⟨t, rfl⟩ := List.head?_eq_some_iff.mp h
      exact hp t rfl
    constructor
    · intro h
      obtain ⟨rfl, rfl⟩ := Prod.mk.inj (Except.ok.inj h)
      exact .inl ⟨rfl, rfl, hs⟩
    · rintro (⟨rfl, rfl, -⟩ | ⟨ds, t, -, rfl, -⟩)
      · rfl
      · exact absurd rfl (hp t)

theorem decimalPart_append {d : Option Text} (h : decimalPart atEnd s = .ok (d, r))
    (hr : EndsNumber rest) : decimalPart atEnd (s ++ rest) = .ok (d, r ++ rest) := by
  rw [decimalPart_eq_ok_iff] at h ⊢
  rcases h with ⟨rfl, rfl, hs⟩ | ⟨ds, t, rfl, rfl, hd⟩
  · refine .inl ⟨rfl, rfl, fun hp => ?_⟩
    cases s with
    | nil => exact (hr '.' hp).2.1 rfl
    | cons c s => exact hs hp
  · exact .inr ⟨ds, t ++ rest, rfl, rfl, someDigits_append hd hr⟩

def exponentSign : Text → Bool × Text
  | '-' :: s => (true, s)
  | '+' :: s => (false, s)
  | s => (false, s)

theorem exponentSign_suffix (s : Text) : (exponentSign s).2 <:+ s := by
  fun_cases exponentSign s with
  | case1 t => exact List.suffix_cons '-' t
  | case2 t => exact List.suffix_cons '+' t
  | case3 => exact List.suffix_refl s

theorem exponentSign_append (h : s ≠ []) :
    exponentSign (s ++ rest) = ((exponentSign s).1, (exponentSign s).2 ++ rest) := by
  cases s with
  | nil => exact absurd rfl h
  | cons c s =>
    by_cases hm : c = '-'
    · subst hm
      rfl
    by_cases hp : c = '+'
    · subst hp
      rfl
    simp [exponentSign, hm, hp]

/-- An exponent stands behind its mark; without one nothing is taken. -/
theorem exponentPart_eq_ok_iff {x : Option (Bool × Text)} :
    exponentPart atEnd s = .ok (x, r) ↔
      (x = none ∧ s = r ∧ ∀ c ∈ s.head?, c ≠ 'e' ∧ c ≠ 'E') ∨
        ∃ c t ds, (c = 'e' ∨ c = 'E') ∧ s = c :: t ∧ x = some ((exponentSign t).1, ds) ∧
          someDigits atEnd (exponentSign t).2 = .ok (ds, r) := by
  cases s with
  | nil => simp [exponentPart, eq_comm]
  | cons c s =>
    by_cases hc : c = 'e' ∨ c = 'E'
    · have hmark : exponentPart atEnd (c :: s) = (someDigits atEnd (exponentSign s).2).map
          fun p => (some ((exponentSign s).1, p.1), p.2) := by
        simp only [exponentPart, if_pos hc]
        show (someDigits atEnd (exponentSign s).2 >>= fun p =>
          .ok (some ((exponentSign s).1, p.1), p.2)) = _
        cases someDigits atEnd (exponentSign s).2 <;> rfl
      rw [hmark, map_eq_ok_iff]
      constructor
      · rintro ⟨⟨ds, _⟩, hd, he⟩
        obtain ⟨rfl, rfl⟩ := Prod.mk.inj he
        exact .inr ⟨c, s, ds, hc, rfl, rfl, hd⟩
      · rintro (⟨-, -, hne⟩ | ⟨c', t, ds, -, ht, rfl, hd⟩)
        · exact absurd hc (not_or.mpr (hne c rfl))
        · obtain ⟨-, rfl⟩ := List.cons.inj ht
          exact ⟨_, hd, rfl⟩
    · simp only [exponentPart, if_neg hc, Except.ok.injEq, Prod.mk.injEq]
      constructor
      · rintro ⟨rfl, rfl⟩
        exact .inl ⟨rfl, rfl, fun d hd => Option.some.inj hd ▸ not_or.mp hc⟩
      · rintro (⟨rfl, rfl, -⟩ | ⟨c', t, ds, hc', ht, -⟩)
        · exact ⟨rfl, rfl⟩
        · exact absurd ((List.cons.inj ht).1 ▸ hc') hc

theorem exponentPart_append {x : Option (Bool × Text)} (h : exponentPart atEnd s = .ok (x, r))
    (hr : EndsNumber rest) : exponentPart atEnd (s ++ rest) = .ok (x, r ++ rest) := by
  rw [exponentPart_eq_ok_iff] at h ⊢
  rcases h with ⟨rfl, rfl, hs⟩ | ⟨c, t, ds, hc, rfl, rfl, hd⟩
  · refine .inl ⟨rfl, rfl, ?_⟩
    cases s with
    | nil => exact fun c hc => (hr c hc).2.2
    | cons c s => exact hs
  · have ht : t ≠ [] := by
      rintro rfl
      simp [exponentSign, someDigits] at hd
    refine .inr ⟨c, t ++ rest, ds, hc, rfl, ?_, ?_⟩
    · rw [exponentSign_append ht]
    · rw [exponentSign_append ht]
      exact someDigits_append hd hr

theorem numeral_eq_ok_iff {negative : Bool} {x : Numeral} :
    numeral atEnd negative s = .ok (x, r) ↔ x.negative = negative ∧ ∃ s₁ s₂,
      wholePart atEnd s = .ok (x.whole, s₁) ∧ decimalPart atEnd s₁ = .ok (x.decimals, s₂) ∧
        exponentPart atEnd s₂ = .ok (x.exponent, r) := by
  constructor
  · intro h
    obtain ⟨⟨w, s₁⟩, hw, h⟩ := bind_eq_ok_iff.mp h
    obtain ⟨⟨d, s₂⟩, hd, h⟩ := bind_eq_ok_iff.mp h
    obtain ⟨⟨e, s₃⟩, he, h⟩ := bind_eq_ok_iff.mp h
    obtain ⟨rfl, rfl⟩ := Prod.mk.inj (Except.ok.inj h)
    exact ⟨rfl, s₁, s₂, hw, hd, he⟩
  · rintro ⟨rfl, s₁, s₂, hw, hd, he⟩
    exact bind_eq_ok_iff.mpr ⟨_, hw, bind_eq_ok_iff.mpr ⟨_, hd, bind_eq_ok_iff.mpr ⟨_, he, rfl⟩⟩⟩

/-- A number that is read to the end of a text is read in front of all that ends it. -/
theorem numeral_append {negative : Bool} {x : Numeral} (h : numeral atEnd negative s = .ok (x, r))
    (hr : EndsNumber rest) : numeral atEnd negative (s ++ rest) = .ok (x, r ++ rest) := by
  obtain ⟨hn, s₁, s₂, hw, hd, he⟩ := numeral_eq_ok_iff.mp h
  exact numeral_eq_ok_iff.mpr ⟨hn, s₁ ++ rest, s₂ ++ rest, wholePart_append hw hr,
    decimalPart_append hd hr, exponentPart_append he hr⟩

theorem numeral_suffix {negative : Bool} {x : Numeral} (h : numeral atEnd negative s = .ok (x, r)) :
    r <:+ s := by
  have hdigits : ∀ {s r ds : Text}, someDigits atEnd s = .ok (ds, r) → r <:+ s := by
    intro s r ds h
    obtain ⟨-, -, -, rfl⟩ := someDigits_eq_ok_iff.mp h
    exact List.suffix_append ds r
  obtain ⟨-, s₁, s₂, hw, hd, he⟩ := numeral_eq_ok_iff.mp h
  have h₁ : s₁ <:+ s := hdigits (wholePart_eq_ok_iff.mp hw).1
  have h₂ : s₂ <:+ s₁ := by
    rcases decimalPart_eq_ok_iff.mp hd with ⟨-, rfl, -⟩ | ⟨ds, t, -, rfl, ht⟩
    · exact List.suffix_refl _
    · exact (hdigits ht).trans (List.suffix_cons _ _)
  have h₃ : r <:+ s₂ := by
    rcases exponentPart_eq_ok_iff.mp he with ⟨-, rfl, -⟩ | ⟨c, t, ds, -, rfl, -, ht⟩
    · exact List.suffix_refl _
    · exact ((hdigits ht).trans (exponentSign_suffix t)).trans (List.suffix_cons _ _)
  exact (h₃.trans h₂).trans h₁

/-- Without a point and an exponent there are digits only. -/
theorem digits_of_numeral {negative : Bool} {x : Numeral}
    (h : numeral atEnd negative s = .ok (x, r)) (hd : x.decimals = none) (he : x.exponent = none) :
    s = x.whole ++ r ∧ ∀ c ∈ x.whole, c.isDigit = true := by
  obtain ⟨-, s₁, s₂, hw, hds, hex⟩ := numeral_eq_ok_iff.mp h
  obtain ⟨-, hdigits, -, hs⟩ := someDigits_eq_ok_iff.mp (wholePart_eq_ok_iff.mp hw).1
  rcases decimalPart_eq_ok_iff.mp hds with ⟨-, rfl, -⟩ | ⟨ds, t, hsome, -⟩
  · rcases exponentPart_eq_ok_iff.mp hex with ⟨-, rfl, -⟩ | ⟨c, t, ds, -, -, hsome, -⟩
    · exact ⟨hs, hdigits⟩
    · simp [he] at hsome
  · simp [hd] at hsome

theorem head?_ofNat {n : Nat} (h : (Text.ofNat n).head? = some '0') : Text.ofNat n = ['0'] := by
  induction n using Nat.strongRecOn with
  | _ n ih =>
    unfold Text.ofNat at h ih ⊢
    by_cases hn : n < 10
    · rw [Nat.toDigits_of_lt_base hn] at h ⊢
      rw [List.head?_cons, Option.some.injEq] at h
      rw [h]
    · -- the leading digit is that of a smaller number, which is not zero
      rw [Nat.toDigits_of_base_le (by decide) (by omega),
        List.head?_append_of_ne_nil _ Nat.toDigits_ne_nil] at h
      have hz := ih (n / 10) (by omega) h
      have hv : Nat.ofDigitChars 10 (Nat.toDigits 10 (n / 10)) 0 = n / 10 :=
        Nat.ofDigitChars_ten_toDigits
      have hzero : Nat.ofDigitChars 10 ['0'] 0 = 0 := rfl
      rw [hz, hzero] at hv
      omega

theorem numeral_ofNat (atEnd : DecodeError) (negative : Bool) (n : Nat) :
    numeral atEnd negative (Text.ofNat n) = .ok (⟨negative, Text.ofNat n, none, none⟩, []) := by
  have hd : someDigits atEnd (Text.ofNat n) = .ok (Text.ofNat n, []) :=
    someDigits_eq_ok_iff.mpr ⟨Nat.toDigits_ne_nil, fun c hc =>
      Nat.isDigit_of_mem_toDigits (by decide) (by decide) hc, by simp, by simp⟩
  have hw : wholePart atEnd (Text.ofNat n) = .ok (Text.ofNat n, []) :=
    wholePart_eq_ok_iff.mpr ⟨hd, fun hz => hz.2 (head?_ofNat hz.1)⟩
  exact numeral_eq_ok_iff.mpr ⟨rfl, [], [], hw, rfl, rfl⟩

theorem wholeDigits_eq {ds : Text} {v : Nat} (h : Nat.ofDigitChars 10 ds v < UInt64.size) :
    wholeDigits v ds = ⟨Nat.ofDigitChars 10 ds v, 0⟩ := by
  induction ds generalizing v with
  | nil => rfl
  | cons c ds ih =>
    rw [Nat.ofDigitChars_cons, Nat.mul_comm] at h ⊢
    -- the digits that follow only add to the value so far, so it fits as well
    have hle := Numeral.le_ofDigitChars (v * 10 + digitOf c) ds
    have hlt : v * 10 + digitOf c < UInt64.size := Nat.lt_of_le_of_lt hle h
    rw [wholeDigits, if_pos hlt]
    exact ih h

theorem value?_ofNat (negative : Bool) {n : Nat} (h : n < UInt64.size) :
    (⟨negative, Text.ofNat n, none, none⟩ : Numeral).value? = some (.ofWhole negative n) := by
  have hn : Nat.ofDigitChars 10 (Text.ofNat n) 0 = n := Nat.ofDigitChars_ten_toDigits
  have hw : wholeDigits 0 (Text.ofNat n) = ⟨_, 0⟩ := wholeDigits_eq (by rwa [hn])
  rw [hn] at hw
  simp only [Numeral.value?, hw, if_true]

theorem readNumber_eq_ok_iff {negative : Bool} {n : Number} :
    readNumber .keep negative s = .ok (n, r) ↔
      ∃ y, numeral .truncated negative s = .ok (y, r) ∧ y.value? = some n := by
  simp only [readNumber, bind_eq_ok_iff, Prod.exists]
  constructor
  · intro ⟨y, r', hy, h⟩
    split at h
    · rename_i m hm
      obtain ⟨rfl, rfl⟩ := Prod.mk.inj (Except.ok.inj h)
      exact ⟨y, hy, hm⟩
    · simp at h
  · intro ⟨y, hy, hn⟩
    exact ⟨y, r, hy, by rw [hn]⟩

theorem readNumber_append {negative : Bool} {n : Number}
    (h : readNumber .keep negative s = .ok (n, r)) (hr : EndsNumber rest) :
    readNumber .keep negative (s ++ rest) = .ok (n, r ++ rest) := by
  obtain ⟨y, hy, hn⟩ := readNumber_eq_ok_iff.mp h
  exact readNumber_eq_ok_iff.mpr ⟨y, numeral_append hy hr, hn⟩

/-- An integer that 64 bits hold is read back from its digits. -/
theorem readNumber_ofNat (negative : Bool) {n : Nat} (hn : n < UInt64.size) :
    readNumber .keep negative (Text.ofNat n) = .ok (.ofWhole negative n, []) :=
  readNumber_eq_ok_iff.mpr ⟨_, numeral_ofNat .truncated negative n, value?_ofNat negative hn⟩

end CacheHost.Json
