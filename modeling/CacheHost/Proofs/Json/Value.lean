import CacheHost.Proofs.Binary64.Layout
import CacheHost.Proofs.Json.Sequence
import CacheHost.Snapshot.Decode

namespace CacheHost.Json

theorem itemTexts_eq_map (vs : List Json) : itemTexts vs = vs.map text := by
  induction vs with
  | nil => rfl
  | cons v vs ih => rw [itemTexts, ih, List.map_cons]

theorem memberTexts_eq_map (ms : List (Text × Json)) :
    memberTexts ms = (ms.map fun m => (m.1, text m.2)).map memberText := by
  induction ms with
  | nil => rfl
  | cons m ms ih => rw [memberTexts, ih]; rfl

theorem text_array_append (vs : List Json) (rest : Text) : text (.array vs) ++ rest =
    '[' :: ([','].intercalate (vs.map text) ++ ']' :: rest) := by
  simp [text, itemTexts_eq_map]

theorem text_object_append (ms : List (Text × Json)) (rest : Text) : text (.object ms) ++ rest =
    '\x7b' :: ([','].intercalate ((ms.map fun m => (m.1, text m.2)).map memberText) ++
      '\x7d' :: rest) := by
  simp [text, memberTexts_eq_map]

/-- The text of a real number is read, and as that number. -/
def ReadsBack (x : Float) : Prop :=
  ∃ v, ofText (text (.number (.real x))) = .ok v ∧ v.toReal = .ok x

/-- The values that are read back from their texts: arrays and objects in them are nested to at most
the given depth, and an integer has 64 bits with its sign. -/
inductive Readable : Nat → Json → Prop where
  | null {d : Nat} : Readable d .null
  | bool {d : Nat} (b : Bool) : Readable d (.bool b)
  | natural {d : Nat} (n : UInt64) : Readable d (.number (.natural n))
  | negative {d : Nat} {n : UInt64} (h0 : 0 < n.toNat) (h : n.toNat ≤ 0x8000000000000000) :
    Readable d (.number (.negative n))
  | real {d : Nat} {x : Float} (h : ReadsBack x) : Readable d (.number (.real x))
  | string {d : Nat} (s : Text) : Readable d (.string s)
  | array {d : Nat} {vs : List Json} (h : ∀ v ∈ vs, Readable d v) : Readable (d + 1) (.array vs)
  | object {d : Nat} {ms : List (Text × Json)} (h : ∀ m ∈ ms, Readable d m.2) :
    Readable (d + 1) (.object ms)

theorem readWord_append {α : Type} (w rest : Text) (v : α) :
    readWord w v (w ++ rest) = .ok (v, rest) := by
  induction w with
  | nil => cases rest <;> rfl
  | cons c w ih => rw [List.cons_append, readWord, if_pos rfl, ih]

/-- A value that has no depth is read alike at all depths. -/
theorem readValue_eq_with (use : Use) (depth : Nat) :
    ∃ array object, readValue use depth = readValueWith use array object := by
  cases depth with
  | zero => exact ⟨_, _, rfl⟩
  | succ n => exact ⟨_, _, rfl⟩

variable {use : Use} {array object : Reader Json}

theorem readValueWith_minus (s : Text) : readValueWith use array object ('-' :: s) =
    (readNumber use true s).map fun p => (.number p.1, p.2) := rfl

theorem isSpace_of_isDigit {c : Char} (h : c.isDigit = true) : isSpace c = false := by
  simp only [isSpace, Bool.or_eq_false_iff, beq_eq_false_iff_ne]
  refine ⟨⟨⟨?_, ?_⟩, ?_⟩, ?_⟩
  all_goals
    rintro rfl
    simp at h

theorem readValueWith_digit {c : Char} (hc : c.isDigit = true) (s : Text) :
    readValueWith use array object (c :: s) =
      (readNumber use false (c :: s)).map fun p => (.number p.1, p.2) := by
  simp only [readValueWith, skipSpace_cons (isSpace_of_isDigit hc)]
  split
  case h_8 => rw [if_pos hc]
  -- no digit is one of the other characters that begin a value
  all_goals exact absurd hc (by decide)

theorem opens_digit {c : Char} (hc : c.isDigit = true) (s : Text) : Opens (c :: s) := by
  refine ⟨c, s, rfl, isSpace_of_isDigit hc, ?_⟩
  rintro rfl
  simp at hc

theorem reads_word (depth : Nat) {c : Char} {w : Text} {v : Json} (ho : Opens (c :: w))
    (h : ∀ array object s, readValueWith .keep array object (c :: s) = readWord w v s) :
    Reads (readValue .keep depth) (c :: w) v := by
  obtain ⟨a, o, hr⟩ := readValue_eq_with .keep depth
  refine ⟨ho, fun rest _ => ?_⟩
  rw [hr, List.cons_append, h]
  exact readWord_append w rest v

theorem readWord_value {α : Type} {w s r : Text} {v v' : α} (h : readWord w v s = .ok (v', r)) :
    v' = v := by
  induction w generalizing s with
  | nil =>
    have hs : readWord [] v s = .ok (v, s) := by cases s <;> rfl
    rw [hs] at h
    exact (Prod.mk.inj (Except.ok.inj h)).1.symm
  | cons c w ih =>
    cases s with
    | nil => simp [readWord] at h
    | cons d s =>
      rw [readWord] at h
      split at h
      · exact ih h
      · simp at h

theorem number_of_readValueWith {s r : Text} {n : Number}
    (ha : ∀ t, array t ≠ .ok (.number n, r)) (ho : ∀ t, object t ≠ .ok (.number n, r))
    (h : readValueWith use array object s = .ok (.number n, r)) :
    (∃ t, skipSpace s = '-' :: t ∧ readNumber use true t = .ok (n, r)) ∨
      ∃ c t, skipSpace s = c :: t ∧ c.isDigit = true ∧
        readNumber use false (c :: t) = .ok (n, r) := by
  have hnum : ∀ {x : Except DecodeError (Number × Text)},
      (x.map fun p => (Json.number p.1, p.2)) = .ok (.number n, r) → x = .ok (n, r) := by
    intro x hx
    obtain ⟨⟨m, r'⟩, rfl, he⟩ := map_eq_ok_iff.mp hx
    obtain ⟨hm, rfl⟩ := Prod.mk.inj he
    obtain rfl := Json.number.inj hm
    rfl
  unfold readValueWith at h
  split at h
  · simp at h
  · rename_i c t hs
    split at h
    -- a word and a string are no numbers, and brackets are left to the two hypotheses
    · simpa using readWord_value h
    · simpa using readWord_value h
    · simpa using readWord_value h
    · obtain ⟨p, -, hp⟩ := map_eq_ok_iff.mp h
      simp at hp
    · exact absurd h (ha t)
    · exact absurd h (ho t)
    · exact .inl ⟨t, hs, hnum h⟩
    · split at h
      · rename_i hc
        exact .inr ⟨c, t, hs, hc, hnum h⟩
      · simp at h

/-- Only what begins with a minus sign or a digit is read as a number. -/
theorem number_of_readValue {depth : Nat} {s r : Text} {n : Number}
    (h : readValue use depth s = .ok (.number n, r)) :
    (∃ t, skipSpace s = '-' :: t ∧ readNumber use true t = .ok (n, r)) ∨
      ∃ c t, skipSpace s = c :: t ∧ c.isDigit = true ∧
        readNumber use false (c :: t) = .ok (n, r) := by
  cases depth with
  | zero => exact number_of_readValueWith (by simp) (by simp) h
  | succ d =>
    refine number_of_readValueWith (fun t ht => ?_) (fun t ht => ?_) h
    · obtain ⟨p, -, hp⟩ := map_eq_ok_iff.mp ht
      simp at hp
    · obtain ⟨p, -, hp⟩ := map_eq_ok_iff.mp ht
      simp at hp

theorem exists_cons_ofNat (n : Nat) : ∃ c s, Text.ofNat n = c :: s ∧ c.isDigit = true := by
  cases h : Text.ofNat n with
  | nil => exact absurd h Nat.toDigits_ne_nil
  | cons c s =>
    have hc : c ∈ Nat.toDigits 10 n := by
      show c ∈ Text.ofNat n
      rw [h]
      exact List.mem_cons_self
    exact ⟨c, s, rfl, Nat.isDigit_of_mem_toDigits (by decide) (by decide) hc⟩

section Depth
variable (depth : Nat)

theorem reads_minus {s : Text} {n : Number} (h : readNumber .keep true s = .ok (n, [])) :
    Reads (readValue .keep depth) ('-' :: s) (.number n) where
  opens := ⟨'-', s, rfl, by decide, by decide⟩
  read rest hr := by
    obtain ⟨a, o, hwith⟩ := readValue_eq_with .keep depth
    rw [hwith, List.cons_append, readValueWith_minus, readNumber_append h hr]
    rfl

theorem reads_digit {c : Char} {s : Text} {n : Number} (hc : c.isDigit = true)
    (h : readNumber .keep false (c :: s) = .ok (n, [])) :
    Reads (readValue .keep depth) (c :: s) (.number n) where
  opens := opens_digit hc s
  read rest hr := by
    obtain ⟨a, o, hwith⟩ := readValue_eq_with .keep depth
    rw [hwith, List.cons_append, readValueWith_digit hc, ← List.cons_append,
      readNumber_append h hr]
    rfl

theorem reads_natural (n : UInt64) :
    Reads (readValue .keep depth) (text (.number (.natural n))) (.number (.natural n)) := by
  obtain ⟨c, s, hs, hc⟩ := exists_cons_ofNat n.toNat
  have ht : text (.number (.natural n)) = c :: s := hs
  have hn := readNumber_ofNat false n.toNat_lt_size
  rw [hs] at hn
  rw [ht]
  exact reads_digit depth hc (by simpa [Number.ofWhole] using hn)

theorem reads_negative {n : UInt64} (h0 : 0 < n.toNat) (h : n.toNat ≤ 0x8000000000000000) :
    Reads (readValue .keep depth) (text (.number (.negative n))) (.number (.negative n)) := by
  have hn := readNumber_ofNat true n.toNat_lt_size
  exact reads_minus depth (by simpa [Number.ofWhole, h0, h] using hn)

theorem reads_string (s : Text) :
    Reads (readValue .keep depth) (text (.string s)) (.string s) where
  opens := ⟨'"', _, rfl, by decide, by decide⟩
  read rest _ := by
    obtain ⟨a, o, h⟩ := readValue_eq_with .keep depth
    have ht : text (.string s) ++ rest = '"' :: (s.flatMap escapedChar ++ '"' :: rest) := by
      simp [text, stringText]
    rw [h, ht]
    show (readString .keep _).map _ = _
    rw [readString_quoted]
    rfl

theorem Numeral.value?_eq_some {y : Numeral} {n : Number} (h : y.value? = some n) :
    (y.decimals = none ∧ y.exponent = none) ∨ ∃ x, n = .real x := by
  have hscaled : ∀ {x : Scaled}, Number.ofScaled? y.negative x = some n → ∃ x, n = .real x := by
    intro x hx
    obtain ⟨f, -, rfl⟩ := Option.map_eq_some_iff.mp hx
    exact ⟨_, rfl⟩
  unfold Numeral.value? at h
  simp only at h
  split at h
  · rename_i hd he
    exact .inl ⟨hd, he⟩
  · split at h
    · exact .inr (hscaled h)
    · obtain ⟨x, -, hx⟩ := Option.bind_eq_some_iff.mp h
      exact .inr (hscaled hx)

theorem isSpace_of_isMark {c : Char} (h : layout.IsMark c) : isSpace c = false := by
  rcases h with h | rfl | rfl | rfl | h
  · exact isSpace_of_isDigit h
  · rfl
  · rfl
  · rfl
  · rw [List.mem_singleton.mp h]
    rfl

/-- A number that is read up to space, from a text without space, is read to the end; and one with a
point or an exponent is no integer. -/
theorem readNumber_real {negative : Bool} {s r : Text} {n : Number} {x : Float}
    (hs : ∀ c ∈ s, isSpace c = false) (hp : '.' ∈ s ∨ 'e' ∈ s)
    (h : readNumber .keep negative s = .ok (n, r)) (hr : skipSpace r = [])
    (hx : (Json.number n).toReal = .ok x) : r = [] ∧ n = .real x := by
  obtain ⟨y, hy, hn⟩ := readNumber_eq_ok_iff.mp h
  have hend : r = [] := by
    cases r with
    | nil => rfl
    | cons c r =>
      have hc := hs c ((numeral_suffix hy).subset List.mem_cons_self)
      rw [skipSpace_cons hc] at hr
      exact absurd hr (List.cons_ne_nil c r)
  rcases Numeral.value?_eq_some hn with ⟨hd, he⟩ | ⟨z, rfl⟩
  · obtain ⟨hw, hdigits⟩ := digits_of_numeral hy hd he
    rw [hend, List.append_nil] at hw
    rw [hw] at hp
    rcases hp with hp | hp
    · exact absurd (hdigits '.' hp) (by decide)
    · exact absurd (hdigits 'e' hp) (by decide)
  · exact ⟨hend, congrArg Number.real (Except.ok.inj hx)⟩

/-- An infinity is written as `null`, so a number that is read back has a text of its own; and a
number is read from it, up to space. -/
theorem ReadsBack.exists_text {x : Float} (h : ReadsBack x) : ∃ t n r, layout.text? x = some t ∧
    readValue .keep maxDepth t = .ok (.number n, r) ∧ skipSpace r = [] ∧
    (Json.number n).toReal = .ok x := by
  obtain ⟨v, hv, hx⟩ := h
  obtain ⟨⟨v', r⟩, hread, hv⟩ := bind_eq_ok_iff.mp hv
  obtain ⟨_, hend, hv⟩ := bind_eq_ok_iff.mp hv
  obtain rfl := Except.ok.inj hv
  obtain ⟨n, rfl⟩ : ∃ n, v' = .number n := by
    cases v' with
    | number n => exact ⟨n, rfl⟩
    | _ => simp [toReal] at hx
  have hr : skipSpace r = [] := by
    simpa [endDocument] using hend
  cases htext : layout.text? x with
  | none =>
    have ht : text (.number (.real x)) = "null".toList := by simp [text, Number.text, htext]
    have hnull : readValue .keep maxDepth "null".toList = .ok (.null, []) := rfl
    rw [ht, hnull] at hread
    simp at hread
  | some t =>
    have ht : text (.number (.real x)) = t := by simp [text, Number.text, htext]
    exact ⟨t, n, r, rfl, ht ▸ hread, hr, hx⟩

theorem reads_real {x : Float} (h : ReadsBack x) :
    Reads (readValue .keep depth) (text (.number (.real x))) (.number (.real x)) := by
  obtain ⟨t, n, r, htext, hread, hr, hx⟩ := h.exists_text
  have ht : text (.number (.real x)) = t := by simp [text, Number.text, htext]
  obtain ⟨hmark, hpoint⟩ := Binary64.Layout.text?_eq_some htext
  have hs : ∀ c ∈ t, isSpace c = false := fun c hc => isSpace_of_isMark (hmark c hc)
  have hskip : skipSpace t = t := by
    cases t with
    | nil => rfl
    | cons c t => exact skipSpace_cons (hs c List.mem_cons_self) t
  rw [ht]
  rcases number_of_readValue hread with ⟨u, hu, hn⟩ | ⟨c, u, hu, hc, hn⟩
  · obtain rfl : t = '-' :: u := hskip.symm.trans hu
    have hp : '.' ∈ u ∨ 'e' ∈ u := by simpa using hpoint
    obtain ⟨rfl, rfl⟩ := readNumber_real (List.forall_mem_cons.mp hs).2 hp hn hr hx
    exact reads_minus depth hn
  · obtain rfl : t = c :: u := hskip.symm.trans hu
    obtain ⟨rfl, rfl⟩ := readNumber_real hs hpoint hn hr hx
    exact reads_digit depth hc hn

end Depth

/-- Every such value is read back from its text, whatever follows it. -/
theorem reads_text {depth : Nat} {v : Json} (h : Readable depth v) :
    Reads (readValue .keep depth) (text v) v := by
  induction h with
  | null => exact reads_word _ ⟨'n', _, rfl, by decide, by decide⟩ fun _ _ _ => rfl
  | bool b =>
    cases b with
    | false => exact reads_word _ ⟨'f', _, rfl, by decide, by decide⟩ fun _ _ _ => rfl
    | true => exact reads_word _ ⟨'t', _, rfl, by decide, by decide⟩ fun _ _ _ => rfl
  | natural n => exact reads_natural _ n
  | negative h0 hn => exact reads_negative _ h0 hn
  | real hx => exact reads_real _ hx
  | string s => exact reads_string _ s
  | @array d vs _ ih =>
    refine ⟨⟨'[', _, rfl, by decide, by decide⟩, fun rest _ => ?_⟩
    rw [text_array_append]
    show (readItems (readValue .keep d) _).map _ = _
    rw [readItems_intercalate ih]
    rfl
  | @object d ms _ ih =>
    refine ⟨⟨'\x7b', _, rfl, by decide, by decide⟩, fun rest _ => ?_⟩
    rw [text_object_append]
    show (readMembers .keep (readValue .keep d) _).map _ = _
    rw [readMembers_intercalate text ih]
    rfl

end CacheHost.Json
