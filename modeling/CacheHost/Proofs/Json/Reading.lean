import CacheHost.Proofs.Json.Grammar
import CacheHost.Proofs.Json.Value

namespace CacheHost.Json

theorem isSpace_eq_true_iff {c : Char} : isSpace c = true ↔ c ∈ [' ', '\n', '\t', '\r'] := by
  simp [isSpace, or_assoc]

theorem skipSpace_spaces {gap : Text} (h : IsSpaces gap) (s : Text) :
    skipSpace (gap ++ s) = skipSpace s :=
  List.dropWhile_append_of_pos fun c hc => isSpace_eq_true_iff.mpr (h c hc)

theorem endsNumber_spaces {gap rest : Text} (h : IsSpaces gap) (hr : EndsNumber rest) :
    EndsNumber (gap ++ rest) := by
  cases gap with
  | nil => exact hr
  | cons c gap =>
    have hends : ∀ d ∈ [' ', '\n', '\t', '\r'],
        d.isDigit = false ∧ d ≠ '.' ∧ d ≠ 'e' ∧ d ≠ 'E' := by simp
    exact endsNumber_cons (hends c (h c List.mem_cons_self)) _

/-- Space around a value does not count. -/
theorem Takes.pad {α : Type} {r : Reader α} {before t after : Text} {x : α} (h : Takes r t x)
    (hb : IsSpaces before) (ha : IsSpaces after) : Takes r (before ++ (t ++ after)) x := by
  have hs : skipSpace (before ++ (t ++ after)) = skipSpace t ++ after := by
    rw [skipSpace_spaces hb, skipSpace_append h.opens]
  refine ⟨?_, fun rest hr => ?_⟩
  · obtain ⟨c, s, hc, hsp, hne⟩ := h.opens
    exact ⟨c, s ++ after, by rw [hs, hc, List.cons_append], hsp, hne⟩
  · obtain ⟨left, htake, hleft⟩ := h.take (after ++ rest) (endsNumber_spaces ha hr)
    refine ⟨left, by rw [hs, List.append_assoc, htake], ?_⟩
    rw [hleft, skipSpace_spaces ha]

/-- What ends with a character of its own is read whatever follows. -/
theorem reads_enclosed {α : Type} {r : Reader α} {first last : Char} {t : Text} {x : α}
    (hs : isSpace first = false) (hb : first ≠ ']')
    (h : ∀ rest, r (first :: (t ++ last :: rest)) = .ok (x, rest)) :
    Reads r (first :: (t ++ [last])) x where
  opens := ⟨first, _, rfl, hs, hb⟩
  read rest _ := by
    rw [List.cons_append, List.append_assoc]
    exact h rest

section Number
variable {atEnd : DecodeError}

theorem someDigits_of_isDigits {ds rest : Text} (h : IsDigits ds)
    (hr : ∀ c ∈ rest.head?, c.isDigit = false) :
    someDigits atEnd (ds ++ rest) = .ok (ds, rest) :=
  someDigits_eq_ok_iff.mpr ⟨h.1, h.2, hr, rfl⟩

theorem head?_of_showsExponent {t : Text} {e : Option (Bool × Text)} (h : ShowsExponent t e) :
    ∀ c ∈ t.head?, c ∈ ['e', 'E'] := by
  intro c hc
  cases h with
  | none => simp at hc
  | bare hm => exact Option.some.inj hc ▸ hm
  | plus hm => exact Option.some.inj hc ▸ hm
  | minus hm => exact Option.some.inj hc ▸ hm

theorem exponentSign_of_isDigits {ds : Text} (h : IsDigits ds) : exponentSign ds = (false, ds) := by
  fun_cases exponentSign ds with
  | case1 s => exact absurd (h.2 '-' List.mem_cons_self) (by decide)
  | case2 s => exact absurd (h.2 '+' List.mem_cons_self) (by decide)
  | case3 => rfl

theorem exponentPart_of_shows {t : Text} {e : Option (Bool × Text)} (h : ShowsExponent t e) :
    exponentPart atEnd t = .ok (e, []) := by
  have hdigits : ∀ {ds : Text}, IsDigits ds → someDigits atEnd ds = .ok (ds, []) := by
    intro ds hds
    have := @someDigits_of_isDigits atEnd ds [] hds (by simp)
    rwa [List.append_nil] at this
  rw [exponentPart_eq_ok_iff]
  cases h with
  | none => exact .inl ⟨rfl, rfl, by simp⟩
  | @bare mark ds hm hds =>
    have hsign := exponentSign_of_isDigits hds
    refine .inr ⟨mark, ds, ds, by simpa using hm, rfl, by rw [hsign], ?_⟩
    rw [hsign]
    exact hdigits hds
  | @plus mark ds hm hds =>
    exact .inr ⟨mark, '+' :: ds, ds, by simpa using hm, rfl, rfl, hdigits hds⟩
  | @minus mark ds hm hds =>
    exact .inr ⟨mark, '-' :: ds, ds, by simpa using hm, rfl, rfl, hdigits hds⟩

theorem decimalPart_of_shows {t rest : Text} {d : Option Text} (h : ShowsDecimals t d)
    (hr : ∀ c ∈ rest.head?, c ∈ ['e', 'E']) : decimalPart atEnd (t ++ rest) = .ok (d, rest) := by
  rw [decimalPart_eq_ok_iff]
  cases h with
  | none =>
    refine .inl ⟨rfl, rfl, fun hp => ?_⟩
    exact absurd (hr '.' hp) (by decide)
  | @some ds hds =>
    refine .inr ⟨ds, ds ++ rest, rfl, rfl, someDigits_of_isDigits hds fun c hc => ?_⟩
    have hmark : ∀ c ∈ ['e', 'E'], c.isDigit = false := by simp
    exact hmark c (hr c hc)

theorem numeral_of_shows {negative : Bool} {whole point mark : Text} {decimals : Option Text}
    {exponent : Option (Bool × Text)} (hw : IsDigits whole)
    (hz : whole.head? = some '0' → whole = ['0']) (hd : ShowsDecimals point decimals)
    (he : ShowsExponent mark exponent) :
    numeral atEnd negative (whole ++ (point ++ mark)) =
      .ok (⟨negative, whole, decimals, exponent⟩, []) := by
  have hmark := head?_of_showsExponent he
  refine numeral_eq_ok_iff.mpr ⟨rfl, point ++ mark, mark, wholePart_eq_ok_iff.mpr ⟨?_, ?_⟩,
    decimalPart_of_shows hd hmark, exponentPart_of_shows he⟩
  · apply someDigits_of_isDigits hw
    have hdigit : ∀ c ∈ ['e', 'E'], c.isDigit = false := by simp
    intro c hc
    cases hd with
    | none => exact hdigit c (hmark c hc)
    | some => exact Option.some.inj hc ▸ rfl
  · exact fun h => h.2 (hz h.1)

/-- Digits that 64 bits hold are taken without loss, and only those. -/
theorem wholeDigits_exact {ds : Text} {v : Nat} (hv : v < UInt64.size)
    (h : (wholeDigits v ds).exponent = 0) :
    (wholeDigits v ds).digits = Nat.ofDigitChars 10 ds v ∧
      Nat.ofDigitChars 10 ds v < UInt64.size := by
  induction ds generalizing v with
  | nil => exact ⟨rfl, hv⟩
  | cons c ds ih =>
    rw [wholeDigits] at h ⊢
    rw [Nat.ofDigitChars_cons, Nat.mul_comm 10 v]
    split
    · rename_i hlt
      rw [if_pos hlt] at h
      exact ih hlt h
    · rename_i hlt
      rw [if_neg hlt] at h
      simp only at h
      omega

theorem Numeral.value?_eq_natural_iff {x : Numeral} {n : UInt64} :
    x.value? = some (.natural n) ↔ x.negative = false ∧ x.decimals = none ∧ x.exponent = none ∧
      Nat.ofDigitChars 10 x.whole 0 = n.toNat := by
  obtain ⟨negative, whole, decimals, exponent⟩ := x
  constructor
  · intro h
    rcases value?_eq_some h with ⟨rfl, rfl⟩ | ⟨y, hy⟩
    · simp only [value?] at h
      split at h
      · rename_i hz
        obtain ⟨hdigits, hlt⟩ := wholeDigits_exact (by decide) hz
        cases negative with
        | true =>
          have hnone : ∀ m, Number.ofWhole true m ≠ .natural n := by
            intro m
            rw [Number.ofWhole, if_pos rfl]
            split <;> simp
          exact absurd (Option.some.inj h) (hnone _)
        | false =>
          have hn : UInt64.ofNat (wholeDigits 0 whole).digits = n := by
            simpa [Number.ofWhole] using h
          refine ⟨rfl, rfl, rfl, ?_⟩
          rw [← hn, hdigits, UInt64.toNat_ofNat_of_lt' hlt]
      · obtain ⟨f, -, hf⟩ := Option.map_eq_some_iff.mp h
        simp at hf
    · simp at hy
  · rintro ⟨rfl, rfl, rfl, hn⟩
    have hw : wholeDigits 0 whole = ⟨_, 0⟩ := wholeDigits_eq (hn ▸ n.toNat_lt_size)
    simp only at hn
    rw [hn] at hw
    simp [value?, hw, Number.ofWhole]

theorem natural?_eq_some_iff {j : Json} {n : UInt64} :
    j.natural? = some n ↔ j = .number (.natural n) := by
  unfold natural?
  split
  · simp
  · rename_i hj
    simp only [reduceCtorEq, false_iff]
    exact hj n

theorem Form.natural?_value {v : Form} {n : UInt64} :
    v.value.natural? = some n ↔ v.IsNatural n := by
  rw [natural?_eq_some_iff]
  constructor
  · intro h
    cases v with
    | number x =>
      have hx : x.value? = some (.natural n) := by
        cases hv : x.value? with
        | none => simp [value, hv] at h
        | some m =>
          rw [value_number hv] at h
          exact congrArg some (Json.number.inj h)
      obtain ⟨negative, whole, decimals, exponent⟩ := x
      obtain ⟨rfl, rfl, rfl, hn⟩ := Numeral.value?_eq_natural_iff.mp hx
      exact ⟨whole, rfl, hn⟩
    | _ => simp [value] at h
  · rintro ⟨digits, rfl, hn⟩
    exact value_number (Numeral.value?_eq_natural_iff.mpr ⟨rfl, rfl, rfl, hn⟩)

end Number

section Quoted

theorem lt_of_isHexDigit {c : Char} {n : Nat} (h : IsHexDigit c n) : n < 16 := by
  rcases h with h | h
  · exact (List.getElem?_eq_some_iff.mp h).1
  · exact (List.getElem?_eq_some_iff.mp h).1

theorem hexDigit?_of_isHexDigit {c : Char} {n : Nat} (h : IsHexDigit c n) :
    hexDigit? c = some n := by
  have hdigits : ∀ n < 16, "0123456789abcdef".toList[n]?.bind hexDigit? = some n ∧
      "0123456789ABCDEF".toList[n]?.bind hexDigit? = some n := by decide
  have hn := lt_of_isHexDigit h
  rcases h with h | h
  · simpa only [h, Option.bind_some] using (hdigits n hn).1
  · simpa only [h, Option.bind_some] using (hdigits n hn).2

theorem foldl_hexDigit? {ds : List (Char × Nat)} (h : ∀ d ∈ ds, IsHexDigit d.1 d.2) (v : Nat) :
    (ds.map (·.1)).foldl (fun v c => v.bind fun v => (hexDigit? c).map (v * 16 + ·)) (some v) =
      some (ds.foldl (fun n d => n * 16 + d.2) v) := by
  induction ds generalizing v with
  | nil => rfl
  | cons d ds ih =>
    obtain ⟨hd, hds⟩ := List.forall_mem_cons.mp h
    rw [List.map_cons, List.foldl_cons, List.foldl_cons, ← ih hds]
    simp [hexDigit?_of_isHexDigit hd]

theorem hex?_of_isCode {t : Text} {n : Nat} (h : IsCode t n) :
    ∃ a b c d, t = [a, b, c, d] ∧ hex? [a, b, c, d] = some n := by
  obtain ⟨ds, hl, hds, rfl, rfl⟩ := h
  have hv := foldl_hexDigit? hds 0
  match ds, hl with
  | [a, b, c, d], _ => exact ⟨a.1, b.1, c.1, d.1, rfl, hv⟩

variable {s rest : Text} {c : Char}

/-- The numbers of characters leave out the surrogates. -/
theorem toNat_cases (c : Char) : c.toNat < 0xD800 ∨ 0xDFFF < c.toNat ∧ c.toNat < 0x110000 :=
  c.valid

theorem readString_code {digits : Text} (h : IsCode digits c.toNat) :
    readString .keep ('\\' :: 'u' :: (digits ++ s)) = pushChar c (readString .keep s) := by
  obtain ⟨x, y, z, w, rfl, hx⟩ := hex?_of_isCode h
  have hs : (!isHighSurrogate c.toNat && !isLowSurrogate c.toNat) = true := by
    have := toNat_cases c
    simp only [isHighSurrogate, isLowSurrogate, Bool.and_eq_true, Bool.not_eq_true',
      Bool.and_eq_false_iff, decide_eq_false_iff_not]
    omega
  simp only [List.cons_append, List.nil_append, readString, hx, hs, if_true, Char.ofNat_toNat]

theorem readString_pair {high low : Text} (hc : 0x10000 ≤ c.toNat)
    (hh : IsCode high (0xD800 + (c.toNat - 0x10000) / 0x400))
    (hl : IsCode low (0xDC00 + (c.toNat - 0x10000) % 0x400)) :
    readString .keep ('\\' :: 'u' :: (high ++ '\\' :: 'u' :: (low ++ s))) =
      pushChar c (readString .keep s) := by
  obtain ⟨x, y, z, w, rfl, hx⟩ := hex?_of_isCode hh
  obtain ⟨x', y', z', w', rfl, hx'⟩ := hex?_of_isCode hl
  have hlt := toNat_cases c
  generalize hm : (c.toNat - 0x10000) / 0x400 = m at hx
  generalize hn : (c.toNat - 0x10000) % 0x400 = n at hx'
  -- either half holds ten bits, so each code is a surrogate of its own kind
  have hm4 : m < 0x400 := by omega
  have hn4 : n < 0x400 := by omega
  have hhigh : isHighSurrogate (0xD800 + m) = true := by
    simp [isHighSurrogate]
    omega
  have hhigh' : isLowSurrogate (0xD800 + m) = false := by
    simp [isLowSurrogate]
    omega
  have hlow : isLowSurrogate (0xDC00 + n) = true := by
    simp [isLowSurrogate]
    omega
  have hv : 0x10000 + (0xD800 + m - 0xD800) * 0x400 + (0xDC00 + n - 0xDC00) = c.toNat := by omega
  simp only [List.cons_append, List.nil_append, readString, hx, hx', hhigh, hhigh', hlow, hv,
    Bool.not_true, Bool.false_and, Bool.false_eq_true, if_false, if_true, reduceCtorEq,
    Char.ofNat_toNat]

theorem shortEscape?_of_mem {mark : Char} (h : (mark, c) ∈ shortEscapes) :
    shortEscape? mark = some c := by
  have hall : ∀ e ∈ shortEscapes, shortEscape? e.1 = some e.2 := by decide
  exact hall _ h

theorem readString_quotes {t : Text} (h : Quotes t s) :
    readString .keep (t ++ '"' :: rest) = .ok (s, rest) := by
  induction h with
  | nil => simp [readString]
  | plain hc hq hb _ ih =>
    rw [List.cons_append, readString_cons .keep (Nat.not_lt.mpr hc) hq hb, ih]
    rfl
  | escape hm _ ih =>
    rw [List.cons_append, List.cons_append,
      readString_shortEscape .keep (shortEscape?_of_mem hm), ih]
    rfl
  | code hc _ ih =>
    rw [List.cons_append, List.cons_append, List.append_assoc, readString_code hc, ih]
    rfl
  | pair hc hh hl _ ih =>
    rw [List.cons_append, List.cons_append, List.append_assoc, List.cons_append,
      List.cons_append, List.append_assoc, readString_pair hc hh hl, ih]
    rfl

end Quoted

section Items
variable {α : Type} {gap : Text}

theorem readItems_gap (item : Reader α) (hg : IsSpaces gap) (rest : Text) :
    readItems item (gap ++ ']' :: rest) = .ok ([], rest) := by
  have hs : skipSpace (gap ++ ']' :: rest) = ']' :: rest := by
    rw [skipSpace_spaces hg, skipSpace_cons (by decide)]
  simp [readItems, readItemsWithin, nextItem, close, hs, ok_bind]

def pushMember (value : Reader α) (acc : List (Text × α)) (name : Text) :
    Reader (List (Text × α)) := fun s => do
  let (v, s) ← value (← colon s)
  .ok ((name, v) :: acc, s)

theorem readMembers_eq (use : Use) (value : Reader α) (s : Text) :
    readMembers use value s =
      (foldMembers use (pushMember value) [] s).map fun p => (p.1.reverse, p.2) := by
  show (foldMembers use (pushMember value) [] s >>= fun p => .ok (p.1.reverse, p.2)) = _
  cases foldMembers use (pushMember value) [] s <;> rfl

theorem readMembers_gap (use : Use) (value : Reader α) (hg : IsSpaces gap) (rest : Text) :
    readMembers use value (gap ++ '\x7d' :: rest) = .ok ([], rest) := by
  have hs : skipSpace (gap ++ '\x7d' :: rest) = '\x7d' :: rest := by
    rw [skipSpace_spaces hg, skipSpace_cons (by decide)]
  simp [readMembers, foldMembers, foldMembersWithin, nextName, close, hs, ok_bind]

variable {value : Reader α} (hskip : ∀ s, value (skipSpace s) = value s)
include hskip

theorem takesMember_of_shows {nameText valueText name : Text} {v : α}
    (hn : ShowsName nameText name) (hv : Takes value valueText v) (acc : List (Text × α)) :
    TakesMember .keep (pushMember value) acc (nameText ++ ':' :: valueText)
      ((name, v) :: acc) := by
  obtain @⟨before, t, _, after, hb, hq, ha⟩ := hn
  refine ⟨t ++ '"' :: (after ++ ':' :: valueText), ?_, fun rest hr => ?_⟩
  · rw [List.append_assoc, skipSpace_spaces hb, List.cons_append, skipSpace_cons (by decide),
      List.append_assoc, List.cons_append]
  · obtain ⟨left, hread, hleft⟩ := hv.take rest hr
    refine ⟨name, after ++ ':' :: (valueText ++ rest), left, ?_, ?_, hleft⟩
    · rw [List.append_assoc, List.cons_append, List.append_assoc, List.cons_append]
      exact readString_quotes hq
    · have hcolon : colon (after ++ ':' :: (valueText ++ rest)) = .ok (valueText ++ rest) := by
        rw [colon, skipSpace_spaces ha, skipSpace_cons (by decide)]
        rfl
      rw [pushMember, hcolon, ok_bind, ← hskip, skipSpace_append hv.opens, hread, ok_bind]

omit hskip in
theorem foldTakes_push {use : Use} {es : List (Text × (Text × α))}
    (h : ∀ e ∈ es, ∀ acc, TakesMember use (pushMember value) acc e.1 (e.2 :: acc))
    (acc : List (Text × α)) :
    FoldTakes use (pushMember value) acc (es.map (·.1)) ((es.map (·.2)).reverse ++ acc) := by
  induction es generalizing acc with
  | nil => exact .nil acc
  | cons e es ih =>
    obtain ⟨he, hes⟩ := List.forall_mem_cons.mp h
    rw [List.map_cons, List.map_cons, List.reverse_cons, List.append_assoc]
    exact .cons (he acc) (ih hes (e.2 :: acc))

/-- The members of an object are read from their texts between commas. -/
theorem readMembers_takes {f : Form → α} {ms : List WrittenMember}
    (hn : ∀ m ∈ ms, ShowsName m.nameText m.name)
    (hv : ∀ m ∈ ms, Takes value m.valueText (f m.value)) (rest : Text) :
    readMembers .keep value ([','].intercalate (ms.map WrittenMember.text) ++ '\x7d' :: rest) =
      .ok (ms.map fun m => (m.name, f m.value), rest) := by
  have hms : FoldTakes .keep (pushMember value) [] (ms.map WrittenMember.text)
      (ms.map fun m => (m.name, f m.value)).reverse := by
    have h := @foldTakes_push _ value .keep (ms.map fun m => (m.text, (m.name, f m.value)))
      (List.forall_mem_map.mpr fun m hm => takesMember_of_shows hskip (hn m hm) (hv m hm)) []
    simpa [Function.comp_def] using h
  rw [readMembers_eq, foldMembers_takes hms]
  simp [Except.map]

end Items

section Value
variable {depth : Nat}

theorem readValue_skipSpace (use : Use) (depth : Nat) (s : Text) :
    readValue use depth (skipSpace s) = readValue use depth s := by
  obtain ⟨a, o, h⟩ := readValue_eq_with use depth
  rw [h, readValueWith, readValueWith, skipSpace_idem]

theorem reads_numeral {t : Text} {x : Numeral} {n : Number} (h : ShowsNumeral t x)
    (hn : x.value? = some n) : Reads (readValue .keep depth) t (.number n) := by
  obtain @⟨negative, whole, point, mark, _, _, hw, hz, hd, he⟩ := h
  have hread : readNumber .keep negative (whole ++ (point ++ mark)) = .ok (n, []) :=
    readNumber_eq_ok_iff.mpr ⟨_, numeral_of_shows hw hz hd he, hn⟩
  cases negative with
  | true => exact reads_minus depth hread
  | false =>
    obtain ⟨c, whole, rfl⟩ := List.exists_cons_of_ne_nil hw.1
    exact reads_digit depth (hw.2 c List.mem_cons_self) hread

theorem reads_quoted {t s : Text} (h : Quotes t s) :
    Reads (readValue .keep depth) ('"' :: (t ++ ['"'])) (.string s) := by
  refine reads_enclosed (by decide) (by decide) fun rest => ?_
  obtain ⟨a, o, hr⟩ := readValue_eq_with .keep depth
  rw [hr]
  show (readString .keep _).map _ = _
  rw [readString_quotes h]
  rfl

theorem reads_items {t : Text} {js : List Json}
    (h : ∀ rest, readItems (readValue .keep depth) (t ++ ']' :: rest) = .ok (js, rest)) :
    Reads (readValue .keep (depth + 1)) ('[' :: (t ++ [']'])) (.array js) := by
  refine reads_enclosed (by decide) (by decide) fun rest => ?_
  show (readItems (readValue .keep depth) _).map _ = _
  rw [h]
  rfl

theorem reads_members {t : Text} {ms : List (Text × Json)}
    (h : ∀ rest, readMembers .keep (readValue .keep depth) (t ++ '\x7d' :: rest) =
      .ok (ms, rest)) :
    Reads (readValue .keep (depth + 1)) ('\x7b' :: (t ++ ['\x7d'])) (.object ms) := by
  refine reads_enclosed (by decide) (by decide) fun rest => ?_
  show (readMembers .keep (readValue .keep depth) _).map _ = _
  rw [h]
  rfl

/-- A value is read from its text as what the text denotes, whatever follows it. -/
theorem takes_of_denotes {t : Text} {v : Form} (h : Denotes t v) (hv : v.Fits depth) :
    Takes (readValue .keep depth) t v.value := by
  induction h generalizing depth with
  | padded hb _ ha ih => exact (ih hv).pad hb ha
  | null => exact (reads_text .null).takes
  | false => exact (reads_text (.bool false)).takes
  | true => exact (reads_text (.bool true)).takes
  | @number t x h =>
    cases hv with
    | number hx =>
      obtain ⟨n, hn⟩ := Option.ne_none_iff_exists'.mp hx
      rw [Form.value_number hn]
      exact (reads_numeral h hn).takes
  | string h => exact (reads_quoted h).takes
  | noItems hg =>
    cases hv with
    | array => exact (reads_items (readItems_gap _ hg)).takes
  | @array es _ ih =>
    cases hv with
    | @array d _ hv =>
      have hes : List.Forall₂ (Takes (readValue .keep d)) (es.map (·.1))
          ((es.map (·.2)).map Form.value) := by
        rw [List.map_map, List.forall₂_map_left_iff, List.forall₂_map_right_iff, List.forall₂_same]
        exact fun e he => ih e he (hv e.2 (List.mem_map_of_mem he))
      rw [Form.value_array]
      exact (reads_items (readItems_takes hes)).takes
  | noMembers hg =>
    cases hv with
    | object => exact (reads_members (readMembers_gap .keep _ hg)).takes
  | @object ms hn _ ih =>
    cases hv with
    | object hv =>
      have hms := readMembers_takes (readValue_skipSpace .keep _) hn
        fun m hm => ih m hm (hv m.member (List.mem_map_of_mem hm))
      rw [Form.value_object, List.map_map]
      exact (reads_members hms).takes

end Value

/-- A document is read to its end. -/
theorem readValue_of_denotes {depth : Nat} {s : Text} {v : Form} (h : Denotes s v)
    (hv : v.Fits depth) :
    ∃ left, readValue .keep depth s = .ok (v.value, left) ∧ endDocument left = .ok () := by
  obtain ⟨left, hread, hleft⟩ := (takes_of_denotes h hv).take [] (by simp [EndsNumber])
  rw [List.append_nil, readValue_skipSpace] at hread
  exact ⟨left, hread, if_pos hleft⟩

end CacheHost.Json
