import CacheHost.Proofs.Binary64.Leading
import CacheHost.Proofs.Json.Acceptance

namespace CacheHost.Json
open Binary64

/-- An array has the property if its items have it, and an object if the values of its members
have it. -/
@[elab_as_elim]
theorem structural_induction {P : Json → Prop} (null : P .null) (bool : ∀ b, P (.bool b))
    (number : ∀ n, P (.number n)) (string : ∀ s, P (.string s))
    (array : ∀ vs : List Json, (∀ v ∈ vs, P v) → P (.array vs))
    (object : ∀ ms : List (Text × Json), (∀ m ∈ ms, P m.2) → P (.object ms)) (v : Json) : P v :=
  @Json.rec P (fun vs => ∀ v ∈ vs, P v) (fun ms => ∀ m ∈ ms, P m.2) (fun m => P m.2) null bool
    number string array object (by simp) (fun _ _ hv hvs => List.forall_mem_cons.mpr ⟨hv, hvs⟩)
    (by simp) (fun _ _ hm hms => List.forall_mem_cons.mpr ⟨hm, hms⟩) (fun _ _ h => h) v

section Numeral

theorem isDigits_ofNat (n : Nat) : IsDigits (Text.ofNat n) :=
  ⟨Nat.toDigits_ne_nil, fun _ hc => isDigit_ofNat hc⟩

theorem showsNumeral_ofNat (negative : Bool) (n : Nat) :
    ShowsNumeral ((if negative then ['-'] else []) ++ Text.ofNat n)
      ⟨negative, Text.ofNat n, none, none⟩ := by
  have h := @ShowsNumeral.intro negative _ _ _ _ _ (isDigits_ofNat n) head?_ofNat .none .none
  rwa [List.append_nil, List.append_nil] at h

variable {digits : Text} {e : Int}

theorem showsDecimals_point (hd : ∀ c ∈ digits, c.isDigit = true) :
    ShowsDecimals ('.' :: if digits = [] then ['0'] else digits)
      (some (if digits = [] then ['0'] else digits)) := by
  apply ShowsDecimals.some
  split
  · exact ⟨by simp, by simp⟩
  · exact ⟨‹_›, hd⟩

theorem showsExponent_ofInt (e : Int) :
    ∃ x, ShowsExponent ('e' :: ((if 0 ≤ e then ['+'] else []) ++ Text.ofInt e)) (some x) := by
  cases e with
  | ofNat n =>
    have hn : 0 ≤ Int.ofNat n := Int.natCast_nonneg n
    rw [if_pos hn]
    exact ⟨_, .plus (by simp) (isDigits_ofNat n)⟩
  | negSucc n =>
    rw [if_neg (Int.not_le.mpr (Int.negSucc_lt_zero n))]
    exact ⟨_, .minus (by simp) (isDigits_ofNat (n + 1))⟩

def IsUnsigned (t : Text) : Prop :=
  ∃ whole point mark d x, IsDigits whole ∧ (whole.head? = some '0' → whole = ['0']) ∧
    ShowsDecimals point d ∧ ShowsExponent mark x ∧ t = whole ++ (point ++ mark)

/-- The digits before the point are filled up with zeros. -/
theorem isUnsigned_whole (h : Leads digits e) (he : 0 ≤ e) (part : Text)
    (hpart : part = digits.drop (e.toNat + 1)) :
    IsUnsigned (digits.take (e.toNat + 1) ++
      List.replicate (e.toNat + 1 - (digits.take (e.toNat + 1)).length) '0' ++ ['.'] ++
        if part = [] then ['0'] else part) := by
  have hd : ∀ c ∈ part, c.isDigit = true := fun c hc =>
    h.isDigit c (List.mem_of_mem_drop (hpart ▸ hc))
  refine ⟨_, _, [], _, _, ⟨?_, ?_⟩, ?_, showsDecimals_point hd, .none, by
    rw [List.append_nil, List.append_assoc, List.singleton_append]⟩
  · intro hnil
    have hl := congrArg List.length hnil
    simp only [List.length_append, List.length_replicate, List.length_nil] at hl
    omega
  · refine List.forall_mem_append.mpr ⟨fun c hc => h.isDigit c (List.mem_of_mem_take hc), ?_⟩
    exact fun c hc => List.eq_of_mem_replicate hc ▸ rfl
  · cases digits with
    | nil =>
      obtain rfl := h.empty rfl
      exact fun _ => rfl
    | cons c s =>
      intro hz
      obtain ⟨hs, rfl⟩ := h.zero hz
      rw [hs]
      rfl

theorem isUnsigned_fraction (h : Leads digits e) (he : e < 0) (zeros : Nat) :
    IsUnsigned (['0', '.'] ++ List.replicate zeros '0' ++ digits) := by
  have hne : digits ≠ [] := by
    intro hnil
    have := h.empty hnil
    omega
  have hdigits : IsDigits (List.replicate zeros '0' ++ digits) := by
    refine ⟨List.append_ne_nil_of_right_ne_nil _ hne, List.forall_mem_append.mpr ⟨?_, h.isDigit⟩⟩
    exact fun c hc => List.eq_of_mem_replicate hc ▸ rfl
  exact ⟨['0'], _, [], _, _, ⟨by simp, by simp⟩, fun _ => rfl, .some hdigits, .none, by simp⟩

theorem isUnsigned_exponent (h : Leads digits e) (he : e ≠ 0) :
    IsUnsigned (digits.take 1 ++ (if digits.length ≤ 1 then [] else '.' :: digits.drop 1) ++ ['e'] ++
      (if 0 ≤ e then ['+'] else []) ++ Text.ofInt e) := by
  obtain ⟨x, hx⟩ := showsExponent_ofInt e
  cases digits with
  | nil => exact absurd (h.empty rfl) he
  | cons c s =>
    have hd := List.forall_mem_cons.mp h.isDigit
    have hpoint : ∃ d, ShowsDecimals (if (c :: s).length ≤ 1 then [] else '.' :: s) d := by
      split
      · exact ⟨_, .none⟩
      · rename_i hl
        refine ⟨_, .some ⟨?_, hd.2⟩⟩
        rintro rfl
        exact hl (Nat.le_refl 1)
    obtain ⟨d, hpoint⟩ := hpoint
    refine ⟨[c], _, _, _, _, ⟨by simp, by simpa using hd.1⟩, ?_, hpoint, hx, by simp⟩
    intro hz
    rw [Option.some.inj hz]

/-- However a number is laid out, it is a number of JSON. -/
theorem exists_showsNumeral_place (negative : Bool) (h : Leads digits e) :
    ∃ y, ShowsNumeral ((if negative then ['-'] else []) ++ layout.place digits e) y := by
  suffices hplace : IsUnsigned (layout.place digits e) by
    obtain ⟨whole, point, mark, d, x, hw, hz, hd, hx, hp⟩ := hplace
    rw [hp]
    exact ⟨_, .intro hw hz hd hx⟩
  unfold Layout.place
  split
  · split
    · exact isUnsigned_whole h ‹_› _ rfl
    · exact isUnsigned_fraction h (by omega) _
  · rename_i hrange
    apply isUnsigned_exponent h
    rintro rfl
    exact hrange (by decide)

end Numeral

section Text

theorem quotes_escaped (s : Text) : Quotes (s.flatMap escapedChar) s := by
  induction s with
  | nil => exact .nil
  | cons c s ih =>
    rw [List.flatMap_cons]
    rcases escapedChar_cases c with ⟨d, hd, he⟩ | ⟨hc, he⟩ | ⟨hc, hq, hb, he⟩
    · rw [he]
      exact .escape (mem_shortEscapes hd) ih
    · rw [he]
      exact .code (isCode_of_hex? (hex?_control hc)) ih
    · rw [he]
      exact .plain (Nat.le_of_not_lt hc) hq hb ih

def IsPrintable (t : Text) : Prop := ∀ c ∈ t, 0x20 ≤ c.toNat

instance (t : Text) : Decidable (IsPrintable t) :=
  List.decidableBAll (fun c : Char => 0x20 ≤ c.toNat) t

theorem isPrintable_of_isDigit {t : Text} (h : ∀ c ∈ t, c.isDigit = true) : IsPrintable t := by
  intro c hc
  have := (Char.isDigit_iff_toNat.mp (h c hc)).1
  have h0 : '0'.toNat = 48 := rfl
  omega

theorem isPrintable_digitChar : ∀ n < 16, 0x20 ≤ (Nat.digitChar n).toNat := by decide

theorem isPrintable_escapedChar (c : Char) : IsPrintable (escapedChar c) := by
  rcases escapedChar_cases c with ⟨d, hd, he⟩ | ⟨hc, he⟩ | ⟨hc, -, -, he⟩
  · have hmark : ∀ e ∈ shortEscapes, 0x20 ≤ e.1.toNat := by decide
    rw [he]
    simp only [IsPrintable, List.forall_mem_cons]
    exact ⟨by decide, hmark _ (mem_shortEscapes hd), by simp⟩
  · rw [he]
    simp only [IsPrintable, List.forall_mem_cons]
    exact ⟨by decide, by decide, by decide, by decide, isPrintable_digitChar _ (by omega),
      isPrintable_digitChar _ (by omega), by simp⟩
  · rw [he]
    exact List.forall_mem_singleton.mpr (Nat.le_of_not_lt hc)

theorem isPrintable_stringText (s : Text) : IsPrintable (stringText s) := by
  simp only [IsPrintable, stringText, List.forall_mem_append, List.forall_mem_singleton]
  refine ⟨⟨by decide, ?_⟩, by decide⟩
  intro c hc
  obtain ⟨d, -, hd⟩ := List.mem_flatMap.mp hc
  exact isPrintable_escapedChar d c hd

theorem isPrintable_number (n : Number) : IsPrintable n.text := by
  cases n with
  | natural n => exact isPrintable_of_isDigit fun c hc => isDigit_ofNat hc
  | negative n =>
    exact List.forall_mem_cons.mpr ⟨by decide, isPrintable_of_isDigit fun c hc => isDigit_ofNat hc⟩
  | real x =>
    rw [Number.text]
    cases ht : layout.text? x with
    | none => decide
    | some t =>
      intro c hc
      rcases (Layout.text?_eq_some ht).1 c hc with h | rfl | rfl | rfl | h
      · exact isPrintable_of_isDigit (List.forall_mem_singleton.mpr h) c (List.mem_singleton.mpr rfl)
      · decide
      · decide
      · decide
      · rw [List.mem_singleton.mp h]
        decide

theorem isPrintable_intercalate {ts : List Text} (h : ∀ t ∈ ts, IsPrintable t) :
    IsPrintable ([','].intercalate ts) := by
  cases ts with
  | nil => simp [IsPrintable]
  | cons t ts =>
    obtain ⟨ht, hts⟩ := List.forall_mem_cons.mp h
    rw [intercalate_cons]
    refine List.forall_mem_append.mpr ⟨ht, fun c hc => ?_⟩
    obtain ⟨u, hu, hc⟩ := List.mem_flatMap.mp hc
    rcases List.mem_append.mp hc with hc | hc
    · rw [List.mem_singleton.mp hc]
      decide
    · exact hts u hu c hc

/-- Controls in strings are escaped, and between the parts of a value there is no space. -/
theorem isPrintable_text (v : Json) : IsPrintable (text v) := by
  induction v using structural_induction with
  | null => decide
  | bool b => cases b <;> decide
  | number n => exact isPrintable_number n
  | string s => exact isPrintable_stringText s
  | array vs ih =>
    rw [text, itemTexts_eq_map]
    have hvs := isPrintable_intercalate (List.forall_mem_map.mpr ih)
    simp only [IsPrintable, List.forall_mem_append, List.forall_mem_singleton] at hvs ⊢
    exact ⟨⟨by decide, hvs⟩, by decide⟩
  | object ms ih =>
    have hms : ∀ t ∈ memberTexts ms, IsPrintable t := by
      rw [memberTexts_eq_map, List.map_map]
      refine List.forall_mem_map.mpr fun m hm => ?_
      have hcolon : IsPrintable [':'] := by decide
      refine List.forall_mem_append.mpr ⟨List.forall_mem_append.mpr ⟨?_, hcolon⟩, ih m hm⟩
      exact isPrintable_stringText m.1
    have hms := isPrintable_intercalate hms
    simp only [text, IsPrintable, List.forall_mem_append, List.forall_mem_singleton] at hms ⊢
    exact ⟨⟨by decide, hms⟩, by decide⟩

end Text

section Form

/-- A finite number as it is written; `null` stands for any other. -/
def Form.ofReal (x : Float) : Form :=
  match layout.text? x with
  | none => .null
  | some ('-' :: s) => (numeral .malformed true s).toOption.elim .null fun p => .number p.1
  | some s => (numeral .malformed false s).toOption.elim .null fun p => .number p.1

def Form.ofNatural (n : UInt64) : Form := .number ⟨false, Text.ofNat n.toNat, none, none⟩

def Form.ofNumber : Number → Form
  | .natural n => .ofNatural n
  | .negative n => .number ⟨true, Text.ofNat n.toNat, none, none⟩
  | .real x => .ofReal x

mutual

def form : Json → Form
  | .null => .null
  | .bool b => .bool b
  | .number n => .ofNumber n
  | .string s => .string s
  | .array vs => .array (itemForms vs)
  | .object ms => .object (memberForms ms)

def itemForms : List Json → List Form
  | [] => []
  | v :: vs => form v :: itemForms vs

def memberForms : List (Text × Json) → List (Text × Form)
  | [] => []
  | (name, v) :: ms => (name, form v) :: memberForms ms

end

theorem itemForms_eq_map (vs : List Json) : itemForms vs = vs.map form := by
  induction vs with
  | nil => rfl
  | cons v vs ih => rw [itemForms, ih, List.map_cons]

theorem memberForms_eq_map (ms : List (Text × Json)) :
    memberForms ms = ms.map fun m => (m.1, form m.2) := by
  induction ms with
  | nil => rfl
  | cons m ms ih => rw [memberForms, ih, List.map_cons]

theorem isNatural_ofNatural (n : UInt64) : (Form.ofNatural n).IsNatural n :=
  ⟨_, rfl, Nat.ofDigitChars_ten_toDigits⟩

/-- The text of a number that has one is not that of `null`. -/
theorem exists_number_ofReal {x : Float} {t : Text} (h : layout.text? x = some t) :
    ∃ y, Form.ofReal x = .number y ∧ ShowsNumeral t y := by
  obtain ⟨negative, digits, e, hlead, rfl⟩ := Layout.exists_leads_of_text? h
  obtain ⟨y, hy⟩ := exists_showsNumeral_place negative hlead
  refine ⟨y, ?_, hy⟩
  generalize (if negative then ['-'] else []) ++ layout.place digits e = t at h hy
  obtain @⟨negative, whole, point, mark, d, x, hw, hz, hd, hx⟩ := hy
  have hread := @numeral_of_shows .malformed negative _ _ _ _ _ hw hz hd hx
  rw [Form.ofReal, h]
  cases negative with
  | true =>
    show (numeral .malformed true (whole ++ (point ++ mark))).toOption.elim _ _ = _
    rw [hread]
    rfl
  | false =>
    obtain ⟨c, whole, rfl⟩ := List.exists_cons_of_ne_nil hw.1
    have hc : c ≠ '-' := by
      rintro rfl
      exact absurd (hw.2 '-' List.mem_cons_self) (by decide)
    simp only [Bool.false_eq_true, if_false, List.nil_append, List.cons_append] at hread ⊢
    split
    · simp at *
    · rename_i ht
      exact absurd (List.cons.inj (Option.some.inj ht)).1 hc
    · rename_i ht
      rw [← Option.some.inj ht, hread]
      rfl

theorem denotes_number (n : Number) : Denotes n.text (.ofNumber n) := by
  cases n with
  | natural n => exact .number (showsNumeral_ofNat false n.toNat)
  | negative n => exact .number (showsNumeral_ofNat true n.toNat)
  | real x =>
    rw [Number.text, Form.ofNumber]
    cases h : layout.text? x with
    | none =>
      rw [Form.ofReal, h]
      exact .null
    | some t =>
      obtain ⟨y, hy, ht⟩ := exists_number_ofReal h
      rw [hy]
      exact .number ht

def written (m : Text × Json) : WrittenMember := ⟨m.1, form m.2, stringText m.1, text m.2⟩

theorem memberTexts_eq_written (ms : List (Text × Json)) :
    memberTexts ms = (ms.map written).map WrittenMember.text := by
  simp [memberTexts_eq_map, memberText, written, WrittenMember.text]

theorem memberForms_eq_written (ms : List (Text × Json)) :
    memberForms ms = (ms.map written).map WrittenMember.member := by
  simp [memberForms_eq_map, written, WrittenMember.member]

theorem showsName_stringText (s : Text) : ShowsName (stringText s) s := by
  have h := ShowsName.intro isSpaces_nil (quotes_escaped s) isSpaces_nil
  exact h

/-- A text denotes the value that it was printed from. -/
theorem denotes_text (v : Json) : Denotes (text v) v.form := by
  induction v using structural_induction with
  | null => exact .null
  | bool b =>
    cases b with
    | false => exact .false
    | true => exact .true
  | number n => exact denotes_number n
  | string s => exact .string (quotes_escaped s)
  | array vs ih =>
    have h := @Denotes.array (vs.map fun v => (text v, form v)) (List.forall_mem_map.mpr ih)
    rw [form, itemForms_eq_map, text, itemTexts_eq_map]
    simpa [Function.comp_def] using h
  | object ms ih =>
    rw [form, memberForms_eq_written, text, memberTexts_eq_written]
    apply Denotes.object
    · exact List.forall_mem_map.mpr fun m _ => showsName_stringText m.1
    · exact List.forall_mem_map.mpr ih

end Form

end CacheHost.Json
