import CacheHost.Proofs.NbdDump.LastAssignment

namespace CacheHost.NbdDump
open Text

/-- What stands behind the equals sign, and what is left of it without the blanks and the one quote
that may open it. -/
inductive Opened : Text → Text → Prop
  | quote {gap r : Text} (hg : IsGap gap) : Opened (gap ++ '"' :: r) r
  | bare {gap r : Text} (hg : IsGap gap) (hr : ∀ c ∈ r.head?, isBlank c = false ∧ c ≠ '"') :
    Opened (gap ++ r) r

/-- What is left, and the value in it: what stands before the first quote, or before the blanks at
the end if there is no quote. -/
inductive Closed : Text → Text → Prop
  | quote {v rest : Text} (hv : '"' ∉ v) : Closed (v ++ '"' :: rest) v
  | bare {v gap : Text} (hv : '"' ∉ v) (hl : ∀ c ∈ v.getLast?, isBlank c = false)
    (hg : IsGap gap) : Closed (v ++ gap) v

structure Spelling where
  lead : Text
  field : Field
  digits : Text
  gap : Text
  tail : Text
  remainder : Text
  value : Text
  lead_isGap : IsGap lead
  digits_ne_nil : digits ≠ []
  digits_isDigit : ∀ c ∈ digits, c.isDigit = true
  index_lt : Nat.ofDigitChars 10 digits 0 < UInt64.size
  gap_isGap : IsGap gap
  tail_opened : Opened tail remainder
  remainder_closed : Closed remainder value
  value_ne_nil : value ≠ []

namespace Spelling

def line (s : Spelling) : Text :=
  s.lead ++ (s.field.keyword ++ '[' :: (s.digits ++ ']' :: (s.gap ++ '=' :: s.tail)))

def assignment (s : Spelling) : Assignment :=
  ⟨s.field, Nat.ofDigitChars 10 s.digits 0, s.value⟩

end Spelling

theorem quote_notMem_of_isGap {g : Text} (h : IsGap g) : '"' ∉ g := by
  intro hq
  exact absurd (h '"' hq) (by decide)

theorem remainder_eq_iff {rest r : Text} : remainder rest = r ↔ Opened rest r := by
  constructor
  · rintro rfl
    obtain ⟨g, hg, hs⟩ := exists_eq_append_trimStart rest
    have hhead : ∀ c ∈ (trimStart rest).head?, isBlank c = false := head?_dropWhile rest
    unfold remainder
    cases ht : trimStart rest with
    | nil =>
      rw [ht] at hs
      rw [hs]
      exact .bare hg (by simp)
    | cons c s =>
      rw [ht] at hs hhead
      rw [hs]
      by_cases hc : c = '"'
      · subst hc
        exact .quote hg
      · have hnone : after? ['"'] (c :: s) = none := by simp [after?, Ne.symm hc]
        rw [hnone]
        refine .bare hg fun d hd => ⟨hhead d hd, ?_⟩
        exact Option.some.inj hd ▸ hc
  · intro h
    cases h with
    | quote hg =>
      have ht := trimStart_append (s := '"' :: r) hg (by simp; decide)
      rw [remainder, ht]
      rfl
    | @bare gap _ hg hr =>
      have ht := trimStart_append (s := r) hg fun c hc => (hr c hc).1
      rw [remainder, ht]
      cases r with
      | nil => rfl
      | cons c s =>
        have hc : '"' ≠ c := (hr c rfl).2.symm
        simp [after?, hc]

theorem closed_eq_iff {r v : Text} : closed r = v ↔ Closed r v := by
  constructor
  · rintro rfl
    unfold closed
    split
    · rename_i hq
      -- the quote itself heads what is not taken
      have hne : r.dropWhile (· != '"') ≠ [] := by
        intro hd
        have hall := List.dropWhile_eq_nil_iff.mp hd '"' hq
        simp at hall
      obtain ⟨c, rest, hd⟩ := List.exists_cons_of_ne_nil hne
      have hr := eq_takeWhile_append_of_dropWhile hd
      have hv : '"' ∉ r.takeWhile (· != '"') := fun h => by
        simpa using List.mem_takeWhile_imp h
      have hclosed : Closed (r.takeWhile (· != '"') ++ '"' :: rest) _ := .quote hv
      rwa [← hr] at hclosed
    · rename_i hq
      obtain ⟨g, hg, hr⟩ := exists_eq_trimEnd_append r
      have hv : '"' ∉ trimEnd r := fun h => hq (trimEnd_subset r h)
      have hclosed := Closed.bare hv (getLast?_trimEnd r) hg
      rwa [← hr] at hclosed
  · intro h
    cases h with
    | @quote _ rest hv =>
      have hmem : '"' ∈ v ++ '"' :: rest := by simp
      rw [closed, if_pos hmem]
      apply takeWhile_append_of_head
      · intro c hc
        simpa using fun he : c = '"' => hv (he ▸ hc)
      · simp
    | @bare _ gap hv hl hg =>
      have hmem : '"' ∉ v ++ gap := by
        simpa using ⟨hv, quote_notMem_of_isGap hg⟩
      rw [closed, if_neg hmem]
      exact trimEnd_append hg hl

theorem keyword_append_inj {f g : Field} {r r' : Text} (h : f.keyword ++ r = g.keyword ++ r') :
    f = g := by
  have htake : ∀ (f : Field) (r : Text), (f.keyword ++ r).take 5 = f.keyword.take 5 := by
    intro f r
    apply List.take_append_of_le_length
    cases f <;> decide
  have h5 := congrArg (List.take 5) h
  rw [htake, htake] at h5
  revert h5
  cases f <;> cases g <;> decide

/-- At most one of the three keywords starts a line. -/
theorem assignment?_of_assignmentTo? {f : Field} {line : Text} {a : Assignment}
    (h : assignmentTo? f (trimStart line) = some a) : assignment? line = some a := by
  have hother : ∀ g, g ≠ f → assignmentTo? g (trimStart line) = none := by
    intro g hg
    obtain ⟨rest, -, -, -, hf, -⟩ := assignmentTo?_eq_some_iff.mp h
    have hnone : after? g.keyword (trimStart line) = none := by
      cases hr : after? g.keyword (trimStart line) with
      | none => rfl
      | some r =>
        rw [after?_eq_some_iff] at hf hr
        exact absurd (keyword_append_inj (hr.symm.trans hf)) hg
    rw [assignmentTo?, hnone]
    rfl
  cases f with
  | device => simp [assignment?, h]
  | name => simp [assignment?, h, hother .device]
  | host => simp [assignment?, h, hother .device, hother .name]

theorem head?_keyword (f : Field) (rest : Text) : (f.keyword ++ rest).head? = some 'N' := by
  cases f <;> rfl

theorem trimStart_eq_keyword_iff {line rest : Text} {f : Field} :
    trimStart line = f.keyword ++ rest ↔ ∃ g, IsGap g ∧ line = g ++ (f.keyword ++ rest) := by
  constructor
  · intro h
    obtain ⟨g, hg, hs⟩ := exists_eq_append_trimStart line
    exact ⟨g, hg, h ▸ hs⟩
  · rintro ⟨g, hg, rfl⟩
    apply trimStart_append hg
    rw [head?_keyword]
    exact fun c hc => Option.some.inj hc ▸ rfl

/-- A line assigns what one of its spellings says, if it has one. -/
theorem assignment?_eq_some_iff {line : Text} {a : Assignment} :
    assignment? line = some a ↔ ∃ s : Spelling, s.line = line ∧ s.assignment = a := by
  constructor
  · intro h
    obtain ⟨f, -, hf⟩ := List.exists_of_findSome?_eq_some h
    obtain ⟨rest, n, tail, value, hr, hi, hv, rfl⟩ := assignmentTo?_eq_some_iff.mp hf
    obtain ⟨lead, hlead, hline⟩ := trimStart_eq_keyword_iff.mp (after?_eq_some_iff.mp hr)
    obtain ⟨digits, hne, hdig, hlt, hn, rfl⟩ := index?_eq_some_iff.mp hi
    obtain ⟨after, hequals, hclosed, hvne⟩ := value?_eq_some_iff.mp hv
    obtain ⟨gap, hgap, htail⟩ := exists_eq_append_trimStart tail
    refine ⟨{
      lead := lead, field := f, digits := digits, gap := gap, tail := after
      remainder := remainder after, value := value
      lead_isGap := hlead
      digits_ne_nil := hne
      digits_isDigit := hdig
      index_lt := hn ▸ hlt
      gap_isGap := hgap
      tail_opened := remainder_eq_iff.mp rfl
      remainder_closed := closed_eq_iff.mp hclosed
      value_ne_nil := hvne }, ?_, ?_⟩
    · rw [Spelling.line, ← hequals, ← htail, hline]
    · show (⟨f, Nat.ofDigitChars 10 digits 0, value⟩ : Assignment) = _
      rw [hn]
  · rintro ⟨s, rfl, rfl⟩
    apply assignment?_of_assignmentTo? (f := s.field)
    have hequals := trimStart_append (s := '=' :: s.tail) s.gap_isGap (by simp; decide)
    refine assignmentTo?_eq_some_iff.mpr ⟨_, _, _, s.value, after?_eq_some_iff.mpr
      (trimStart_eq_keyword_iff.mpr ⟨s.lead, s.lead_isGap, rfl⟩), index?_eq_some_iff.mpr
      ⟨s.digits, s.digits_ne_nil, s.digits_isDigit, s.index_lt, rfl, rfl⟩,
      value?_eq_some_iff.mpr ⟨s.tail, hequals, ?_, s.value_ne_nil⟩, rfl⟩
    rw [remainder_eq_iff.mpr s.tail_opened]
    exact closed_eq_iff.mpr s.remainder_closed

def Assignment.entry (a : Assignment) : Nat × NbdEntry :=
  (a.index, ({} : NbdEntry).set a.value a.field)

theorem Assignment.entry_inj {a b : Assignment} (h : a.entry = b.entry) : a = b := by
  obtain ⟨f, n, v⟩ := a
  obtain ⟨g, m, w⟩ := b
  obtain ⟨rfl, he⟩ := Prod.mk.inj h
  cases f <;> cases g <;> simp_all [NbdEntry.set]

theorem entries_parse_line {line : Text} (h : '\n' ∉ line) :
    (parse line).entries = ((assignment? line).map Assignment.entry).toList := by
  have has : assignments line = (assignment? line).toList := by
    by_cases hl : line = []
    · rw [hl]
      rfl
    · rw [assignments, lines_of_newline_notMem hl h]
      cases ha : assignment? line <;> simp [ha]
  rw [parse, has]
  cases assignment? line <;> rfl

/-- A value between quotes, with padding and with zeros in front of the index. -/
def quotedLine (a : Assignment) (lead gap gap' rest : Text) (zeros : Nat) : Text :=
  lead ++ a.field.keyword ++ ['['] ++ List.replicate zeros '0' ++ Text.ofNat a.index ++ [']'] ++
    gap ++ ['='] ++ gap' ++ ['"'] ++ a.value ++ ['"'] ++ rest

theorem exists_spelling_quotedLine {a : Assignment} {lead gap gap' : Text} (rest : Text)
    (zeros : Nat) (hi : a.index < UInt64.size) (hne : a.value ≠ []) (hq : '"' ∉ a.value)
    (hl : IsGap lead) (hg : IsGap gap) (hg' : IsGap gap') :
    ∃ s : Spelling, s.line = quotedLine a lead gap gap' rest zeros ∧ s.assignment = a := by
  have hn : Nat.ofDigitChars 10 (List.replicate zeros '0' ++ Text.ofNat a.index) 0 = a.index := by
    rw [Nat.ofDigitChars_append, Nat.ofDigitChars_replicate_zero]
    exact Nat.ofDigitChars_ten_toDigits
  refine ⟨{
    lead := lead, field := a.field, digits := List.replicate zeros '0' ++ Text.ofNat a.index
    gap := gap, tail := gap' ++ '"' :: (a.value ++ '"' :: rest)
    remainder := a.value ++ '"' :: rest, value := a.value
    lead_isGap := hl
    digits_ne_nil := List.append_ne_nil_of_right_ne_nil _ Nat.toDigits_ne_nil
    digits_isDigit := ?_
    index_lt := hn.symm ▸ hi
    gap_isGap := hg
    tail_opened := .quote hg'
    remainder_closed := .quote hq
    value_ne_nil := hne }, ?_, ?_⟩
  · intro c hc
    rcases List.mem_append.mp hc with hc | hc
    · exact List.eq_of_mem_replicate hc ▸ rfl
    · exact Nat.isDigit_of_mem_toDigits (by decide) (by decide) hc
  · simp [Spelling.line, quotedLine]
  · show (⟨a.field, Nat.ofDigitChars 10 _ 0, a.value⟩ : Assignment) = a
    rw [hn]

/-- A single line gives one entry, with one field, exactly if it is spelled as the assignment to
this field, and no entry otherwise. In particular a value that is written between quotes is read
back as it is, whatever stands behind it. -/
theorem parse_line_accepts_exactly :
    (∀ line, '\n' ∉ line →
      (∀ a : Assignment, (parse line).entries = [a.entry] ↔
        ∃ s : Spelling, s.line = line ∧ s.assignment = a) ∧
      ((parse line).entries = [] ↔ ∀ s : Spelling, s.line ≠ line)) ∧
    (∀ (a : Assignment) (lead gap gap' rest : Text) (zeros : Nat),
      a.index < UInt64.size → a.value ≠ [] → '"' ∉ a.value →
      IsGap lead → IsGap gap → IsGap gap' → '\n' ∉ quotedLine a lead gap gap' rest zeros →
      (parse (quotedLine a lead gap gap' rest zeros)).entries = [a.entry]) := by
  have hone : ∀ line, '\n' ∉ line → ∀ a : Assignment, (parse line).entries = [a.entry] ↔
      ∃ s : Spelling, s.line = line ∧ s.assignment = a := by
    intro line h a
    rw [entries_parse_line h, ← assignment?_eq_some_iff]
    cases assignment? line with
    | none => simp
    | some b =>
      constructor
      · intro he
        exact congrArg some (Assignment.entry_inj (List.singleton_inj.mp he))
      · intro hb
        rw [Option.some.inj hb]
        rfl
  refine ⟨fun line h => ⟨hone line h, ?_⟩, ?_⟩
  · rw [entries_parse_line h]
    constructor
    · rintro he s rfl
      rw [assignment?_eq_some_iff.mpr ⟨s, rfl, rfl⟩] at he
      simp at he
    · intro hs
      cases ha : assignment? line with
      | none => rfl
      | some a =>
        obtain ⟨s, hline, -⟩ := assignment?_eq_some_iff.mp ha
        exact absurd hline (hs s)
  · intro a lead gap gap' rest zeros hi hne hq hl hg hg' hn
    exact (hone _ hn a).mpr (exists_spelling_quotedLine rest zeros hi hne hq hl hg hg')

/-- The largest index, with zeros in front, and a bare value that a quote ends. -/
def sampleSpelling : Spelling where
  lead := ['\u3000']
  field := .device
  digits := "0018446744073709551615".toList
  gap := ['\t']
  tail := " /dev/x \"y".toList
  remainder := "/dev/x \"y".toList
  value := "/dev/x ".toList
  lead_isGap := by decide
  digits_ne_nil := by decide
  digits_isDigit := List.all_eq_true.mp (by decide)
  index_lt := by decide
  gap_isGap := by decide
  tail_opened := @Opened.bare [' '] _ (by decide) fun _ hc => Option.some.inj hc ▸ by decide
  remainder_closed := @Closed.quote "/dev/x ".toList ['y'] (by decide)
  value_ne_nil := by decide

def sampleName : Assignment := ⟨.name, 7, " a\t".toList⟩

theorem parse_line_sampleSpelling :
    ('\n' ∉ sampleSpelling.line ∧ (parse sampleSpelling.line).entries =
      [(18446744073709551615, ⟨some "/dev/x ".toList, none, none⟩)]) ∧
    (sampleName.index < UInt64.size ∧ sampleName.value ≠ [] ∧ '"' ∉ sampleName.value ∧
      IsGap [' '] ∧ '\n' ∉ quotedLine sampleName [] [' '] [] "# \"b".toList 2 ∧
      quotedLine sampleName [] [' '] [] "# \"b".toList 2 = "NBD_NAME[007] =\" a\t\"# \"b".toList ∧
      (parse (quotedLine sampleName [] [' '] [] "# \"b".toList 2)).entries =
        [(7, ⟨none, some " a\t".toList, none⟩)]) := by
  have hn : '\n' ∉ sampleSpelling.line := by decide
  have hq : '\n' ∉ quotedLine sampleName [] [' '] [] "# \"b".toList 2 := by decide
  refine ⟨⟨hn, ?_⟩, by decide, by decide, by decide, by decide, hq, by decide, ?_⟩
  · exact ((parse_line_accepts_exactly.1 _ hn).1 sampleSpelling.assignment).mpr
      ⟨sampleSpelling, rfl, rfl⟩
  · exact parse_line_accepts_exactly.2 sampleName [] [' '] [] _ 2 (by decide) (by decide)
      (by decide) (by decide) (by decide) (by decide) hq

end CacheHost.NbdDump
