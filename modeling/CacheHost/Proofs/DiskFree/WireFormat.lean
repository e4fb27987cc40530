import CacheHost.Proofs.Json.Printing
import CacheHost.Proofs.Snapshot.Parts

namespace CacheHost

namespace Json

def valuesOf {α : Type} (name : Text) (ms : List (Text × α)) : List α :=
  (ms.filter fun m => m.1 = name).map (·.2)

/-- A name occurs once, with an integer. -/
def Form.HasNatural (ms : List (Text × Form)) (name : Text) (n : UInt64) : Prop :=
  ∃ v, valuesOf name ms = [v] ∧ v.IsNatural n

theorem toNatural_eq_ok_iff {v : Form} {n : UInt64} :
    v.value.toNatural = .ok n ↔ v.IsNatural n := by
  rw [← Form.natural?_value, toNatural]
  cases v.value.natural? <;> simp [fit]

theorem need_eq_ok_iff {α : Type} {name : Text} {o : Option α} {x : α} :
    need name o = .ok x ↔ o = some x := by
  cases o <;> simp [need]

theorem valuesOf_cons_self {α : Type} (name : Text) (v : α) (ms : List (Text × α)) :
    valuesOf name ((name, v) :: ms) = v :: valuesOf name ms := by
  simp [valuesOf]

theorem valuesOf_cons_of_ne {α : Type} {name other : Text} (h : other ≠ name) (v : α)
    (ms : List (Text × α)) : valuesOf name ((other, v) :: ms) = valuesOf name ms := by
  simp [valuesOf, h]

theorem valuesOf_map {α β : Type} (f : α → β) (name : Text) (ms : List (Text × α)) :
    valuesOf name (ms.map fun m => (m.1, f m.2)) = (valuesOf name ms).map f := by
  simp [valuesOf, List.filter_map, Function.comp_def]

/-- A field is given by all values of its name in turn. -/
def setAll (name : Text) (o : Option UInt64) (vs : List Json) : Except Misfit (Option UInt64) :=
  vs.foldlM (fun o v => setField name o v.toNatural) o

theorem setAll_cons (name : Text) (o : Option UInt64) (v : Json) (vs : List Json) :
    setAll name o (v :: vs) = setField name o v.toNatural >>= fun o => setAll name o vs :=
  List.foldlM_cons

/-- A second value is one too many. -/
theorem setAll_eq_ok_iff {name : Text} {vs : List Form} {n : UInt64} :
    setAll name none (vs.map Form.value) = .ok (some n) ↔ ∃ v, vs = [v] ∧ v.IsNatural n := by
  cases vs with
  | nil => simp [setAll, pure, Except.pure]
  | cons v vs =>
    rw [List.map_cons, setAll_cons, bind_eq_ok_iff]
    simp only [setField, map_eq_ok_iff, toNatural_eq_ok_iff]
    cases vs with
    | nil =>
      constructor
      · rintro ⟨o, ⟨m, hm, rfl⟩, ho⟩
        obtain rfl := Option.some.inj (Except.ok.inj ho)
        exact ⟨v, rfl, hm⟩
      · rintro ⟨w, hw, hn⟩
        obtain rfl := (List.cons.inj hw).1
        exact ⟨some n, ⟨n, hn, rfl⟩, rfl⟩
    | cons w vs =>
      simp only [List.map_cons, setAll_cons, bind_eq_ok_iff]
      constructor
      · rintro ⟨o, ⟨m, -, rfl⟩, o', ho', -⟩
        simp [setField] at ho'
      · rintro ⟨u, hu, -⟩
        simp at hu

end Json

namespace DiskUsage
open Json

/-- What the members give to a field does not depend on the members of other names. -/
theorem Draft.foldlM_add_eq_ok_iff {ms : List (Text × Json)} {d e : Draft} :
    ms.foldlM add d = .ok e ↔
      setAll "size".toList d.size (valuesOf "size".toList ms) = .ok e.size ∧
      setAll "used".toList d.used (valuesOf "used".toList ms) = .ok e.used ∧
      setAll "avail".toList d.avail (valuesOf "avail".toList ms) = .ok e.avail := by
  induction ms generalizing d with
  | nil =>
    obtain ⟨size, used, avail⟩ := d
    obtain ⟨size', used', avail'⟩ := e
    simp [setAll, valuesOf, pure, Except.pure]
  | cons m ms ih =>
    obtain ⟨name, v⟩ := m
    rw [List.foldlM_cons]
    -- a name is that of one field or of none, and the values of the other fields stay
    by_cases hs : name = "size".toList
    · subst hs
      rw [valuesOf_cons_self, valuesOf_cons_of_ne (by decide), valuesOf_cons_of_ne (by decide),
        setAll_cons]
      show (setField _ d.size v.toNatural >>= fun o => .ok { d with size := o }) >>= _ = _ ↔ _
      cases setField "size".toList d.size v.toNatural with
      | error m => simp [bind, Except.bind]
      | ok o => exact ih
    by_cases hu : name = "used".toList
    · subst hu
      rw [valuesOf_cons_self, valuesOf_cons_of_ne (by decide), valuesOf_cons_of_ne (by decide),
        setAll_cons]
      show (setField _ d.used v.toNatural >>= fun o => .ok { d with used := o }) >>= _ = _ ↔ _
      cases setField "used".toList d.used v.toNatural with
      | error m => simp [bind, Except.bind]
      | ok o => exact ih
    by_cases ha : name = "avail".toList
    · subst ha
      rw [valuesOf_cons_self, valuesOf_cons_of_ne (by decide), valuesOf_cons_of_ne (by decide),
        setAll_cons]
      show (setField _ d.avail v.toNatural >>= fun o => .ok { d with avail := o }) >>= _ = _ ↔ _
      cases setField "avail".toList d.avail v.toNatural with
      | error m => simp [bind, Except.bind]
      | ok o => exact ih
    · rw [valuesOf_cons_of_ne hs, valuesOf_cons_of_ne hu, valuesOf_cons_of_ne ha]
      have hadd : d.add (name, v) = .ok d := by rw [add, if_neg hs, if_neg hu, if_neg ha]
      rw [hadd, ok_bind]
      exact ih

/-- How a usage is written: by the names of the sizes, each of them once and among any others, or as
the array of the sizes. -/
inductive IsWritten (u : DiskUsage) : Form → Prop
  | object {ms : List (Text × Form)} (hs : Form.HasNatural ms "size".toList u.size)
    (hu : Form.HasNatural ms "used".toList u.used)
    (ha : Form.HasNatural ms "avail".toList u.avail) : IsWritten u (.object ms)
  | array {size used avail : Form} (hs : size.IsNatural u.size) (hu : used.IsNatural u.used)
    (ha : avail.IsNatural u.avail) : IsWritten u (.array [size, used, avail])

theorem ofJson_object_eq_ok_iff {ms : List (Text × Form)} {u : DiskUsage} :
    ofJson (Form.object ms).value = .ok u ↔ u.IsWritten (.object ms) := by
  have hfield : ∀ {name : Text} {n : UInt64},
      setAll name none (valuesOf name (ms.map fun m => (m.1, m.2.value))) = .ok (some n) ↔
        Form.HasNatural ms name n := by
    intro name n
    rw [valuesOf_map, setAll_eq_ok_iff]
    rfl
  rw [Form.value_object]
  simp only [ofJson, bind_eq_ok_iff, need_eq_ok_iff, Draft.foldlM_add_eq_ok_iff]
  constructor
  · rintro ⟨⟨size, used, avail⟩, ⟨hs, hu, ha⟩, _, rfl, _, rfl, _, rfl, he⟩
    obtain rfl := Except.ok.inj he
    exact .object (hfield.mp hs) (hfield.mp hu) (hfield.mp ha)
  · rintro ⟨hs, hu, ha⟩
    exact ⟨⟨some u.size, some u.used, some u.avail⟩,
      ⟨hfield.mpr hs, hfield.mpr hu, hfield.mpr ha⟩, _, rfl, _, rfl, _, rfl, rfl⟩

theorem ofJson_array_eq_ok_iff {vs : List Form} {u : DiskUsage} :
    ofJson (Form.array vs).value = .ok u ↔ u.IsWritten (.array vs) := by
  rw [Form.value_array]
  match vs with
  | [size, used, avail] =>
    show (size.value.toNatural >>= fun s => used.value.toNatural >>= fun t =>
      avail.value.toNatural >>= fun a => .ok ⟨s, t, a⟩) = .ok u ↔ _
    simp only [bind_eq_ok_iff, toNatural_eq_ok_iff]
    constructor
    · rintro ⟨s, hs, t, hu, a, ha, he⟩
      obtain rfl := Except.ok.inj he
      exact .array hs hu ha
    · intro h
      cases h with
      | array hs hu ha => exact ⟨_, hs, _, hu, _, ha, rfl⟩
  | [] | [_] | [_, _] | _ :: _ :: _ :: _ :: _ => exact ⟨nofun, nofun⟩

theorem ofJson_eq_ok_iff {v : Form} {u : DiskUsage} : ofJson v.value = .ok u ↔ u.IsWritten v := by
  cases v with
  | object ms => exact ofJson_object_eq_ok_iff
  | array vs => exact ofJson_array_eq_ok_iff
  | number x =>
    rw [Form.value]
    cases x.value? <;> constructor <;> intro h <;> cases h
  | _ => constructor <;> intro h <;> cases h

end DiskUsage

namespace DiskFree
open Json

/-- An integer is no usage. -/
theorem ofJson_of_isNatural {v : Form} {n : UInt64} (h : v.IsNatural n) :
    ofJson v.value = if n = 0 then .ok .unresolved else .error (.notUsage n) := by
  rw [natural?_eq_some_iff.mp (Form.natural?_value.mpr h)]
  rfl

theorem ofJson_eq_unresolved_iff {v : Form} :
    ofJson v.value = .ok .unresolved ↔ v.IsNatural 0 := by
  constructor
  · intro h
    unfold ofJson at h
    split at h
    · simp at h
    · split at h
      · rename_i n hn
        split at h
        · rename_i hzero
          rw [← hzero]
          exact Form.natural?_value.mp hn
        · simp at h
      · simp at h
  · intro h
    rw [ofJson_of_isNatural h, if_pos rfl]

theorem ofJson_eq_usage_iff {v : Form} {u : DiskUsage} :
    ofJson v.value = .ok (.usage u) ↔ u.IsWritten v := by
  rw [← DiskUsage.ofJson_eq_ok_iff]
  unfold ofJson
  split
  · rename_i w hw
    simp [hw]
  · rename_i m hm
    rw [hm]
    constructor
    · intro h
      split at h
      · split at h <;> simp at h
      · simp at h
    · simp

theorem decode_of_denotes {s : Text} {v : Form} (hs : Denotes s v) (hv : v.Fits maxDepth) :
    decode s = (ofJson v.value).mapError .misfit := by
  obtain ⟨left, hread, hend⟩ := readValue_of_denotes hs hv
  rw [decode, read, hread, ok_bind]
  cases hj : ofJson v.value with
  | error m =>
    simp only [hj]
    rfl
  | ok d =>
    simp only [hj, ok_bind, hend]
    rfl

theorem decode_eq_ok_iff {s : Text} {v : Form} (hs : Denotes s v) (hv : v.Fits maxDepth)
    {d : DiskFree} : decode s = .ok d ↔ ofJson v.value = .ok d := by
  rw [decode_of_denotes hs hv]
  cases ofJson v.value <;> simp [Except.mapError]

theorem gives_of_decode {s : Text} {d : DiskFree} (h : decode s = .ok d) :
    ∃ j, Gives maxDepth s j := by
  obtain ⟨⟨d', r⟩, hread, h⟩ := bind_eq_ok_iff.mp h
  obtain ⟨⟨j, r'⟩, hj, hd⟩ := bind_eq_ok_iff.mp hread
  obtain ⟨_, hend, -⟩ := bind_eq_ok_iff.mp h
  simp only at hd
  split at hd
  · obtain ⟨rfl, rfl⟩ := Prod.mk.inj (Except.ok.inj hd)
    exact ⟨j, gives_iff.mpr ⟨r', hj, hend⟩⟩
  · simp at hd

theorem decode_of_encode (d : DiskFree) : decode d.encode = .ok d := by
  have h : read maxDepth (d.toJson.text ++ []) = .ok (d, []) :=
    (d.reads (maxDepth - 1)).read [] (by simp [EndsNumber])
  rw [List.append_nil] at h
  rw [decode, encode, h]
  rfl

/-- Only JSON is accepted. A value decodes to an unresolved path exactly if it is the integer 0, to
a usage exactly if it is how this usage is written, and no other value is accepted; another integer
is refused by the message that tells it. What is accepted is accepted again when it is written
anew. -/
theorem decode_accepts_exactly :
    (∀ s d, decode s = .ok d → ∃ v, Denotes s v ∧ v.Fits maxDepth) ∧
    (∀ s v, Denotes s v → v.Fits maxDepth →
      (decode s = .ok .unresolved ↔ v.IsNatural 0) ∧
      (∀ u, decode s = .ok (.usage u) ↔ u.IsWritten v) ∧
      ((∃ e, decode s = .error e) ↔ ¬v.IsNatural 0 ∧ ∀ u : DiskUsage, ¬u.IsWritten v) ∧
      ∀ n, 0 < n → v.IsNatural n → ∃ e, decode s = .error e ∧
        e.message? = some ("expected usage object or 0, got ".toList ++ Text.ofNat n.toNat)) ∧
    (∀ s d, decode s = .ok d → decode d.encode = .ok d) := by
  refine ⟨?_, ?_, ?_⟩
  · intro s d h
    obtain ⟨j, v, hs, hv, -⟩ := gives_of_decode h
    exact ⟨v, hs, hv⟩
  · intro s v hs hv
    have hunresolved : decode s = .ok .unresolved ↔ v.IsNatural 0 :=
      (decode_eq_ok_iff hs hv).trans ofJson_eq_unresolved_iff
    have husage : ∀ u, decode s = .ok (.usage u) ↔ u.IsWritten v := fun u =>
      (decode_eq_ok_iff hs hv).trans ofJson_eq_usage_iff
    refine ⟨hunresolved, husage, ?_, ?_⟩
    · simp only [← hunresolved, ← husage]
      rcases decode s with e | d
      · simp
      · cases d <;> simp
    · intro n h0 hn
      have hne : n ≠ 0 := by
        rintro rfl
        exact absurd h0 (by decide)
      refine ⟨.misfit (.notUsage n), ?_, rfl⟩
      rw [decode_of_denotes hs hv, ofJson_of_isNatural hn, if_neg hne]
      rfl
  · intro s d _
    exact decode_of_encode d

/-- The sizes in another order, with a name that is escaped in part and a member of another name. -/
def sampleMembers : List WrittenMember :=
  [⟨"used".toList, .ofNatural 0, stringText "used".toList, Text.ofNat 0⟩,
    ⟨"size".toList, .ofNatural 18446744073709551615,
      [' '] ++ '"' ::
        ('\\' :: 'u' :: ("0073".toList ++ "ize".toList.flatMap escapedChar) ++ '"' :: ['\t']),
      ['\n'] ++ (Text.ofNat (18446744073709551615 : UInt64).toNat ++ [])⟩,
    ⟨"x".toList, .array [.null, .number ⟨true, ['1'], some ['5'], some (false, ['3'])⟩],
      stringText "x".toList, '[' :: ([','].intercalate ["null".toList, "-1.5e+3".toList] ++ [']'])⟩,
    ⟨"avail".toList, .ofNatural 7, stringText "avail".toList, Text.ofNat 7⟩]

def sampleText : Text :=
  '\x7b' :: ([','].intercalate (sampleMembers.map WrittenMember.text) ++ ['\x7d'])

def sampleForm : Form := .object (sampleMembers.map WrittenMember.member)

theorem denotes_ofNatural (n : UInt64) : Denotes (Text.ofNat n.toNat) (.ofNatural n) :=
  .number (showsNumeral_ofNat false n.toNat)

theorem denotes_sampleText : Denotes sampleText sampleForm := by
  apply Denotes.object
  · simp only [sampleMembers, List.forall_mem_cons]
    have hcode : IsCode "0073".toList 's'.toNat :=
      ⟨[('0', 0), ('0', 0), ('7', 7), ('3', 3)], rfl, by decide, rfl, rfl⟩
    exact ⟨showsName_stringText _,
      .intro (by decide) (.code hcode (quotes_escaped "ize".toList)) (by decide),
      showsName_stringText _, showsName_stringText _, by simp⟩
  · simp only [sampleMembers, List.forall_mem_cons]
    refine ⟨denotes_ofNatural 0, .padded (by decide) (denotes_ofNatural _) isSpaces_nil, ?_,
      denotes_ofNatural 7, by simp⟩
    have hreal :
        Denotes "-1.5e+3".toList (.number ⟨true, ['1'], some ['5'], some (false, ['3'])⟩) :=
      .number (@ShowsNumeral.intro true ['1'] ".5".toList "e+3".toList _ _ (by decide) (by decide)
        (.some (by decide)) (.plus (by decide) (by decide)))
    exact @Denotes.array [("null".toList, .null), ("-1.5e+3".toList, _)]
      (by simpa using ⟨.null, hreal⟩)

theorem fits_ofNatural (d : Nat) (n : UInt64) : (Form.ofNatural n).Fits d := by
  apply Form.Fits.number
  rw [Numeral.value?_eq_natural_iff.mpr ⟨rfl, rfl, rfl, Nat.ofDigitChars_ten_toDigits⟩]
  exact Option.some_ne_none _

theorem fits_sampleForm : sampleForm.Fits maxDepth := by
  apply Form.Fits.object
  simp only [sampleMembers, List.map_cons, List.forall_mem_cons, WrittenMember.member]
  refine ⟨fits_ofNatural _ 0, fits_ofNatural _ _, ?_, fits_ofNatural _ 7, by simp⟩
  apply Form.Fits.array
  simp only [List.forall_mem_cons]
  refine ⟨.null, .number ?_, by simp⟩
  exact Option.isSome_iff_ne_none.mp (by decide +kernel)

theorem isWritten_sampleForm :
    (⟨18446744073709551615, 0, 7⟩ : DiskUsage).IsWritten sampleForm := by
  apply DiskUsage.IsWritten.object
  · exact ⟨_, rfl, isNatural_ofNatural _⟩
  · exact ⟨_, rfl, isNatural_ofNatural _⟩
  · exact ⟨_, rfl, isNatural_ofNatural _⟩

theorem decode_sampleText :
    (sampleText = ("\x7b\"used\":0, \"\\u0073ize\"\t:\n18446744073709551615," ++
        "\"x\":[null,-1.5e+3],\"avail\":7\x7d").toList ∧
      Denotes sampleText sampleForm ∧ sampleForm.Fits maxDepth ∧
      decode sampleText = .ok (.usage ⟨18446744073709551615, 0, 7⟩) ∧
      decode (DiskFree.usage ⟨18446744073709551615, 0, 7⟩).encode =
        .ok (.usage ⟨18446744073709551615, 0, 7⟩)) ∧
    (Denotes (Text.ofNat 7) (.ofNatural 7) ∧ (Form.ofNatural 7).Fits maxDepth ∧ 0 < (7 : UInt64) ∧
      (Form.ofNatural 7).IsNatural 7 ∧ ∃ e, decode (Text.ofNat 7) = .error e ∧
        e.message? = some "expected usage object or 0, got 7".toList) := by
  have husage := ((decode_accepts_exactly.2.1 _ _ denotes_sampleText fits_sampleForm).2.1 _).mpr
    isWritten_sampleForm
  have hseven := (decode_accepts_exactly.2.1 (Text.ofNat 7) (.ofNatural 7) (denotes_ofNatural 7)
    (fits_ofNatural _ 7)).2.2.2 7 (by decide) (isNatural_ofNatural 7)
  refine ⟨⟨by decide, denotes_sampleText, fits_sampleForm, husage, ?_⟩, denotes_ofNatural 7,
    fits_ofNatural _ 7, by decide, isNatural_ofNatural 7, hseven⟩
  exact decode_accepts_exactly.2.2 sampleText _ husage

end DiskFree

end CacheHost
