import CacheHost.BlockConfig
import CacheHost.Proofs.Text.Blank

namespace CacheHost.BlockConfig

def IsComment (s : Text) : Prop := s.head? = some '#' ∨ s.head? = some ';'

/-- `[device]` and whatever follows, or `[device` up to the end of the line. -/
def IsHeader (device s : Text) : Prop :=
  device ≠ [] ∧ ']' ∉ device ∧
    ∃ rest, s = '[' :: (device ++ rest) ∧ ∀ c ∈ rest.head?, c = ']'

/-- The keyword, a blank, and something that has this value when it is trimmed. -/
def IsDirective (keyword value s : Text) : Prop :=
  value ≠ [] ∧ ∃ c rest, s = keyword ++ c :: rest ∧ Text.isBlank c = true ∧ Text.trim rest = value

def IsFirstWord (word s : Text) : Prop :=
  Text.IsWord word ∧ ∃ rest, s = word ++ rest ∧ ∀ c ∈ rest.head?, Text.isBlank c = true

/-- Whether a line without its indentation says this. -/
def Line.Describes : Line → Text → Prop
  | .comment, s => IsComment s
  | .header device, s => IsHeader device s
  | .cachedir path, s => IsDirective "cachedir".toList path s
  | .listen address, s => ∃ value, IsDirective "listen".toList value s ∧ IsFirstWord address value
  | .other, s => ¬IsComment s ∧ (∀ d, ¬IsHeader d s) ∧ (∀ p, ¬IsDirective "cachedir".toList p s) ∧
      ∀ v, ¬IsDirective "listen".toList v s

theorem header?_eq_some_iff {s device : Text} : header? s = some device ↔ IsHeader device s := by
  constructor
  · intro h
    unfold header? at h
    split at h
    · rename_i rest
      simp only at h
      split at h
      · simp at h
      · rename_i hne
        obtain rfl := Option.some.inj h
        refine ⟨hne, fun hm => ?_, rest.dropWhile (· != ']'), ?_, ?_⟩
        · simpa using List.mem_takeWhile_imp hm
        · rw [List.takeWhile_append_dropWhile]
        · intro c hc
          simpa using Text.head?_dropWhile rest c hc
    · simp at h
  · rintro ⟨hne, hm, rest, rfl, hr⟩
    have ht : (device ++ rest).takeWhile (· != ']') = device := by
      apply Text.takeWhile_append_of_head
      · intro c hc
        simpa using ne_of_mem_of_not_mem hc hm
      · intro c hc
        simp [hr c hc]
    simp only [header?, ht, if_neg hne]

theorem directive?_eq_some_iff {keyword s value : Text} :
    directive? keyword s = some value ↔ IsDirective keyword value s := by
  have htrim : ∀ {c : Char} {rest : Text}, Text.isBlank c = true →
      Text.trim (c :: rest) = Text.trim rest := by
    intro c rest hc
    simp [Text.trim, Text.trimStart, hc]
  constructor
  · intro h
    unfold directive? at h
    split at h
    · rename_i c rest ha
      simp only at h
      split at h
      · rename_i hcv
        obtain rfl := Option.some.inj h
        simp only [ne_eq, Bool.and_eq_true, decide_eq_true_eq] at hcv
        exact ⟨hcv.2, c, rest, Text.after?_eq_some_iff.mp ha, hcv.1, (htrim hcv.1).symm⟩
      · simp at h
    · simp at h
  · rintro ⟨hne, c, rest, hs, hc, rfl⟩
    simp only [directive?, Text.after?_eq_some_iff.mpr hs, htrim hc, hc]
    simp [hne]

theorem isFirstWord_iff {value word : Text} (hv : ∀ c ∈ value.head?, Text.isBlank c = false)
    (hne : value ≠ []) : IsFirstWord word value ↔ Text.firstWord value = word := by
  constructor
  · rintro ⟨hw, rest, rfl, hr⟩
    apply Text.takeWhile_append_of_head
    · intro c hc
      simp [hw.2 c hc]
    · intro c hc
      simp [hr c hc]
  · rintro rfl
    refine ⟨⟨?_, fun c hc => ?_⟩, value.dropWhile (!Text.isBlank ·), ?_, fun c hc => ?_⟩
    · cases value with
      | nil => exact absurd rfl hne
      | cons c value => simp [Text.firstWord, hv c rfl]
    · simpa using List.mem_takeWhile_imp hc
    · exact List.takeWhile_append_dropWhile.symm
    · simpa using Text.head?_dropWhile value c hc

theorem IsDirective.head? {keyword value s : Text} {k : Char} (hk : keyword.head? = some k)
    (h : IsDirective keyword value s) : s.head? = some k := by
  obtain ⟨-, c, rest, rfl, -⟩ := h
  simp [List.head?_append, hk]

theorem IsHeader.head? {device s : Text} (h : IsHeader device s) : s.head? = some '[' := by
  obtain ⟨-, -, rest, rfl, -⟩ := h
  rfl

/-- No blank stands before the first word of a value, as a value is trimmed. -/
theorem IsDirective.isFirstWord_iff {keyword value s word : Text}
    (h : IsDirective keyword value s) : IsFirstWord word value ↔ Text.firstWord value = word := by
  obtain ⟨hne, c, rest, -, -, rfl⟩ := h
  exact BlockConfig.isFirstWord_iff (Text.isTrimmed_trim rest).1 hne

theorem header?_eq_none_iff {s : Text} : header? s = none ↔ ∀ d, ¬IsHeader d s := by
  rw [Option.eq_none_iff_forall_ne_some]
  exact forall_congr' fun _ => not_congr header?_eq_some_iff

theorem directive?_eq_none_iff {keyword s : Text} :
    directive? keyword s = none ↔ ∀ v, ¬IsDirective keyword v s := by
  rw [Option.eq_none_iff_forall_ne_some]
  exact forall_congr' fun _ => not_congr directive?_eq_some_iff

theorem describes_ofUnindented (s : Text) : (Line.ofUnindented s).Describes s := by
  unfold Line.ofUnindented
  split
  · rename_i hc
    exact hc
  rename_i hc
  split
  · rename_i device hd
    exact header?_eq_some_iff.mp hd
  rename_i hd
  split
  · rename_i path hp
    exact directive?_eq_some_iff.mp hp
  rename_i hp
  split
  · rename_i value hv
    have h := directive?_eq_some_iff.mp hv
    exact ⟨value, h, h.isFirstWord_iff.mpr rfl⟩
  rename_i hv
  have hd' := Option.eq_none_iff_forall_ne_some.mpr hd
  have hp' := Option.eq_none_iff_forall_ne_some.mpr hp
  have hv' := Option.eq_none_iff_forall_ne_some.mpr hv
  exact ⟨hc, header?_eq_none_iff.mp hd', directive?_eq_none_iff.mp hp',
    directive?_eq_none_iff.mp hv'⟩

theorem header?_eq_none {s : Text} (h : s.head? ≠ some '[') : header? s = none :=
  header?_eq_none_iff.mpr fun _ hd => h hd.head?

theorem directive?_eq_none {keyword s : Text} {k : Char} (hk : keyword.head? = some k)
    (h : s.head? ≠ some k) : directive? keyword s = none :=
  directive?_eq_none_iff.mpr fun _ hd => h (hd.head? hk)

/-- The first character of a line rules out all kinds but one that are looked for earlier. -/
theorem ofUnindented_of_describes {k : Line} {s : Text} (h : k.Describes s) :
    Line.ofUnindented s = k := by
  unfold Line.ofUnindented
  cases k with
  | comment => exact if_pos h
  | header device =>
    rw [if_neg (by simp [IsHeader.head? h]), header?_eq_some_iff.mpr h]
  | cachedir path =>
    have hs : s.head? = some 'c' := IsDirective.head? rfl h
    rw [if_neg (by simp [hs]), header?_eq_none (by simp [hs]), directive?_eq_some_iff.mpr h]
  | listen address =>
    obtain ⟨value, hv, hw⟩ := h
    -- a line that starts with this letter is of no kind that is looked for earlier
    have hs : s.head? = some 'l' := hv.head? rfl
    have hc : directive? "cachedir".toList s = none :=
      directive?_eq_none (k := 'c') rfl (by simp [hs])
    rw [if_neg (by simp [hs]), header?_eq_none (by simp [hs]), hc, directive?_eq_some_iff.mpr hv]
    exact congrArg Line.listen (hv.isFirstWord_iff.mp hw)
  | other =>
    obtain ⟨hc, hh, hp, hv⟩ := h
    rw [header?_eq_none_iff.mpr hh, directive?_eq_none_iff.mpr hp, directive?_eq_none_iff.mpr hv]
    exact if_neg hc

theorem of_eq_iff {line : Text} {k : Line} :
    Line.of line = k ↔ k.Describes (Text.trimStart line) :=
  ⟨fun h => h ▸ describes_ofUnindented _, ofUnindented_of_describes⟩

end CacheHost.BlockConfig
