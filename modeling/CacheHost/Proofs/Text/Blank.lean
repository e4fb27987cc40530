import CacheHost.Text.Blank
import CacheHost.Proofs.Text.Span

namespace CacheHost.Text

def IsGap (s : Text) : Prop := ∀ c ∈ s, isBlank c = true

def IsWord (s : Text) : Prop := s ≠ [] ∧ ∀ c ∈ s, isBlank c = false

def IsTrimmed (s : Text) : Prop :=
  (∀ c ∈ s.head?, isBlank c = false) ∧ ∀ c ∈ s.getLast?, isBlank c = false

-- The instances are named, as a search may find one that tries every character there is.
instance (s : Text) : Decidable (IsGap s) := List.decidableBAll (isBlank · = true) s

instance (s : Text) : Decidable (IsWord s) :=
  @instDecidableAnd _ _ inferInstance (List.decidableBAll (isBlank · = false) s)

instance (s : Text) : Decidable (IsTrimmed s) :=
  @instDecidableAnd _ _ (Option.decidableForallMem (p := (isBlank · = false)) s.head?)
    (Option.decidableForallMem (p := (isBlank · = false)) s.getLast?)

theorem isGap_nil : IsGap [] := List.forall_mem_nil _

theorem IsGap.reverse {g : Text} (h : IsGap g) : IsGap g.reverse :=
  fun c hc => h c (List.mem_reverse.mp hc)

theorem IsWord.isTrimmed {s : Text} (h : IsWord s) : IsTrimmed s :=
  ⟨fun c hc => h.2 c (List.mem_of_head? hc), fun c hc => h.2 c (List.mem_of_getLast? hc)⟩

theorem isGap_takeWhile (s : Text) : IsGap (s.takeWhile isBlank) :=
  fun _ hc => List.mem_takeWhile_imp hc

theorem trimStart_subset (s : Text) : trimStart s ⊆ s := (List.dropWhile_sublist _).subset

theorem trimEnd_subset (s : Text) : trimEnd s ⊆ s := by
  intro c hc
  exact List.mem_reverse.mp ((List.dropWhile_sublist _).subset (List.mem_reverse.mp hc))

theorem trim_subset (s : Text) : trim s ⊆ s :=
  List.Subset.trans (trimEnd_subset _) (trimStart_subset s)

theorem trimStart_append {g s : Text} (hg : IsGap g) (hs : ∀ c ∈ s.head?, isBlank c = false) :
    trimStart (g ++ s) = s := dropWhile_append_of_head hg hs

theorem trimEnd_append {s g : Text} (hg : IsGap g) (hs : ∀ c ∈ s.getLast?, isBlank c = false) :
    trimEnd (s ++ g) = s := by
  rw [trimEnd, List.reverse_append, dropWhile_append_of_head hg.reverse, List.reverse_reverse]
  rwa [List.head?_reverse]

theorem exists_eq_append_trimStart (s : Text) : ∃ g, IsGap g ∧ s = g ++ trimStart s :=
  ⟨_, isGap_takeWhile s, (List.takeWhile_append_dropWhile).symm⟩

theorem exists_eq_trimEnd_append (s : Text) : ∃ g, IsGap g ∧ s = trimEnd s ++ g := by
  refine ⟨(s.reverse.takeWhile isBlank).reverse, (isGap_takeWhile _).reverse, ?_⟩
  rw [trimEnd, ← List.reverse_append, List.takeWhile_append_dropWhile, List.reverse_reverse]

theorem getLast?_trimEnd (s : Text) : ∀ c ∈ (trimEnd s).getLast?, isBlank c = false := by
  rw [trimEnd, List.getLast?_reverse]
  exact head?_dropWhile _

theorem isTrimmed_trim (s : Text) : IsTrimmed (trim s) := by
  refine ⟨?_, getLast?_trimEnd _⟩
  obtain ⟨g, -, hs⟩ := exists_eq_trimEnd_append (trimStart s)
  intro c hc
  apply head?_dropWhile s c
  have hc' : (trimEnd (trimStart s)).head? = some c := hc
  change (trimStart s).head? = some c
  rw [hs, List.head?_append, hc', Option.some_or]

theorem trim_eq_iff {s f : Text} :
    trim s = f ↔ IsTrimmed f ∧ ∃ g g', IsGap g ∧ IsGap g' ∧ s = g ++ f ++ g' := by
  constructor
  · rintro rfl
    obtain ⟨g, hg, hs⟩ := exists_eq_append_trimStart s
    obtain ⟨g', hg', hs'⟩ := exists_eq_trimEnd_append (trimStart s)
    refine ⟨isTrimmed_trim s, g, g', hg, hg', ?_⟩
    rw [List.append_assoc, trim, ← hs', ← hs]
  · rintro ⟨hf, g, g', hg, hg', rfl⟩
    cases f with
    | nil =>
      have hgg : IsGap (g ++ g') := by
        intro c hc
        exact (List.mem_append.mp hc).elim (hg c) (hg' c)
      have h := trimStart_append (s := []) hgg (by simp)
      simpa [trim, trimEnd] using congrArg trimEnd h
    | cons c f =>
      rw [trim, List.append_assoc, trimStart_append hg, trimEnd_append hg' hf.2]
      intro d hd
      exact hf.1 d (by simpa using hd)

theorem trim_eq_self {s : Text} (h : IsTrimmed s) : trim s = s :=
  trim_eq_iff.mpr ⟨h, [], [], isGap_nil, isGap_nil, by simp⟩

/-- The front of a trimmed text may only end in a blank. -/
theorem IsTrimmed.left {s r : Text} (h : IsTrimmed (s ++ r))
    (hs : ∀ c ∈ s.getLast?, isBlank c = false) : IsTrimmed s := by
  refine ⟨fun c hc => h.1 c ?_, hs⟩
  rw [List.head?_append, Option.mem_def.mp hc]
  rfl

theorem lastWord?_eq_some_iff {s b w : Text} :
    lastWord? s = some (b, w) ↔
      IsWord w ∧ ∃ c g, isBlank c = true ∧ IsGap g ∧ s = b ++ c :: (w ++ g) := by
  constructor
  · intro h
    obtain ⟨g, r, hg, hr, hs⟩ : ∃ g r, IsGap g ∧ s.reverse.dropWhile isBlank = r ∧
        s.reverse = g ++ r :=
      ⟨_, _, isGap_takeWhile s.reverse, rfl, List.takeWhile_append_dropWhile.symm⟩
    have hhead := head?_dropWhile (p := isBlank) s.reverse
    simp only [lastWord?, hr] at h hhead
    split at h
    · simp at h
    · rename_i c before hd
      obtain ⟨rfl, rfl⟩ := Prod.mk.inj (Option.some.inj h)
      have hrw : r.takeWhile (!isBlank ·) ++ c :: before = r :=
        hd ▸ List.takeWhile_append_dropWhile
      have hc : isBlank c = true := by
        have := head?_dropWhile (p := (!isBlank ·)) r
        rw [hd] at this
        simpa using this
      refine ⟨⟨?_, ?_⟩, c, g.reverse, hc, hg.reverse, ?_⟩
      · -- an empty word would leave the blank at the front of `r`
        intro hw
        rw [List.reverse_eq_nil_iff.mp hw, List.nil_append] at hrw
        simp [← hrw, hc] at hhead
      · intro d hd
        simpa using List.mem_takeWhile_imp (List.mem_reverse.mp hd)
      · rw [← List.reverse_inj, hs]
        simp [hrw]
  · rintro ⟨hw, c, g, hc, hg, rfl⟩
    have hwr : ∀ d ∈ w.reverse, (!isBlank d) = true := by
      intro d hd
      simp [hw.2 d (List.mem_reverse.mp hd)]
    have hcr : ∀ d ∈ (c :: b.reverse).head?, (!isBlank d) = false := by simpa using hc
    have hr : (b ++ c :: (w ++ g)).reverse.dropWhile isBlank = w.reverse ++ c :: b.reverse := by
      simp only [List.reverse_append, List.reverse_cons, List.append_assoc, List.cons_append,
        List.nil_append]
      apply dropWhile_append_of_head hg.reverse
      intro d hd
      cases hv : w.reverse with
      | nil => exact absurd (List.reverse_eq_nil_iff.mp hv) hw.1
      | cons x v =>
        rw [hv] at hd hwr
        simpa using hwr d (List.mem_of_head? hd)
    simp only [lastWord?, hr, dropWhile_append_of_head hwr hcr, takeWhile_append_of_head hwr hcr,
      List.reverse_reverse]

end CacheHost.Text
