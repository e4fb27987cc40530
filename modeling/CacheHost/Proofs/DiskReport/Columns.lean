import CacheHost.DiskReport
import CacheHost.Proofs.Text.Numeral

namespace CacheHost

namespace Text

def IsBreak (s : Text) : Prop := s ≠ [] ∧ ∀ c ∈ s, isBlank c = true

theorem IsBreak.exists_append {s : Text} (h : IsBreak s) :
    ∃ g c, IsGap g ∧ isBlank c = true ∧ s = g ++ [c] :=
  ⟨s.dropLast, s.getLast h.1, fun d hd => h.2 d (List.dropLast_subset s hd),
    h.2 _ (List.getLast_mem h.1), (List.dropLast_concat_getLast h.1).symm⟩

theorem isBreak_append {g : Text} {c : Char} (hg : IsGap g) (hc : isBlank c = true) :
    IsBreak (g ++ [c]) := by
  refine ⟨by simp, fun d hd => ?_⟩
  rcases List.mem_append.mp hd with hd | hd
  · exact hg d hd
  · exact List.mem_singleton.mp hd ▸ hc

end Text

namespace DiskReport
open Text Numeral

/-- A row cut into its columns and the gaps around them. The file may hold blanks inside. -/
@[ext] structure Columns where
  lead : Text
  file : Text
  gap₁ : Text
  fstype : Text
  gap₂ : Text
  size : Text
  gap₃ : Text
  used : Text
  gap₄ : Text
  avail : Text
  tail : Text
  usage : DiskUsage
  lead_isGap : IsGap lead
  file_ne_nil : file ≠ []
  file_isTrimmed : IsTrimmed file
  gap₁_isBreak : IsBreak gap₁
  fstype_isWord : IsWord fstype
  gap₂_isBreak : IsBreak gap₂
  size_denotes : Denotes size usage.size.toNat
  gap₃_isBreak : IsBreak gap₃
  used_denotes : Denotes used usage.used.toNat
  gap₄_isBreak : IsBreak gap₄
  avail_denotes : Denotes avail usage.avail.toNat
  tail_isGap : IsGap tail

namespace Columns

def text (c : Columns) : Text :=
  c.lead ++ c.file ++ c.gap₁ ++ c.fstype ++ c.gap₂ ++ c.size ++ c.gap₃ ++ c.used ++ c.gap₄ ++
    c.avail ++ c.tail

def row (c : Columns) : Row := ⟨c.file, c.fstype, c.usage⟩

end Columns

theorem lastWord?_append {s g w t : Text} (hg : IsBreak g) (hw : IsWord w) (ht : IsGap t) :
    ∃ g', IsGap g' ∧ lastWord? (s ++ g ++ w ++ t) = some (s ++ g', w) := by
  obtain ⟨g', c, hg', hc, rfl⟩ := hg.exists_append
  refine ⟨g', hg', lastWord?_eq_some_iff.mpr ⟨hw, c, t, hc, ht, ?_⟩⟩
  simp

theorem row?_text (c : Columns) : row? c.text = some c.row := by
  -- each step leaves a gap at the end, which the next one cuts off
  obtain ⟨t₁, h₁, e₁⟩ := lastWord?_append c.gap₄_isBreak c.avail_denotes.isWord c.tail_isGap
    (s := c.lead ++ c.file ++ c.gap₁ ++ c.fstype ++ c.gap₂ ++ c.size ++ c.gap₃ ++ c.used)
  obtain ⟨t₂, h₂, e₂⟩ := lastWord?_append c.gap₃_isBreak c.used_denotes.isWord h₁
    (s := c.lead ++ c.file ++ c.gap₁ ++ c.fstype ++ c.gap₂ ++ c.size)
  obtain ⟨t₃, h₃, e₃⟩ := lastWord?_append c.gap₂_isBreak c.size_denotes.isWord h₂
    (s := c.lead ++ c.file ++ c.gap₁ ++ c.fstype)
  obtain ⟨t₄, h₄, e₄⟩ := lastWord?_append c.gap₁_isBreak c.fstype_isWord h₃ (s := c.lead ++ c.file)
  have hf : trim (c.lead ++ c.file ++ t₄) = c.file :=
    trim_eq_iff.mpr ⟨c.file_isTrimmed, _, _, c.lead_isGap, h₄, rfl⟩
  have hs := read64?_eq_some_iff.mpr c.size_denotes
  have hu := read64?_eq_some_iff.mpr c.used_denotes
  have ha := read64?_eq_some_iff.mpr c.avail_denotes
  unfold row? Columns.text
  simp only [e₁, e₂, e₃, e₄, hf, hs, hu, ha, Option.bind_eq_bind, Option.bind_some,
    if_neg c.file_ne_nil, Columns.row]

theorem exists_columns_of_row? {line : Text} {row : Row} (h : row? line = some row) :
    ∃ c : Columns, c.text = line ∧ c.row = row := by
  simp only [row?, Option.bind_eq_bind, Option.bind_eq_some_iff, Prod.exists] at h
  obtain ⟨r₁, avail, h₁, r₂, used, h₂, r₃, size, h₃, r₄, fstype, h₄, h⟩ := h
  obtain ⟨wa, c₁, g₁, hc₁, hg₁, rfl⟩ := lastWord?_eq_some_iff.mp h₁
  obtain ⟨wu, c₂, g₂, hc₂, hg₂, rfl⟩ := lastWord?_eq_some_iff.mp h₂
  obtain ⟨ws, c₃, g₃, hc₃, hg₃, rfl⟩ := lastWord?_eq_some_iff.mp h₃
  obtain ⟨wt, c₄, g₄, hc₄, hg₄, rfl⟩ := lastWord?_eq_some_iff.mp h₄
  -- what is left in front of the type is the file with the gaps around it
  generalize hfile : trim r₄ = file at h
  obtain ⟨hf, g, g', hg, hg', rfl⟩ := trim_eq_iff.mp hfile
  split at h
  · simp at h
  rename_i hne
  simp only [Option.bind_eq_some_iff] at h
  obtain ⟨s, hs, u, hu, a, ha, h⟩ := h
  obtain rfl := Option.some.inj h
  refine ⟨{
    lead := g, file := file, gap₁ := g' ++ [c₄], fstype := fstype, gap₂ := g₄ ++ [c₃]
    size := size, gap₃ := g₃ ++ [c₂], used := used, gap₄ := g₂ ++ [c₁], avail := avail
    tail := g₁, usage := ⟨s, u, a⟩
    lead_isGap := hg
    file_ne_nil := hne
    file_isTrimmed := hf
    gap₁_isBreak := isBreak_append hg' hc₄
    fstype_isWord := wt
    gap₂_isBreak := isBreak_append hg₄ hc₃
    size_denotes := read64?_eq_some_iff.mp hs
    gap₃_isBreak := isBreak_append hg₃ hc₂
    used_denotes := read64?_eq_some_iff.mp hu
    gap₄_isBreak := isBreak_append hg₂ hc₁
    avail_denotes := read64?_eq_some_iff.mp ha
    tail_isGap := hg₁ }, ?_, rfl⟩
  simp [Columns.text]

theorem row?_eq_some_iff {line : Text} {row : Row} :
    row? line = some row ↔ ∃ c : Columns, c.text = line ∧ c.row = row := by
  constructor
  · exact exists_columns_of_row?
  · rintro ⟨c, rfl, rfl⟩
    exact row?_text c

theorem append_gap_inj {s s' w w' g g' : Text} (h : s ++ w ++ g = s' ++ w' ++ g')
    (hw : IsWord w) (hw' : IsWord w') (hg : IsGap g) (hg' : IsGap g') :
    s ++ w = s' ++ w' ∧ g = g' :=
  append_span_inj h (getLast?_append_of_forall hw.1 hw.2) hg
    (getLast?_append_of_forall hw'.1 hw'.2) hg'

theorem append_word_inj {s s' g g' w w' : Text} (h : s ++ g ++ w = s' ++ g' ++ w')
    (hg : IsBreak g) (hg' : IsBreak g') (hw : IsWord w) (hw' : IsWord w') :
    s ++ g = s' ++ g' ∧ w = w' := by
  have hword : ∀ {v : Text}, IsWord v → ∀ c ∈ v, (!isBlank c) = true := by
    intro v hv c hc
    simp [hv.2 c hc]
  have hbreak : ∀ {v : Text}, IsBreak v → ∀ c ∈ v, (!isBlank c) = false := by
    intro v hv c hc
    simp [hv.2 c hc]
  exact append_span_inj h (getLast?_append_of_forall hg.1 (hbreak hg)) (hword hw)
    (getLast?_append_of_forall hg'.1 (hbreak hg')) (hword hw')

namespace Columns

theorem getLast?_lead_append_file (c : Columns) :
    ∀ d ∈ (c.lead ++ c.file).getLast?, isBlank d = false := by
  intro d hd
  apply c.file_isTrimmed.2 d
  rwa [List.getLast?_append, List.getLast?_eq_some_getLast c.file_ne_nil, Option.some_or,
    ← List.getLast?_eq_some_getLast] at hd

/-- From the right end, each gap and each column ends where the next one begins. -/
theorem text_injective {c c' : Columns} (h : c.text = c'.text) : c = c' := by
  -- both are read as the same row, and the gaps follow from the rest
  have hrow : c.row = c'.row := Option.some.inj (by rw [← row?_text, ← row?_text, h])
  obtain ⟨h, htail⟩ := append_gap_inj h c.avail_denotes.isWord c'.avail_denotes.isWord
    c.tail_isGap c'.tail_isGap
  obtain ⟨h, havail⟩ := append_word_inj h c.gap₄_isBreak c'.gap₄_isBreak
    c.avail_denotes.isWord c'.avail_denotes.isWord
  obtain ⟨h, hgap₄⟩ := append_gap_inj h c.used_denotes.isWord c'.used_denotes.isWord
    c.gap₄_isBreak.2 c'.gap₄_isBreak.2
  obtain ⟨h, hused⟩ := append_word_inj h c.gap₃_isBreak c'.gap₃_isBreak
    c.used_denotes.isWord c'.used_denotes.isWord
  obtain ⟨h, hgap₃⟩ := append_gap_inj h c.size_denotes.isWord c'.size_denotes.isWord
    c.gap₃_isBreak.2 c'.gap₃_isBreak.2
  obtain ⟨h, hsize⟩ := append_word_inj h c.gap₂_isBreak c'.gap₂_isBreak
    c.size_denotes.isWord c'.size_denotes.isWord
  obtain ⟨h, hgap₂⟩ := append_gap_inj h c.fstype_isWord c'.fstype_isWord
    c.gap₂_isBreak.2 c'.gap₂_isBreak.2
  obtain ⟨h, hfstype⟩ := append_word_inj h c.gap₁_isBreak c'.gap₁_isBreak
    c.fstype_isWord c'.fstype_isWord
  obtain ⟨h, hgap₁⟩ := append_span_inj h c.getLast?_lead_append_file c.gap₁_isBreak.2
    c'.getLast?_lead_append_file c'.gap₁_isBreak.2
  have hfile : c.file = c'.file := congrArg Row.file hrow
  have hlead : c.lead = c'.lead := List.append_cancel_right (hfile ▸ h)
  exact Columns.ext hlead hfile hgap₁ hfstype hgap₂ hsize hgap₃ hused hgap₄ havail htail
    (congrArg Row.usage hrow)

end Columns

end DiskReport
end CacheHost
