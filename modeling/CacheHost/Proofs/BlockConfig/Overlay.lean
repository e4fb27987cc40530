import CacheHost.Proofs.BlockConfig.Binding
import CacheHost.Proofs.Text.Line

namespace CacheHost.BlockConfig

/-- Both configurations; where they say different things the second counts. -/
def overlay (c upper : BlockConfig) : BlockConfig where
  devices := c.devices.overlay upper.devices
  listen := upper.listen.or c.listen

theorem ext_find? {c c' : BlockConfig} (hd : ∀ d, c.devices.find? d = c'.devices.find? d)
    (hl : c.listen = c'.listen) : c = c' := by
  have hdev : c.devices = c'.devices := SortedMap.ext_find? hd
  cases c
  cases c'
  simp_all

def Draft.onto (d : Draft) (c : BlockConfig) : Draft := ⟨c.overlay d.config, d.waiting⟩

theorem Draft.add_onto (c : BlockConfig) (d : Draft) (l : Line) :
    (d.onto c).add l = (d.add l).onto c := by
  cases l with
  | cachedir path =>
    cases hw : d.waiting with
    | none => simp only [Draft.onto, Draft.add, hw]
    | some device =>
      simp only [Draft.onto, Draft.add, hw]
      congr 1
      -- the directory goes to one key, and there it counts before both configurations
      apply ext_find?
      · intro k
        simp only [overlay, SortedMap.find?_insert, SortedMap.find?_overlay]
        split <;> rfl
      · rfl
  | header _ | comment | listen _ | other => rfl

theorem Draft.foldl_add_onto (c : BlockConfig) (ls : List Line) (d : Draft) :
    ls.foldl Draft.add (d.onto c) = (ls.foldl Draft.add d).onto c := by
  induction ls generalizing d with
  | nil => rfl
  | cons l ls ih => rw [List.foldl_cons, List.foldl_cons, add_onto, ih]

/-- A header stands above every directory. -/
def HeadersFirst (ls : List Line) : Prop :=
  ∀ (j : Nat) (path : Text), ls[j]? = some (.cachedir path) →
    ∃ (i : Nat) (device : Text), i < j ∧ ls[i]? = some (.header device)

variable {ls : List Line} {l : Line}

theorem not_headersFirst_cachedir {path : Text} : ¬HeadersFirst (.cachedir path :: ls) := by
  intro h
  obtain ⟨i, -, hi, -⟩ := h 0 path rfl
  exact absurd hi (Nat.not_lt_zero i)

theorem HeadersFirst.of_cons (hl : l.IsQuiet) (h : HeadersFirst (l :: ls)) : HeadersFirst ls := by
  intro j path hj
  obtain ⟨i, device, hi, hd⟩ := h (j + 1) path hj
  cases i with
  | zero =>
    obtain rfl : l = .header device := by simpa using hd
    exact hl.elim
  | succ i => exact ⟨i, device, Nat.lt_of_succ_lt_succ hi, hd⟩

/-- A header that waits from before is overtaken by the first header, and until then it stays. -/
theorem config_foldl_add_waiting (h : HeadersFirst ls) (c : BlockConfig) (w w' : Option Text) :
    (ls.foldl Draft.add ⟨c, w⟩).config = (ls.foldl Draft.add ⟨c, w'⟩).config := by
  induction ls generalizing c with
  | nil => rfl
  | cons l ls ih =>
    rw [List.foldl_cons, List.foldl_cons]
    cases l with
    | header device => rfl
    | cachedir path => exact absurd h not_headersFirst_cachedir
    | listen _ | comment | other => exact ih (h.of_cons (by trivial)) _

theorem config_ofLines_append {ls' : List Line} (h : HeadersFirst ls') :
    (ofLines (ls ++ ls')).config = (ofLines ls).config.overlay (ofLines ls').config := by
  have hfold := Draft.foldl_add_onto (ofLines ls).config ls' {}
  calc (ofLines (ls ++ ls')).config
      = (ls'.foldl Draft.add (ofLines ls)).config := by rw [ofLines, List.foldl_append]; rfl
    _ = (ls'.foldl Draft.add (Draft.onto {} (ofLines ls).config)).config :=
      config_foldl_add_waiting h _ _ _
    _ = (ofLines ls).config.overlay (ofLines ls').config := by rw [hfold]; rfl

def readLines (text : Text) : List Line := (Text.lines text).map Line.of

theorem parse_append {a b : Text} (ha : Text.IsEnded a) (hb : HeadersFirst (readLines b)) :
    parse (a ++ b) = (parse a).overlay (parse b) := by
  rw [parse, Text.lines_append ha, List.map_append]
  exact config_ofLines_append hb

/-- A text of whole lines, of which the first is a header. -/
structure IsBlock (block : Text) : Prop where
  ended : block.getLast? = some '\n'
  header : ∃ device, (readLines block).head? = some (.header device)

theorem IsBlock.headersFirst {block : Text} (h : IsBlock block) : HeadersFirst (readLines block) := by
  obtain ⟨device, hd⟩ := h.header
  rw [List.head?_eq_getElem?] at hd
  intro j path hj
  cases j with
  | zero => simp [hd] at hj
  | succ j => exact ⟨0, device, Nat.succ_pos j, hd⟩

theorem isEnded_flatten {blocks : List Text} (h : ∀ b ∈ blocks, IsBlock b) :
    Text.IsEnded blocks.flatten := by
  induction blocks using List.reverseRecOn with
  | nil => exact .inl rfl
  | append_singleton blocks b _ =>
    right
    have hb := (h b (List.mem_append_right _ List.mem_cons_self)).ended
    simp [List.getLast?_append, hb]

/-- Blocks go one over the other. -/
theorem parse_flatten {blocks : List Text} (h : ∀ b ∈ blocks, IsBlock b) :
    parse blocks.flatten = blocks.foldl (fun c b => c.overlay (parse b)) {} := by
  induction blocks using List.reverseRecOn with
  | nil => rfl
  | append_singleton blocks b ih =>
    have hblocks : ∀ b ∈ blocks, IsBlock b := fun b hb => h b (List.mem_append_left _ hb)
    have hb := h b (List.mem_append_right _ List.mem_cons_self)
    rw [List.flatten_append, List.flatten_singleton,
      parse_append (isEnded_flatten hblocks) hb.headersFirst, ih hblocks, List.foldl_append]
    rfl

def Declares (text device : Text) : Prop := .header device ∈ readLines text

def Listens (text : Text) : Prop := ∃ address, .listen address ∈ readLines text

theorem find?_parse_eq_none {text device : Text} (h : ¬Declares text device) :
    (parse text).devices.find? device = none := by
  rw [SortedMap.find?_eq_none_iff]
  intro hk
  obtain ⟨i, j, path, hb⟩ := mem_keys_devices_ofLines.mp hk
  exact h (List.mem_of_getElem? hb.header)

theorem listen_parse_eq_none {text : Text} (h : ¬Listens text) : (parse text).listen = none :=
  listen_ofLines_eq_none_iff.mpr (not_exists.mp h)

theorem or_right_comm_of_none {α : Type} {x y z : Option α} (h : x = none ∨ y = none) :
    y.or (x.or z) = x.or (y.or z) := by
  rcases h with rfl | rfl <;> simp

theorem overlay_right_comm {x y : Text} (hd : ∀ d, ¬(Declares x d ∧ Declares y d))
    (hl : ¬(Listens x ∧ Listens y)) (c : BlockConfig) :
    (c.overlay (parse x)).overlay (parse y) = (c.overlay (parse y)).overlay (parse x) := by
  apply ext_find?
  · intro d
    simp only [overlay, SortedMap.find?_overlay]
    apply or_right_comm_of_none
    exact (not_and_or.mp (hd d)).imp find?_parse_eq_none find?_parse_eq_none
  · apply or_right_comm_of_none
    exact (not_and_or.mp hl).imp listen_parse_eq_none listen_parse_eq_none

/-- A text goes over an ended one in front of it if none of its directories stands above its first
header. Blocks may be rearranged if no two of them name the same device, nor both say where to
listen. -/
theorem parse_composes_blocks :
    (∀ a b : Text, Text.IsEnded a → HeadersFirst (readLines b) →
      (∀ d, (parse (a ++ b)).devices.find? d =
        ((parse b).devices.find? d).or ((parse a).devices.find? d)) ∧
      (parse (a ++ b)).listen = (parse b).listen.or (parse a).listen) ∧
    ∀ blocks blocks' : List Text, blocks.Perm blocks' → (∀ b ∈ blocks, IsBlock b) →
      (∀ x ∈ blocks, ∀ y ∈ blocks, x ≠ y → ∀ d, ¬(Declares x d ∧ Declares y d)) →
      (∀ x ∈ blocks, ∀ y ∈ blocks, x ≠ y → ¬(Listens x ∧ Listens y)) →
      parse blocks.flatten = parse blocks'.flatten := by
  constructor
  · intro a b ha hb
    rw [parse_append ha hb]
    exact ⟨SortedMap.find?_overlay _ _, rfl⟩
  · intro blocks blocks' hp hb hd hl
    have hb' : ∀ b ∈ blocks', IsBlock b := fun b h => hb b (hp.mem_iff.mpr h)
    rw [parse_flatten hb, parse_flatten hb']
    -- a permutation of steps any two of which may change places
    apply hp.foldl_eq'
    intro x hx y hy c
    by_cases hxy : x = y
    · rw [hxy]
    · exact overlay_right_comm (hd x hx y hy hxy) (hl x hx y hy hxy) c

def sampleUpper : Text := "[a]\ncachedir /1\nlisten g\n[b]\n".toList

/-- A device of the other text again, and two lines in front of it that belong to no device. -/
def sampleLower : Text := "listen h\n# cachedir /3\n[a]\ncachedir /2".toList

def sampleBlock : Text := "[c]\n[d\ncachedir /4\n".toList

theorem forall_ne_of_pair {R : Text → Text → Prop} {a b : Text} (hsymm : ∀ x y, R x y → R y x)
    (h : R a b) : ∀ x ∈ [a, b], ∀ y ∈ [a, b], x ≠ y → R x y := by
  intro x hx y hy hne
  rcases List.mem_pair.mp hx with rfl | rfl <;> rcases List.mem_pair.mp hy with rfl | rfl
  · exact absurd rfl hne
  · exact h
  · exact hsymm _ _ h
  · exact absurd rfl hne

theorem parse_sampleUpper_sampleLower :
    (Text.IsEnded sampleUpper ∧ HeadersFirst (readLines sampleLower) ∧
      (parse (sampleUpper ++ sampleLower)).devices.find? ['a'] = some ["/2".toList] ∧
      (parse (sampleUpper ++ sampleLower)).devices.find? ['b'] = none ∧
      (parse (sampleUpper ++ sampleLower)).listen = some ['h']) ∧
    (∀ b ∈ [sampleUpper, sampleBlock], IsBlock b) ∧
    (∀ d, ¬(Declares sampleUpper d ∧ Declares sampleBlock d)) ∧
    ¬(Listens sampleUpper ∧ Listens sampleBlock) ∧
    parse [sampleUpper, sampleBlock].flatten = parse [sampleBlock, sampleUpper].flatten := by
  have hu : readLines sampleUpper =
      [.header ['a'], .cachedir "/1".toList, .listen ['g'], .header ['b']] := by decide
  have hl : readLines sampleLower =
      [.listen ['h'], .comment, .header ['a'], .cachedir "/2".toList] := by decide
  have hb : readLines sampleBlock =
      [.header ['c'], .header ['d'], .cachedir "/4".toList] := by decide
  have hended : Text.IsEnded sampleUpper := by decide
  have hfirst : HeadersFirst (readLines sampleLower) := by
    rw [hl]
    intro j path hj
    match j with
    | 0 | 1 | 2 => simp at hj
    | 3 => exact ⟨2, ['a'], by decide, rfl⟩
    | j + 4 => simp at hj
  have hblocks : ∀ b ∈ [sampleUpper, sampleBlock], IsBlock b := by
    intro b h
    rcases List.mem_pair.mp h with rfl | rfl
    · exact ⟨by decide, ['a'], by decide⟩
    · exact ⟨by decide, ['c'], by decide⟩
  have hdecl : ∀ d, ¬(Declares sampleUpper d ∧ Declares sampleBlock d) := by
    intro d ⟨h, h'⟩
    have hd : d = ['a'] ∨ d = ['b'] := by simpa [Declares, hu] using h
    have hd' : d = ['c'] ∨ d = ['d'] := by simpa [Declares, hb] using h'
    rcases hd with rfl | rfl <;> simp at hd'
  have hlisten : ¬(Listens sampleUpper ∧ Listens sampleBlock) := by
    rintro ⟨-, address, h⟩
    simp [hb] at h
  obtain ⟨hdev, hlis⟩ := parse_composes_blocks.1 sampleUpper sampleLower hended hfirst
  refine ⟨⟨hended, hfirst, (hdev _).trans (by decide), (hdev _).trans (by decide),
    hlis.trans (by decide)⟩, hblocks, hdecl, hlisten, ?_⟩
  apply parse_composes_blocks.2 _ _ (List.Perm.swap _ _ _) hblocks
  · exact forall_ne_of_pair (fun _ _ h d hd => h d hd.symm) hdecl
  · exact forall_ne_of_pair (fun _ _ h hl => h hl.symm) hlisten

end CacheHost.BlockConfig
