import CacheHost.Collection
import CacheHost.Proofs.BlockConfig.Line
import CacheHost.Proofs.NbdDump.Field
import CacheHost.Proofs.Text.Damage
import CacheHost.Proofs.Text.Utf8

namespace CacheHost

theorem Text.head?_dropReturn {c : Char} (hc : c ≠ '\r') (s : Text) :
    (dropReturn (c :: s)).head? = some c := by
  cases s with
  | nil => simp [dropReturn, hc]
  | cons d s => rw [dropReturn_cons c (List.cons_ne_nil d s), List.head?_cons]

namespace BlockConfig

theorem IsComment.trimStart_eq {l : Text} (h : IsComment l) : Text.trimStart l = l := by
  apply Text.trimStart_append Text.isGap_nil
  intro c hc
  have hc : l.head? = some c := hc
  rcases h with h | h <;> obtain rfl := Option.some.inj (hc.symm.trans h) <;> decide

theorem IsComment.of_eq {l : Text} (h : IsComment l) : Line.of l = .comment := by
  apply of_eq_iff.mpr
  rwa [h.trimStart_eq]

theorem ofLines_comment (ls ls' : List Line) :
    ofLines (ls ++ .comment :: ls') = ofLines (ls ++ ls') := by
  rw [ofLines, List.foldl_append, List.foldl_cons, ofLines, List.foldl_append]
  rfl

theorem parse_eq_of_comment {s s' l : Text} {before after : List Text} (h : IsComment l)
    (hs : Text.lines s = before ++ l :: after) (hs' : Text.lines s' = before ++ after) :
    parse s = parse s' := by
  rw [parse, parse, hs, hs', List.map_append, List.map_cons, h.of_eq, ofLines_comment,
    List.map_append]

end BlockConfig

namespace NbdDump

/-- A comment does not start with a keyword. -/
theorem assignment?_of_isComment {l : Text} (h : BlockConfig.IsComment l) :
    assignment? l = none := by
  apply Option.eq_none_iff_forall_ne_some.mpr
  intro a ha
  obtain ⟨f, -, hf⟩ := List.exists_of_findSome?_eq_some ha
  obtain ⟨rest, _, _, _, hr, -⟩ := assignmentTo?_eq_some_iff.mp hf
  rw [h.trimStart_eq] at hr
  have hl : l.head? = some 'N' := by
    rw [Text.after?_eq_some_iff.mp hr]
    cases f <;> rfl
  rcases h with h | h <;> simp [hl] at h

theorem parse_eq_of_comment {s s' l : Text} {before after : List Text}
    (h : BlockConfig.IsComment l) (hs : Text.lines s = before ++ l :: after)
    (hs' : Text.lines s' = before ++ after) : parse s = parse s' := by
  have ha : assignments s = assignments s' := by
    rw [assignments, assignments, hs, hs', List.filterMap_append, List.filterMap_cons,
      assignment?_of_isComment h, List.filterMap_append]
  rw [parse, parse, ha]

end NbdDump

/-- The mark of a comment and any bytes behind it. -/
theorem isComment_decodeLossy {mark : UInt8} (hm : mark = 0x23 ∨ mark = 0x3B) (c : Bytes) :
    BlockConfig.IsComment (Text.dropReturn (Utf8.decodeLossy (mark :: c))) := by
  rcases hm with rfl | rfl
  · rw [Utf8.decodeLossy_cons_ascii (by decide)]
    exact .inl (Text.head?_dropReturn (by decide) _)
  · rw [Utf8.decodeLossy_cons_ascii (by decide)]
    exact .inr (Text.head?_dropReturn (by decide) _)

namespace BlockConfig

/-- The marks are `#` and `;`. The bytes behind one, up to the next line feed, count for nothing,
even if they end in the middle of a character. -/
theorem damaged_comment_counts_for_nothing (path : Text) :
    (∀ (mark : UInt8) (a c b : Bytes), (mark = 0x23 ∨ mark = 0x3B) → Utf8.IsEnded a → 0x0A ∉ c →
      load path (.ok (a ++ mark :: c ++ 0x0A :: b)) = load path (.ok (a ++ b)) ∧
      ∀ conf : BlockConfig, conf.correlate path (.ok (a ++ mark :: c ++ 0x0A :: b)) =
        conf.correlate path (.ok (a ++ b))) ∧
    ∀ t : Text, load path (.ok (Utf8.encode t)) = .ok (parse t) ∧
      ∀ conf : BlockConfig, conf.correlate path (.ok (Utf8.encode t)) =
        (conf.withExports (NbdDump.parse t), none) := by
  constructor
  · intro mark a c b hm ha hc
    have hcomment := isComment_decodeLossy hm c
    have hmark : 0x0A ∉ mark :: c := by
      rcases hm with rfl | rfl <;> simp [hc]
    have hlines := Utf8.lines_decodeLossy_insert ha hmark b
    have hlines' := Utf8.lines_decodeLossy_append ha b
    refine ⟨?_, fun conf => ?_⟩
    · rw [load, load, parse_eq_of_comment hcomment hlines hlines']
    · rw [correlate, correlate, NbdDump.parse_eq_of_comment hcomment hlines hlines']
  · intro t
    refine ⟨?_, fun conf => ?_⟩
    · rw [load, Utf8.decodeLossy_encode]
    · rw [correlate, Utf8.decodeLossy_encode]

/-- The comment breaks off within a character of three bytes. -/
theorem load_damaged_comment :
    Utf8.IsEnded (Utf8.encode "[a]\n".toList) ∧ 0x0A ∉ ([0x20, 0xE2, 0x82] : Bytes) ∧
      load [] (.ok (Utf8.encode "[a]\n".toList ++ 0x23 :: [0x20, 0xE2, 0x82] ++
        0x0A :: Utf8.encode "cachedir /1".toList)) =
          .ok ⟨.ofList [(['a'], ["/1".toList])], none⟩ := by
  have ha : Utf8.IsEnded (Utf8.encode "[a]\n".toList) := by decide
  have hc : 0x0A ∉ ([0x20, 0xE2, 0x82] : Bytes) := by decide
  have h := (damaged_comment_counts_for_nothing []).1 0x23 _ _
    (Utf8.encode "cachedir /1".toList) (.inl rfl) ha hc
  have ht := (damaged_comment_counts_for_nothing []).2 "[a]\ncachedir /1".toList
  exact ⟨ha, hc, h.1.trans (ht.1.trans (congrArg Except.ok (by decide)))⟩

end BlockConfig
end CacheHost
