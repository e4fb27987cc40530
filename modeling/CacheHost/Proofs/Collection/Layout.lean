import CacheHost.DiskReport
import CacheHost.NbdDump
import CacheHost.ProcessCount
import CacheHost.Proofs.Text.Layout
/-!
The layout of the texts that a collection reads counts for nothing. All four are read line by line,
so it does not matter how the lines end; the configuration, the dump and the listing are read from
the first character of a line that is no blank. A report is not, as it quotes the rows it refuses.
-/
namespace CacheHost

theorem BlockConfig.parse_congr {s t : Text} (h : Text.unindented t = Text.unindented s) :
    parse t = parse s := by
  have hp : ∀ u, parse u = (ofLines ((Text.unindented u).map Line.ofUnindented)).config := by
    intro u
    rw [Text.unindented, List.map_map]
    rfl
  rw [hp, hp, h]

theorem NbdDump.parse_congr {s t : Text} (h : Text.unindented t = Text.unindented s) :
    parse t = parse s := by
  have ha : ∀ u, assignments u = (Text.unindented u).filterMap fun l =>
      [Field.device, .name, .host].findSome? (assignmentTo? · l) := by
    intro u
    rw [Text.unindented, List.filterMap_map]
    rfl
  rw [parse, parse, ha, ha, h]

theorem ProcessCount.count_congr {s t : Text} (h : Text.unindented t = Text.unindented s)
    (name : Text) : count t name = count s name := by
  have hc : ∀ u, (Text.lines u).countP (fun l => Text.trim l = name || Text.trim l = listed name) =
      (Text.unindented u).countP fun l => Text.trimEnd l = name || Text.trimEnd l = listed name := by
    intro u
    rw [Text.unindented, List.countP_map]
    rfl
  rw [count, count, hc, hc, h]

namespace Collection
open Text

/-- The second text is read as the first one, as a configuration, a dump or a listing. -/
structure ReadAlike (s t : Text) : Prop where
  config : BlockConfig.parse t = BlockConfig.parse s
  dump : NbdDump.parse t = NbdDump.parse s
  count : ∀ name, ProcessCount.count t name = ProcessCount.count s name

/-- Also as a report on any paths: it has the same usages, or it is refused for the same error, which
has one message. -/
structure ReadAlikeByAll (s t : Text) : Prop extends ReadAlike s t where
  report : ∀ paths, DiskReport.parse t paths = DiskReport.parse s paths

variable {s t : Text}

theorem ReadAlike.of_unindented (h : unindented t = unindented s) : ReadAlike s t where
  config := BlockConfig.parse_congr h
  dump := NbdDump.parse_congr h
  count := ProcessCount.count_congr h

theorem ReadAlikeByAll.of_lines (h : lines t = lines s) : ReadAlikeByAll s t where
  toReadAlike := .of_unindented (by rw [unindented, unindented, h])
  report paths := by rw [DiskReport.parse, DiskReport.parse, h]

/-- A text without carriage returns may be given one in front of each line feed, and a line feed at
its end if it has none there. The lines of any text may be indented. -/
theorem layout_counts_for_nothing :
    (∀ s : Text, '\r' ∉ s → ReadAlikeByAll s (withReturns s) ∧
      (s ≠ [] → s.getLast? ≠ some '\n' → ReadAlikeByAll s (s ++ ['\n']))) ∧
    ∀ s t : Text, Indents s t → ReadAlike s t := by
  refine ⟨fun s hr => ⟨.of_lines (lines_withReturns hr), fun hne hn => ?_⟩,
    fun s t h => .of_unindented h.unindented_eq⟩
  have hlast : s.getLast? ≠ some '\r' := fun h => hr (List.mem_of_getLast? h)
  exact .of_lines (lines_concat_newline (not_or.mpr ⟨hne, hn⟩) hlast)

def sampleText : Text :=
  "[a".toList ++ '\n' :: ("cachedir /1".toList ++ '\n' :: ([] ++ '\n' :: "listen h".toList))

/-- In front of the empty line there stands a return, which goes along with the end of it. -/
def sampleIndented : Text :=
  ['\t'] ++ "[a".toList ++ '\n' :: (['\u3000'] ++ "cachedir /1".toList ++ '\n' ::
    (['\r'] ++ [] ++ '\n' :: ([' '] ++ "listen h".toList)))

theorem layout_sampleText :
    ('\r' ∉ sampleText ∧ sampleText ≠ [] ∧ sampleText.getLast? ≠ some '\n' ∧
      Indents sampleText sampleIndented) ∧
    BlockConfig.parse (withReturns sampleText) =
      ⟨.ofList [(['a'], ["/1".toList])], some ['h']⟩ ∧
    DiskReport.parse (withReturns sampleText) ["/1".toList] = .error (.lineCount 1 4) ∧
    BlockConfig.parse (sampleText ++ ['\n']) = ⟨.ofList [(['a'], ["/1".toList])], some ['h']⟩ ∧
    BlockConfig.parse sampleIndented = ⟨.ofList [(['a'], ["/1".toList])], some ['h']⟩ := by
  have hr : '\r' ∉ sampleText := by decide
  have hne : sampleText ≠ [] := by decide
  have hn : sampleText.getLast? ≠ some '\n' := by decide
  have hi : Indents sampleText sampleIndented :=
    .line (by decide) (by decide) (.line (by decide) (by decide) (.line (by decide) (by decide)
      (.last (by decide) (by decide) (by decide))))
  have hconfig : BlockConfig.parse sampleText =
      ⟨.ofList [(['a'], ["/1".toList])], some ['h']⟩ := by decide
  obtain ⟨hreturns, hended⟩ := layout_counts_for_nothing.1 sampleText hr
  have hindented := layout_counts_for_nothing.2 sampleText sampleIndented hi
  exact ⟨⟨hr, hne, hn, hi⟩, hreturns.config.trans hconfig,
    (hreturns.report _).trans (by decide), (hended hne hn).config.trans hconfig,
    hindented.config.trans hconfig⟩

end Collection
end CacheHost
