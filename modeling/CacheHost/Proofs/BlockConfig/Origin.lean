import CacheHost.Proofs.BlockConfig.Binding
import CacheHost.Proofs.Text.Line

namespace CacheHost.BlockConfig

theorem IsHeader.subset {device s : Text} (h : IsHeader device s) : device ⊆ s := by
  obtain ⟨-, -, rest, rfl, -⟩ := h
  exact List.subset_cons_of_subset _ (List.subset_append_left device rest)

theorem IsDirective.subset {keyword value s : Text} (h : IsDirective keyword value s) :
    value ⊆ s := by
  obtain ⟨-, c, rest, rfl, -, rfl⟩ := h
  have hrest : rest ⊆ keyword ++ c :: rest :=
    List.subset_append_of_subset_right keyword (List.subset_cons_self c rest)
  exact List.Subset.trans (Text.trim_subset rest) hrest

theorem IsDirective.isTrimmed {keyword value s : Text} (h : IsDirective keyword value s) :
    Text.IsTrimmed value := by
  obtain ⟨-, c, rest, -, -, rfl⟩ := h
  exact Text.isTrimmed_trim rest

variable {text : Text}

/-- What the lines of a text are read as, traced back to a line. -/
theorem exists_line_of_getElem? {i : Nat} {k : Line}
    (h : ((Text.lines text).map Line.of)[i]? = some k) :
    ∃ line ∈ Text.lines text, k.Describes (Text.trimStart line) := by
  obtain ⟨line, hline, hk⟩ := List.mem_map.mp (List.mem_of_getElem? h)
  exact ⟨line, hline, of_eq_iff.mp hk⟩

theorem newline_not_mem_of_subset {line s : Text} (hline : line ∈ Text.lines text)
    (hs : s ⊆ Text.trimStart line) : '\n' ∉ s := by
  intro hn
  exact Text.newline_not_mem_of_mem_lines hline (Text.trimStart_subset line (hs hn))

theorem device_of_mem_keys {device : Text} (h : device ∈ (parse text).devices.keys) :
    device ≠ [] ∧ '\n' ∉ device := by
  obtain ⟨i, j, path, hb⟩ := mem_keys_devices_ofLines.mp h
  obtain ⟨line, hline, hd⟩ := exists_line_of_getElem? hb.header
  have hd : IsHeader device (Text.trimStart line) := hd
  exact ⟨hd.1, newline_not_mem_of_subset hline hd.subset⟩

/-- Each device has one directory, and no blank at either end of it. -/
theorem directory_of_find? {device : Text} {paths : List Text}
    (h : (parse text).devices.find? device = some paths) :
    ∃ path, paths = [path] ∧ (path ≠ [] ∧ '\n' ∉ path) ∧ Text.IsTrimmed path := by
  obtain ⟨path, hpaths, i, j, hb, -⟩ := find?_devices_ofLines.mp h
  obtain ⟨line, hline, hd⟩ := exists_line_of_getElem? hb.cachedir
  have hd : IsDirective "cachedir".toList path (Text.trimStart line) := hd
  exact ⟨path, hpaths, ⟨hd.1, newline_not_mem_of_subset hline hd.subset⟩, hd.isTrimmed⟩

end CacheHost.BlockConfig
