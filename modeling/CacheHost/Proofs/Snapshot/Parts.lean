import CacheHost.Proofs.Json.Value
import CacheHost.Proofs.SortedMap

namespace CacheHost
open Json

namespace Json

theorem reads_text_value (s : Text) : Reads readText (text (.string s)) s where
  opens := ⟨'"', _, rfl, by decide, by decide⟩
  read rest _ := by
    have ht : text (.string s) ++ rest = '"' :: (s.flatMap escapedChar ++ '"' :: rest) := by
      simp [text, stringText]
    rw [ht]
    show readString .keep _ = _
    exact readString_quoted .keep s rest

theorem reads_texts (ss : List Text) : Reads readTexts (text (.strings ss)) ss where
  opens := ⟨'[', _, rfl, by decide, by decide⟩
  read rest _ := by
    rw [strings, text_array_append, List.map_map]
    show readItems readText _ = _
    exact readItems_intercalate (fun s _ => reads_text_value s) rest

theorem reads_naturalNumber (n : UInt64) : Reads readNatural (text (natural n)) n := by
  obtain ⟨c, s, hs, hc⟩ := exists_cons_ofNat n.toNat
  have ht : text (natural n) = c :: s := hs
  have hm : c ≠ '-' := by
    rintro rfl
    simp at hc
  refine ⟨ht ▸ opens_digit hc s, fun rest hr => ?_⟩
  have hn := readNumber_ofNat false n.toNat_lt_size
  rw [hs] at hn
  rw [ht, List.cons_append]
  simp only [readNatural, skipSpace_cons (isSpace_of_isDigit hc), hc, hm, if_false, or_true, if_true]
  rw [← List.cons_append, readNumber_append hn hr]
  simp [Number.ofWhole, ok_bind]

theorem reads_map {α : Type} {value : Reader α} {toJson : α → Json} {m : SortedMap Text α}
    (h : ∀ v ∈ m.values, Reads value (text (toJson v)) v) :
    Reads (readMap value) (text (.ofMap toJson m)) m where
  opens := ⟨'\x7b', _, rfl, by decide, by decide⟩
  read rest _ := by
    have ht : text (.ofMap toJson m) ++ rest = '\x7b' :: ([','].intercalate
        ((m.entries.map fun e => (e.1, text (toJson e.2))).map memberText) ++ '\x7d' :: rest) := by
      simp [ofMap, text_object_append, Function.comp_def]
    rw [ht]
    show (readMembers .keep value _).map _ = _
    rw [readMembers_intercalate (fun v => text (toJson v)) fun e he =>
      h e.2 (List.mem_map.mpr ⟨e, he, rfl⟩)]
    simp [Except.map, SortedMap.ofList_entries]

end Json

theorem DiskUsage.ofJson_toJson (u : DiskUsage) : DiskUsage.ofJson u.toJson = .ok u := rfl

theorem DiskFree.ofJson_toJson (d : DiskFree) : DiskFree.ofJson d.toJson = .ok d := by
  cases d with
  | unresolved => rfl
  | usage u =>
    simp only [DiskFree.toJson, DiskFree.ofJson, DiskUsage.ofJson_toJson]

theorem DiskFree.readable_toJson (d : DiskFree) (depth : Nat) : Readable (depth + 1) d.toJson := by
  cases d with
  | unresolved => exact .natural 0
  | usage u =>
    apply Readable.object
    simp only [List.forall_mem_cons]
    exact ⟨.natural _, .natural _, .natural _, by simp⟩

theorem DiskFree.reads (d : DiskFree) (depth : Nat) :
    Reads (DiskFree.read (depth + 1)) (text d.toJson) d where
  opens := (reads_text (d.readable_toJson depth)).opens
  read rest hr := by
    rw [DiskFree.read, (reads_text (d.readable_toJson depth)).read rest hr, ok_bind]
    simp only [DiskFree.ofJson_toJson]

namespace Json

/-- A member that is given for the first time is read from behind its colon. -/
theorem FoldReads.field {α σ : Type} {member : σ → Text → Reader σ} {a c : σ} {name t : Text}
    {ms : List (Text × Text)} {value : Reader α} {x : α} (set : α → σ) (hx : Reads value t x)
    (hm : ∀ s, member a name s =
      (readField name none value s >>= fun p => .ok (set p.1, p.2)))
    (hs : FoldReads member (set x) ms c) : FoldReads member a ((name, t) :: ms) c := by
  refine .cons (fun rest hr => ?_) hs
  rw [hm]
  show (value _ >>= _) = _
  rw [hx.read rest hr]
  rfl

end Json

theorem InterfaceStat.foldReads (i : InterfaceStat) : FoldReads Draft.read {}
    [("IPv4".toList, text (.strings i.ipv4)), ("IPv6".toList, text (.strings i.ipv6)),
      ("rx".toList, text (.natural i.rx)), ("tx".toList, text (.natural i.tx))]
    ⟨some i.ipv4, some i.ipv6, some i.rx, some i.tx⟩ := by
  apply FoldReads.field (fun v => ⟨some v, none, none, none⟩) (reads_texts i.ipv4) fun _ => rfl
  apply FoldReads.field (fun v => ⟨some i.ipv4, some v, none, none⟩) (reads_texts i.ipv6)
    fun _ => rfl
  apply FoldReads.field (fun v => ⟨some i.ipv4, some i.ipv6, some v, none⟩)
    (reads_naturalNumber i.rx) fun _ => rfl
  apply FoldReads.field (fun v => ⟨some i.ipv4, some i.ipv6, some i.rx, some v⟩)
    (reads_naturalNumber i.tx) fun _ => rfl
  exact .nil _

theorem InterfaceStat.reads (i : InterfaceStat) : Reads InterfaceStat.read (text i.toJson) i where
  opens := ⟨'\x7b', _, rfl, by decide, by decide⟩
  read rest _ := by
    rw [InterfaceStat.toJson, text_object_append]
    show (foldMembers .keep Draft.read {} _ >>= _) = _
    exact bind_eq_ok_iff.mpr ⟨_, foldMembers_intercalate i.foldReads rest, rfl⟩

namespace Json

theorem toInt_eq_toUInt64 (n : Int64) : n.toInt =
    if n.toUInt64.toNat < 0x8000000000000000 then (n.toUInt64.toNat : Int)
    else n.toUInt64.toNat - (2 ^ 64 : Nat) := by
  have hint : n.toInt = if 2 * n.toUInt64.toNat < 2 ^ 64 then (n.toUInt64.toNat : Int)
      else n.toUInt64.toNat - (2 ^ 64 : Nat) := BitVec.toInt_eq_toNat_cond n.toBitVec
  rw [hint]
  split <;> split <;> omega

/-- The sign of an integer is its upper bit. -/
theorem nonneg_iff_toUInt64 (n : Int64) : 0 ≤ n ↔ n.toUInt64.toNat < 0x8000000000000000 := by
  have hlt := n.toUInt64.toNat_lt
  rw [Int64.le_iff_toInt_le, toInt_eq_toUInt64 n]
  show (0 : Int) ≤ _ ↔ _
  split <;> omega

theorem toNat_neg_toUInt64 {n : Int64} (h : ¬0 ≤ n) :
    (-n).toUInt64.toNat = 2 ^ 64 - n.toUInt64.toNat := by
  have hn := (nonneg_iff_toUInt64 n).not.mp h
  have hsize : UInt64.size = 2 ^ 64 := rfl
  have hmod : UInt64.size - n.toUInt64.toNat < UInt64.size := Nat.sub_lt (by decide) (by omega)
  rw [Int64.toUInt64_neg, UInt64.toNat_neg, Nat.mod_eq_of_lt hmod, hsize]

theorem toInteger_integer (n : Int64) : (Json.integer n).toInteger = .ok n := by
  unfold integer
  split
  · rename_i h
    simp only [toInteger, (nonneg_iff_toUInt64 n).mp h, if_true, Int64.toInt64_toUInt64]
  · simp only [toInteger, Int64.toInt64_toUInt64, Int64.neg_neg]

theorem readable_integer (n : Int64) (depth : Nat) : Readable depth (.integer n) := by
  unfold integer
  split
  · exact .natural _
  · rename_i h
    have hn := (nonneg_iff_toUInt64 n).not.mp h
    have hlt := n.toUInt64.toNat_lt
    have hneg := toNat_neg_toUInt64 h
    exact .negative (by omega) (by omega)

end Json

theorem Cpu.mapM_ofJson (cs : List Cpu) : (cs.map Cpu.toJson).mapM Cpu.ofJson = .ok cs := by
  induction cs with
  | nil => rfl
  | cons c cs ih =>
    have hc : Cpu.ofJson c.toJson = .ok c := rfl
    rw [List.map_cons, List.mapM_cons, hc, ih]
    rfl

namespace HostMetrics

theorem loadavgOf_members (v : Vector Float 3) :
    loadavgOf (.array (v.toList.map fun x => .number (.real x))) = .ok v := by
  obtain ⟨⟨l⟩, h⟩ := v
  match l, h with
  | [a, b, c], _ => rfl

/-- What is left of the members is put to the draft that the first of them gives. -/
theorem Draft.foldlM_add {d e r : Draft} {m : Text × Json} {ms : List (Text × Json)}
    (hm : d.add m = .ok e) (hs : ms.foldlM add e = .ok r) : (m :: ms).foldlM add d = .ok r := by
  rw [List.foldlM_cons, hm, ok_bind, hs]

theorem ofMembers_members (h : HostMetrics) : ofMembers h.members = .ok h := by
  have hd : h.members.foldlM Draft.add {} = .ok ⟨some h.uptime, some h.loadavg, some h.totalmem,
      some h.freemem, some h.cpus, some h.hostname, some h.utc⟩ := by
    apply Draft.foldlM_add (e := { uptime := some h.uptime }) rfl
    apply Draft.foldlM_add (e := { uptime := some h.uptime, loadavg := some h.loadavg })
    · show (setField _ none (loadavgOf _) >>= _) = _
      rw [loadavgOf_members]
      rfl
    apply Draft.foldlM_add rfl
    apply Draft.foldlM_add rfl
    apply Draft.foldlM_add (e := ⟨some h.uptime, some h.loadavg, some h.totalmem, some h.freemem,
      some h.cpus, none, none⟩)
    · show (setField _ none (cpusOf _) >>= _) = _
      rw [cpusOf, Cpu.mapM_ofJson]
      rfl
    apply Draft.foldlM_add rfl
    apply Draft.foldlM_add ?_ rfl
    show (setField _ none (toInteger _) >>= _) = _
    rw [toInteger_integer]
    rfl
  rw [ofMembers, hd]
  rfl

theorem readable_members (h : HostMetrics) (hr : ∀ x ∈ h.loadavg.toList, ReadsBack x)
    (depth : Nat) : ∀ m ∈ h.members, Readable (depth + 2) m.2 := by
  simp only [members, List.forall_mem_cons]
  refine ⟨.natural _, .array fun v hv => ?_, .natural _, .natural _, .array fun v hv => ?_,
    .string _, readable_integer _ _, by simp⟩
  · obtain ⟨x, hx, rfl⟩ := List.mem_map.mp hv
    exact .real (hr x hx)
  · obtain ⟨c, -, rfl⟩ := List.mem_map.mp hv
    apply Readable.object
    simp only [List.forall_mem_cons]
    exact ⟨.string _, .natural _, by simp⟩

end HostMetrics

end CacheHost
