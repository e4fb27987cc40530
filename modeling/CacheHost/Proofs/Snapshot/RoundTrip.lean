import CacheHost.Proofs.Snapshot.Parts

namespace CacheHost

open Json

namespace Snapshot

theorem reads_processes (n : UInt32) :
    Reads readProcesses (text (.natural n.toUInt64)) (some n) := by
  obtain ⟨c, s, hs, hc⟩ := exists_cons_ofNat n.toUInt64.toNat
  have hr := reads_naturalNumber n.toUInt64
  have ht : text (natural n.toUInt64) = c :: s := hs
  refine ⟨hr.opens, fun rest hrest => ?_⟩
  have hn := hr.read rest hrest
  rw [ht] at hn ⊢
  have hne : c ≠ 'n' := by
    rintro rfl
    simp at hc
  have hlt : n.toUInt64.toNat < UInt32.size := by
    rw [UInt32.toNat_toUInt64]
    exact n.toNat_lt
  have hback : n.toUInt64.toUInt32 = n := UInt32.toUInt32_toUInt64 n
  rw [readProcesses, List.cons_append, skipSpace_cons (isSpace_of_isDigit hc)]
  split
  · rename_i h
    exact absurd (List.cons.inj h).1 hne
  · rw [← List.cons_append, hn, ok_bind]
    simp only [hlt, if_true, hback]

/-- The members that a snapshot reads by itself; the others are kept for the host. -/
def ownNames : List Text :=
  ["devices".toList, "dfree".toList, "ifaces".toList, "processes".toList]

theorem foldReads_others (d : Draft) {ms : List (Text × Json)} (hn : ∀ m ∈ ms, m.1 ∉ ownNames)
    (hr : ∀ m ∈ ms, Readable (maxDepth - 1) m.2) :
    FoldReads Draft.read d (ms.map fun m => (m.1, text m.2))
      { d with others := ms.reverse ++ d.others } := by
  induction ms generalizing d with
  | nil => exact .nil d
  | cons m ms ih =>
    obtain ⟨hm, hms⟩ := List.forall_mem_cons.mp hn
    obtain ⟨hv, hvs⟩ := List.forall_mem_cons.mp hr
    rw [List.reverse_cons, List.append_assoc]
    refine .cons (fun rest hrest => ?_) (ih { d with others := m :: d.others } hms hvs)
    simp only [ownNames, List.mem_cons, not_or] at hm
    simp only [Draft.read, hm, if_false]
    show (readValue .keep (maxDepth - 1) _ >>= _) = _
    rw [(reads_text hv).read rest hrest]
    rfl

def namedTexts (s : Snapshot) : List (Text × Text) :=
  s.host.members.map (fun m => (m.1, text m.2)) ++
    (("devices".toList, text (.ofMap .strings s.devices)) ::
      ("dfree".toList, text (.ofMap DiskFree.toJson s.dfree)) ::
      ("ifaces".toList, text (.ofMap InterfaceStat.toJson s.ifaces)) ::
      match s.processes with
      | some n => [("processes".toList, text (.natural n.toUInt64))]
      | none => [])

theorem text_toJson_append (s : Snapshot) (rest : Text) : text s.toJson ++ rest =
    '\x7b' :: ([','].intercalate (s.namedTexts.map memberText) ++ '\x7d' :: rest) := by
  rw [toJson, text_object_append, namedTexts]
  cases s.processes with
  | none => simp
  | some n => simp

theorem foldReads (s : Snapshot) (h : ∀ x ∈ s.host.loadavg.toList, ReadsBack x) :
    FoldReads Draft.read {} s.namedTexts ⟨some s.devices, some s.dfree, some s.ifaces,
      s.processes.map some, s.host.members.reverse⟩ := by
  have hn : ∀ m ∈ s.host.members, m.1 ∉ ownNames := by
    simp only [HostMetrics.members, List.forall_mem_cons]
    decide
  -- the host's members come first and are kept, the last one first, until all has been read
  have hhost := foldReads_others {} hn (s.host.readable_members h (maxDepth - 3))
  rw [List.append_nil] at hhost
  refine hhost.append ?_
  apply FoldReads.field (fun v => ⟨some v, none, none, none, s.host.members.reverse⟩)
    (reads_map fun ps _ => reads_texts ps) fun _ => rfl
  apply FoldReads.field (fun v => ⟨some s.devices, some v, none, none, s.host.members.reverse⟩)
    (reads_map fun d _ => d.reads (maxDepth - 3)) fun _ => rfl
  apply FoldReads.field
    (fun v => ⟨some s.devices, some s.dfree, some v, none, s.host.members.reverse⟩)
    (reads_map fun i _ => i.reads) fun _ => rfl
  cases s.processes with
  | none => exact .nil _
  | some n =>
    apply FoldReads.field
      (fun v => ⟨some s.devices, some s.dfree, some s.ifaces, some v, s.host.members.reverse⟩)
      (reads_processes n) fun _ => rfl
    exact .nil _

theorem finish_members (s : Snapshot) : Draft.finish ⟨some s.devices, some s.dfree, some s.ifaces,
    s.processes.map some, s.host.members.reverse⟩ = .ok s := by
  have hp : (s.processes.map some).getD none = s.processes := by
    cases s.processes <;> rfl
  simp only [Draft.finish, List.reverse_reverse, HostMetrics.ofMembers_members, hp]
  rfl

/-- The document of a snapshot decodes to this snapshot. Of its load averages it is assumed that the
text of each is read back as the number itself; an infinity has no text, so it is ruled out. -/
theorem decode_encode (s : Snapshot) (h : ∀ x ∈ s.host.loadavg.toList, ReadsBack x) :
    decode s.encode = .ok s := by
  have hread : read s.encode = .ok (s, []) := by
    rw [← List.append_nil s.encode, encode, text_toJson_append]
    show (foldMembers .keep Draft.read {} _ >>= _) = _
    rw [foldMembers_intercalate (s.foldReads h) [], ok_bind]
    simp only [finish_members]
  rw [decode, hread, ok_bind]
  rfl

def sample : Snapshot where
  host := ⟨0xFFFFFFFFFFFFFFFF, #v[0.5, 1.25, 16], 2, 1, [⟨"\"\\\x01".toList, 2400⟩], "ß\n".toList,
    -0x8000000000000000⟩
  devices := .ofList [("nbd \t0".toList, ["/dev/a".toList, []]), ([], [])]
  dfree := .ofList [("/dev/a".toList, .usage ⟨3, 2, 1⟩), ([], .unresolved)]
  ifaces := .ofList [("eth0".toList, ⟨["10.0.0.1".toList], [], 7, 0⟩)]
  processes := some 0xFFFFFFFF

theorem decode_encode_sample :
    (∀ x ∈ sample.host.loadavg.toList, ReadsBack x) ∧ decode sample.encode = .ok sample := by
  have h : ∀ x ∈ sample.host.loadavg.toList, ReadsBack x := by
    have hl : sample.host.loadavg.toList = [0.5, 1.25, 16] := rfl
    rw [hl]
    simp only [List.forall_mem_cons]
    exact ⟨⟨.number (.real 0.5), rfl, rfl⟩, ⟨.number (.real 1.25), rfl, rfl⟩,
      ⟨.number (.real 16), rfl, rfl⟩, by simp⟩
  exact ⟨h, sample.decode_encode h⟩

end Snapshot
end CacheHost
