import CacheHost.Proofs.Json.Printing
import CacheHost.Proofs.Json.Unambiguous
import CacheHost.Proofs.Snapshot.Parts
import CacheHost.Proofs.Text.Order

namespace CacheHost
open Json

namespace Json

def Form.ofStrings (ss : List Text) : Form := .array (ss.map .string)

def Form.ofInteger (n : Int64) : Form :=
  .number ⟨decide (n < 0), Text.ofNat n.toInt.natAbs, none, none⟩

/-- A finite number is shown by the numeral that it is printed as. There is none for an infinity and
for what is no number. -/
def ShowsReal (x : Float) (v : Form) : Prop :=
  if x.isFinite then ∃ t y, layout.text? x = some t ∧ ShowsNumeral t y ∧ v = .number y
  else v = .null

/-- Members that show a map: one for each entry, in the order of the bytes of the keys. -/
structure ShowsMap {α : Type} (Shows : α → Form → Prop) (m : SortedMap Text α)
    (es : List (Text × Form)) : Prop where
  entries : List.Forall₂ (fun e f => f.1 = e.1 ∧ Shows e.2 f.2) m.entries es
  increasing : (es.map (·.1)).Pairwise fun p q => Utf8.encode p < Utf8.encode q

theorem form_strings (ss : List Text) : (Json.strings ss).form = .ofStrings ss := by
  rw [strings, form, itemForms_eq_map, List.map_map]
  rfl

theorem form_natural (n : UInt64) : (natural n).form = .ofNatural n := rfl

theorem form_integer (n : Int64) : (integer n).form = .ofInteger n := by
  have hint := toInt_eq_toUInt64 n
  have hlt := n.toUInt64.toNat_lt
  unfold integer Form.ofInteger
  by_cases h : 0 ≤ n
  · have hsign : decide (n < 0) = false := decide_eq_false (Int64.not_lt.mpr h)
    have hn := (nonneg_iff_toUInt64 n).mp h
    have habs : n.toInt.natAbs = n.toUInt64.toNat := by
      rw [hint, if_pos hn, Int.natAbs_natCast]
    rw [if_pos h, hsign, habs]
    rfl
  · have hsign : decide (n < 0) = true := decide_eq_true (Int64.not_le.mp h)
    have hn := (nonneg_iff_toUInt64 n).not.mp h
    have habs : n.toInt.natAbs = (-n).toUInt64.toNat := by
      rw [hint, if_neg hn, toNat_neg_toUInt64 h]
      omega
    rw [if_neg h, hsign, habs]
    rfl

theorem showsReal_form (x : Float) : ShowsReal x (Json.form (.number (.real x))) := by
  show ShowsReal x (Form.ofReal x)
  cases ht : layout.text? x with
  | none =>
    have hx : x.isFinite = false := Binary64.Layout.text?_eq_none_iff.mp ht
    rw [ShowsReal, hx, Form.ofReal, ht]
    rfl
  | some t =>
    have hx : x.isFinite = true := by
      rw [← Bool.not_eq_false, ← Binary64.Layout.text?_eq_none_iff, ht]
      exact Option.some_ne_none t
    obtain ⟨y, hy, hshows⟩ := exists_number_ofReal ht
    rw [ShowsReal, if_pos hx]
    exact ⟨t, y, ht, hshows, hy⟩

theorem showsMap_form {α : Type} {value : α → Json} {Shows : α → Form → Prop}
    (h : ∀ x, Shows x (value x).form) (m : SortedMap Text α) :
    ∃ es, (Json.ofMap value m).form = .object es ∧ ShowsMap Shows m es := by
  refine ⟨m.entries.map fun e => (e.1, (value e.2).form), ?_, ?_, ?_⟩
  · simp [ofMap, form, memberForms_eq_map]
  · rw [List.forall₂_map_right_iff, List.forall₂_same]
    exact fun e _ => ⟨rfl, h e.2⟩
  · rw [List.map_map]
    exact List.pairwise_map.mpr (m.increasing.imp Utf8.encode_lt_of_compare)

end Json

def Cpu.form (c : Cpu) : Form :=
  .object [("model".toList, .string c.model), ("speed".toList, .ofNatural c.speed)]

def InterfaceStat.form (i : InterfaceStat) : Form :=
  .object [("IPv4".toList, .ofStrings i.ipv4), ("IPv6".toList, .ofStrings i.ipv6),
    ("rx".toList, .ofNatural i.rx), ("tx".toList, .ofNatural i.tx)]

structure DiskFree.IsShownBy (d : DiskFree) (v : Form) : Prop where
  zero : v.IsNatural 0 ↔ d = .unresolved
  sizes : ∀ u, d = .usage u → v = .object [("size".toList, .ofNatural u.size),
    ("used".toList, .ofNatural u.used), ("avail".toList, .ofNatural u.avail)]

theorem InterfaceStat.form_toJson (i : InterfaceStat) : i.toJson.form = i.form := by
  simp only [toJson, Json.form, memberForms, form_strings, form_natural, InterfaceStat.form]

theorem DiskFree.isShownBy_form (d : DiskFree) : d.IsShownBy d.toJson.form := by
  cases d with
  | unresolved => exact ⟨⟨fun _ => rfl, fun _ => isNatural_ofNatural 0⟩, nofun⟩
  | usage u =>
    refine ⟨⟨?_, nofun⟩, ?_⟩
    · rintro ⟨_, h, -⟩
      simp [toJson, DiskUsage.toJson, Json.form] at h
    · rintro _ ⟨⟩
      rfl

namespace Snapshot

/-- What the members of a document tell. Each name stands once, so the member of a name is the only
one. -/
structure IsToldBy (s : Snapshot) (ms : List (Text × Form)) : Prop where
  names : ms.map (·.1) = ["uptime".toList, "loadavg".toList, "totalmem".toList, "freemem".toList,
    "cpus".toList, "hostname".toList, "utc".toList, "devices".toList, "dfree".toList,
    "ifaces".toList] ++ if s.processes.isSome then ["processes".toList] else []
  uptime : ("uptime".toList, .ofNatural s.host.uptime) ∈ ms
  loadavg : ∃ vs, ("loadavg".toList, .array vs) ∈ ms ∧
    List.Forall₂ ShowsReal s.host.loadavg.toList vs
  totalmem : ("totalmem".toList, .ofNatural s.host.totalmem) ∈ ms
  freemem : ("freemem".toList, .ofNatural s.host.freemem) ∈ ms
  cpus : ("cpus".toList, .array (s.host.cpus.map Cpu.form)) ∈ ms
  hostname : ("hostname".toList, .string s.host.hostname) ∈ ms
  utc : ("utc".toList, .ofInteger s.host.utc) ∈ ms
  devices : ∃ es, ("devices".toList, .object es) ∈ ms ∧
    ShowsMap (fun paths v => v = .ofStrings paths) s.devices es
  dfree : ∃ es, ("dfree".toList, .object es) ∈ ms ∧ ShowsMap DiskFree.IsShownBy s.dfree es
  ifaces : ∃ es, ("ifaces".toList, .object es) ∈ ms ∧
    ShowsMap (fun i v => v = i.form) s.ifaces es
  processes : ∀ n, s.processes = some n → ("processes".toList, .ofNatural n.toUInt64) ∈ ms

theorem form_members (h : HostMetrics) : memberForms h.members =
    [("uptime".toList, .ofNatural h.uptime),
      ("loadavg".toList, .array (h.loadavg.toList.map fun x => Json.form (.number (.real x)))),
      ("totalmem".toList, .ofNatural h.totalmem), ("freemem".toList, .ofNatural h.freemem),
      ("cpus".toList, .array (h.cpus.map Cpu.form)), ("hostname".toList, .string h.hostname),
      ("utc".toList, .ofInteger h.utc)] := by
  have hcpu : ∀ c : Cpu, c.toJson.form = c.form := fun _ => rfl
  simp only [HostMetrics.members, memberForms, Json.form, itemForms_eq_map, List.map_map,
    form_integer, Function.comp_def, hcpu]
  rfl

theorem isToldBy_form (s : Snapshot) : ∃ ms, s.toJson.form = .object ms ∧ s.IsToldBy ms := by
  obtain ⟨devices, hdevices, hds⟩ :=
    @showsMap_form _ _ (fun paths v => v = Form.ofStrings paths) form_strings s.devices
  obtain ⟨dfree, hdfree, hfs⟩ :=
    @showsMap_form _ _ DiskFree.IsShownBy DiskFree.isShownBy_form s.dfree
  obtain ⟨ifaces, hifaces, his⟩ :=
    @showsMap_form _ _ (fun i v => v = InterfaceStat.form i) InterfaceStat.form_toJson s.ifaces
  have hform : s.toJson.form = .object (memberForms s.host.members ++
      ([("devices".toList, .object devices), ("dfree".toList, .object dfree),
        ("ifaces".toList, .object ifaces)] ++
      (s.processes.map fun n => ("processes".toList, Form.ofNatural n.toUInt64)).toList)) := by
    -- the count of processes is the only member that may be missing
    cases hp : s.processes <;>
      simp [toJson, Json.form, memberForms_eq_map, hp, hdevices, hdfree, hifaces, form_natural]
  refine ⟨_, hform, ?_⟩
  rw [form_members]
  exact {
    names := by cases s.processes <;> rfl
    uptime := by simp
    loadavg := by
      refine ⟨s.host.loadavg.toList.map fun x => Json.form (.number (.real x)), by simp, ?_⟩
      rw [List.forall₂_map_right_iff, List.forall₂_same]
      exact fun x _ => showsReal_form x
    totalmem := by simp
    freemem := by simp
    cpus := by simp
    hostname := by simp
    utc := by simp
    devices := ⟨devices, by simp, hds⟩
    dfree := ⟨dfree, by simp, hfs⟩
    ifaces := ⟨ifaces, by simp, his⟩
    processes := by
      intro n hn
      simp [hn] }

/-- The document of a snapshot is JSON without a control character, and denotes one object that
tells the snapshot, and nothing else. -/
theorem encode_denotes_document (s : Snapshot) : (∀ c ∈ s.encode, 0x20 ≤ c.toNat) ∧
    ∃ ms, (∀ v, Denotes s.encode v ↔ v = .object ms) ∧ s.IsToldBy ms := by
  obtain ⟨ms, hms, htold⟩ := s.isToldBy_form
  have hdenotes : Denotes s.encode (.object ms) := hms ▸ denotes_text s.toJson
  refine ⟨isPrintable_text s.toJson, ms, fun v => ⟨fun hv => hv.unique hdenotes, ?_⟩, htold⟩
  rintro rfl
  exact hdenotes

/-- Load averages that are no numbers, and strings of which each character has to be escaped or is
beyond the first 65536. -/
def oddSample : Snapshot where
  host := { loadavg := #v[0 / 0, -1 / 0, 0.5], hostname := "\"\\\x01\n😀".toList, utc := -1 }
  devices := .ofList [("b".toList, ["\t".toList]), ([], [])]
  dfree := .ofList [("\t".toList, .usage ⟨3, 2, 1⟩), ([], .unresolved)]

theorem encode_oddSample :
    oddSample.encode = ("\x7b\"uptime\":0,\"loadavg\":[null,null,0.5],\"totalmem\":0," ++
      "\"freemem\":0,\"cpus\":[],\"hostname\":\"\\\"\\\\\\u0001\\n😀\",\"utc\":-1," ++
      "\"devices\":\x7b\"\":[],\"b\":[\"\\t\"]\x7d," ++
      "\"dfree\":\x7b\"\":0,\"\\t\":\x7b\"size\":3,\"used\":2,\"avail\":1\x7d\x7d," ++
      "\"ifaces\":\x7b\x7d\x7d").toList ∧
    ('😀' ∈ oddSample.encode ∧ 0x20 ≤ '😀'.toNat) ∧
    ∃ ms, (∀ v, Denotes oddSample.encode v ↔ v = .object ms) ∧ oddSample.IsToldBy ms := by
  have hmem : '😀' ∈ oddSample.encode := by decide +kernel
  exact ⟨by decide +kernel, ⟨hmem, (encode_denotes_document oddSample).1 _ hmem⟩,
    (encode_denotes_document oddSample).2⟩

end Snapshot
end CacheHost
