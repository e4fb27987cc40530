import CacheHost.Proofs.DiskFree.Fill
import CacheHost.Proofs.NbdDump.Export

namespace CacheHost

def BlockConfig.mapListen (f : Text → Text) (c : BlockConfig) : BlockConfig :=
  { c with listen := c.listen.map f }

def NbdEntry.mapHost (f : Text → Text) (e : NbdEntry) : NbdEntry :=
  { e with host := e.host.map f }

def NbdDump.mapHosts (f : Text → Text) (dump : NbdDump) : NbdDump :=
  dump.map fun _ e => e.mapHost f

namespace BlockConfig
variable {c c' : BlockConfig} {dump dump' : NbdDump} {f : Text → Text}

/-- Only what is exported for the devices of a configuration counts. -/
theorem withExports_congr (hd : c'.devices = c.devices)
    (he : ∀ d ∈ c.devices.keys, c'.exports dump' d = c.exports dump d) :
    c'.withExports dump' = c.withExports dump := by
  apply SortedMap.ext_find?
  intro d
  rw [find?_withExports, find?_withExports, hd]
  by_cases hk : d ∈ c.devices.keys
  · rw [he d hk]
  · rw [SortedMap.find?_eq_none_iff.mpr hk]
    rfl

/-- An entry of which both hosts are renamed is served to the same device as before. -/
theorem exported?_mapHost (hf : Function.Injective f) (d : Text) (e : NbdEntry) :
    (c.mapListen f).exported? d (e.mapHost f) = c.exported? d e := by
  apply Option.ext
  intro path
  rw [exported?_eq_some_iff, exported?_eq_some_iff]
  obtain ⟨device, name, host⟩ := e
  simp only [mapListen, NbdEntry.mapHost, NbdEntry.mk.injEq, Option.map_eq_some_iff]
  -- that no two hosts become one counts from left to right only
  constructor
  · rintro ⟨_, ⟨listen, hl, rfl⟩, rfl, rfl, host, rfl, hh⟩
    obtain rfl := hf hh
    exact ⟨host, hl, rfl, rfl, rfl⟩
  · rintro ⟨listen, hl, rfl, rfl, rfl⟩
    exact ⟨f listen, ⟨listen, hl, rfl⟩, rfl, rfl, listen, rfl, rfl⟩

theorem exports_mapHosts (hf : Function.Injective f) (d : Text) :
    (c.mapListen f).exports (dump.mapHosts f) d = c.exports dump d := by
  rw [exports_eq_filterMap, exports_eq_filterMap, NbdDump.mapHosts, SortedMap.map,
    List.filterMap_map]
  congr 1
  funext e
  exact exported?_mapHost hf d e.2

theorem exports_eq_nil {d : Text} (h : ∀ index device host, c.listen = some host →
    dump.find? index ≠ some ⟨some device, some d, some host⟩) : c.exports dump d = [] := by
  apply List.eq_nil_iff_forall_not_mem.mpr
  intro path hp
  obtain ⟨host, index, hl, hi⟩ := mem_exports_iff.mp hp
  exact h index path host hl hi

/-- If all hosts get other names, and no two of them the same, then the devices stay, with their
usages and what `df` is asked. The devices also stay if the daemon listens elsewhere, as long as no
complete entry for a configured device is served from there, nor from where it listened before. -/
theorem withExports_only_compares_listen (c : BlockConfig) (dump : NbdDump) :
    (∀ f : Text → Text, Function.Injective f →
      let devices := (c.mapListen f).withExports (dump.mapHosts f)
      devices = c.withExports dump ∧
      DiskFreeMap.seed devices = .seed (c.withExports dump) ∧
      DiskReport.arguments (DiskFreeMap.seed devices).keys =
        DiskReport.arguments (DiskFreeMap.seed (c.withExports dump)).keys) ∧
    ∀ c' : BlockConfig, c'.devices = c.devices →
      (∀ index device name host,
        dump.find? index = some ⟨some device, some name, some host⟩ → name ∈ c.devices.keys →
          c.listen ≠ some host ∧ c'.listen ≠ some host) →
      c'.withExports dump = c.withExports dump := by
  refine ⟨fun f hf => ?_, fun c' hd hforeign => ?_⟩
  · have h : (c.mapListen f).withExports (dump.mapHosts f) = c.withExports dump :=
      withExports_congr rfl fun d _ => exports_mapHosts hf d
    exact ⟨h, by rw [h], by rw [h]⟩
  · apply withExports_congr hd
    intro d hk
    have hc : c.exports dump d = [] := exports_eq_nil fun index device host hl hi =>
      (hforeign index device d host hi hk).1 hl
    have hc' : c'.exports dump d = [] := exports_eq_nil fun index device host hl hi =>
      (hforeign index device d host hi hk).2 hl
    rw [hc, hc']

/-- One of the two hosts of the device starts with the other, an entry has no host, and from a third
host something is served to a device that is not configured. -/
def sampleHosts : NbdDump :=
  .ofList [(0, ⟨some "/n0".toList, some ['a'], some ['h']⟩),
    (1, ⟨some "/n1".toList, some ['a'], some ['h', '2']⟩),
    (2, ⟨some "/n2".toList, some ['a'], none⟩),
    (3, ⟨some "/n3".toList, some ['z'], some ['q']⟩)]

def sampleListening (listen : Option Text) : BlockConfig :=
  ⟨.ofList [(['a'], ["/c".toList])], listen⟩

theorem withExports_sampleListening :
    (Function.Injective (List.cons 'x') ∧
      ((sampleListening (some ['h'])).mapListen (List.cons 'x')).withExports
        (sampleHosts.mapHosts (List.cons 'x')) = .ofList [(['a'], ["/c".toList, "/n0".toList])]) ∧
    (∀ index device name host,
      sampleHosts.find? index = some ⟨some device, some name, some host⟩ →
        name ∈ (sampleListening (some ['q'])).devices.keys →
          some ['q'] ≠ some host ∧ none ≠ some host) ∧
    (sampleListening none).withExports sampleHosts =
      (sampleListening (some ['q'])).withExports sampleHosts := by
  have hf : Function.Injective (List.cons 'x') := List.cons_injective
  have hforeign : ∀ index device name host,
      sampleHosts.find? index = some ⟨some device, some name, some host⟩ →
        name ∈ (sampleListening (some ['q'])).devices.keys →
          some ['q'] ≠ some host ∧ none ≠ some host := by
    intro index device name host hi hk
    have he : ∀ e ∈ sampleHosts.entries, e.2.name = some ['a'] → e.2.host ≠ some ['q'] := by decide
    have ha : name = ['a'] := List.mem_singleton.mp hk
    have hq := he _ (SortedMap.find?_eq_some_iff.mp hi) (congrArg some ha)
    exact ⟨fun h => hq h.symm, by simp⟩
  have hx := (withExports_only_compares_listen (sampleListening (some ['h'])) sampleHosts).1 _ hf
  exact ⟨⟨hf, hx.1.trans (by decide)⟩, hforeign,
    (withExports_only_compares_listen (sampleListening (some ['q'])) sampleHosts).2
      (sampleListening none) rfl hforeign⟩

end BlockConfig
end CacheHost
