import CacheHost.Interface
import CacheHost.Proofs.SortedMap
import Mathlib.Data.List.Induction

namespace CacheHost

namespace Interface

def IsExternal (i : Interface) : Prop := ∃ a ∈ i.addresses, a.isLoopback = false

/-- What an interface gives after the reads `past`: its addresses other than loopback ones, and its
two counters, if it has such an address and both counters can be read. -/
structure Gives (live : LiveCounters) (past : List (Text × Counter)) (i : Interface)
    (stat : InterfaceStat) : Prop where
  external : i.IsExternal
  ipv4 : stat.ipv4 = (i.addresses.filter fun a => a.isV4 && !a.isLoopback).map Address.text
  ipv6 : stat.ipv6 = (i.addresses.filter fun a => !a.isV4 && !a.isLoopback).map Address.text
  rx : live past i.name .rx = .ok stat.rx
  tx : live (past ++ [(i.name, .rx)]) i.name .tx = .ok stat.tx

inductive Asks (live : LiveCounters) (past : List (Text × Counter)) (i : Interface) :
    List (Text × Counter) → Prop
  | nothing (h : ¬i.IsExternal) : Asks live past i []
  | first {e : StageError} (h : i.IsExternal) (hrx : live past i.name .rx = .error e) :
    Asks live past i [(i.name, .rx)]
  | both {rx : UInt64} (h : i.IsExternal) (hrx : live past i.name .rx = .ok rx) :
    Asks live past i [(i.name, .rx), (i.name, .tx)]

theorem isExternal_iff {i : Interface} : i.IsExternal ↔ i.external ≠ [] := by
  simp [IsExternal, external, List.filter_eq_nil_iff]

variable {live : LiveCounters} {past : List (Text × Counter)} {i : Interface}

theorem gives_iff {stat : InterfaceStat} : i.Gives live past stat ↔
    i.external ≠ [] ∧ ∃ rx tx, live past i.name .rx = .ok rx ∧
      live (past ++ [(i.name, .rx)]) i.name .tx = .ok tx ∧ stat = i.stat rx tx := by
  have hstat : ∀ rx tx, i.stat rx tx =
      ⟨(i.addresses.filter fun a => a.isV4 && !a.isLoopback).map Address.text,
        (i.addresses.filter fun a => !a.isV4 && !a.isLoopback).map Address.text, rx, tx⟩ := by
    intro rx tx
    simp [Interface.stat, external, List.filter_filter]
  constructor
  · intro h
    refine ⟨isExternal_iff.mp h.external, stat.rx, stat.tx, h.rx, h.tx, ?_⟩
    rw [hstat, ← h.ipv4, ← h.ipv6]
  · rintro ⟨he, rx, tx, hrx, htx, rfl⟩
    rw [hstat]
    exact ⟨isExternal_iff.mpr he, rfl, rfl, hrx, htx⟩

theorem Gives.unique {stat stat' : InterfaceStat} (h : i.Gives live past stat)
    (h' : i.Gives live past stat') : stat = stat' := by
  have hrx : stat.rx = stat'.rx := Except.ok.inj (h.rx.symm.trans h'.rx)
  have htx : stat.tx = stat'.tx := Except.ok.inj (h.tx.symm.trans h'.tx)
  have h4 : stat.ipv4 = stat'.ipv4 := h.ipv4.trans h'.ipv4.symm
  have h6 : stat.ipv6 = stat'.ipv6 := h.ipv6.trans h'.ipv6.symm
  cases stat
  cases stat'
  simp_all

end Interface

namespace Survey
variable {live : LiveCounters}

/-- What one more interface does to a survey. -/
theorem add_cases (live : LiveCounters) (s : Survey) (i : Interface) :
    (∃ reads, i.Asks live s.reads reads ∧ (s.add live i).reads = s.reads ++ reads) ∧
    ((∃ stat, i.Gives live s.reads stat ∧ (s.add live i).stats = s.stats.insert i.name stat) ∨
      ((∀ stat, ¬i.Gives live s.reads stat) ∧ (s.add live i).stats = s.stats)) := by
  by_cases he : i.external = []
  · -- the counters of this interface are not even read
    have hadd : s.add live i = s := if_pos he
    have hx : ¬i.IsExternal := fun h => Interface.isExternal_iff.mp h he
    rw [hadd]
    exact ⟨⟨[], .nothing hx, (List.append_nil _).symm⟩, .inr ⟨fun _ h => hx h.external, rfl⟩⟩
  have hx : i.IsExternal := Interface.isExternal_iff.mpr he
  cases hrx : live s.reads i.name .rx with
  | error e =>
    have hadd : s.add live i = { s with reads := s.reads ++ [(i.name, .rx)] } := by
      simp only [add, if_neg he, hrx]
    rw [hadd]
    exact ⟨⟨_, .first hx hrx, rfl⟩, .inr ⟨fun _ h => by simpa [hrx] using h.rx, rfl⟩⟩
  | ok rx =>
    have hboth : i.Asks live s.reads [(i.name, .rx), (i.name, .tx)] := .both hx hrx
    cases htx : live (s.reads ++ [(i.name, .rx)]) i.name .tx with
    | error e =>
      have hadd : s.add live i =
          { s with reads := s.reads ++ [(i.name, .rx)] ++ [(i.name, .tx)] } := by
        simp only [add, if_neg he, hrx, htx]
      rw [hadd]
      exact ⟨⟨_, hboth, List.append_assoc ..⟩, .inr ⟨fun _ h => by simpa [htx] using h.tx, rfl⟩⟩
    | ok tx =>
      have hadd : s.add live i = ⟨s.stats.insert i.name (i.stat rx tx),
          s.reads ++ [(i.name, .rx)] ++ [(i.name, .tx)]⟩ := by
        simp only [add, if_neg he, hrx, htx]
      rw [hadd]
      exact ⟨⟨_, hboth, List.append_assoc ..⟩,
        .inl ⟨_, Interface.gives_iff.mpr ⟨he, rx, tx, hrx, htx, rfl⟩, rfl⟩⟩

theorem ofLive_concat (live : LiveCounters) (is : List Interface) (i : Interface) :
    ofLive live (is ++ [i]) = (ofLive live is).add live i := by
  rw [ofLive, List.foldl_concat]
  rfl

theorem stats_ofLive_concat {is : List Interface} {i : Interface}
    (h : ∀ stat, ¬i.Gives live (ofLive live is).reads stat) :
    (ofLive live (is ++ [i])).stats = (ofLive live is).stats := by
  rw [ofLive_concat]
  rcases (add_cases live (ofLive live is) i).2 with ⟨stat, hs, -⟩ | ⟨-, hs⟩
  · exact absurd hs (h stat)
  · exact hs

/-- The reads made for interfaces one after the other, each after the reads for those before it. -/
inductive Asks (live : LiveCounters) :
    List (Text × Counter) → List Interface → List (Text × Counter) → Prop
  | nil {past : List (Text × Counter)} : Asks live past [] []
  | cons {past reads rest : List (Text × Counter)} {i : Interface} {is : List Interface}
    (h : i.Asks live past reads) (hs : Asks live (past ++ reads) is rest) :
    Asks live past (i :: is) (reads ++ rest)

theorem exists_asks (live : LiveCounters) (is : List Interface) (s : Survey) :
    ∃ reads, Asks live s.reads is reads ∧ (is.foldl (add live) s).reads = s.reads ++ reads := by
  induction is generalizing s with
  | nil => exact ⟨[], .nil, (List.append_nil _).symm⟩
  | cons i is ih =>
    obtain ⟨reads, h, hadd⟩ := (add_cases live s i).1
    obtain ⟨rest, hs, hrest⟩ := ih (s.add live i)
    rw [hadd] at hs hrest
    exact ⟨reads ++ rest, .cons h hs, by rw [List.foldl_cons, hrest, List.append_assoc]⟩

theorem asks_ofLive (live : LiveCounters) (is : List Interface) :
    Asks live [] is (ofLive live is).reads := by
  obtain ⟨reads, h, hreads⟩ := exists_asks live is {}
  rw [ofLive, hreads]
  exact h

def GivesAt (live : LiveCounters) (before : List Interface) (i : Interface) (name : Text)
    (stat : InterfaceStat) : Prop :=
  i.name = name ∧ i.Gives live (ofLive live before).reads stat

def GivesLast (live : LiveCounters) (is : List Interface) (name : Text) (stat : InterfaceStat) :
    Prop :=
  ∃ before i after, is = before ++ i :: after ∧ GivesAt live before i name stat ∧
    ∀ mid j rest, after = mid ++ j :: rest → ∀ st, ¬GivesAt live (before ++ i :: mid) j name st

theorem not_givesLast_nil {name : Text} {stat : InterfaceStat} : ¬GivesLast live [] name stat := by
  rintro ⟨before, i, after, h, -⟩
  simp at h

/-- What is picked from a list with one more item is this item, or stands before it. -/
theorem concat_eq_append_cons_iff {is before after : List Interface} {i j : Interface} :
    is ++ [i] = before ++ j :: after ↔
      (after = [] ∧ before = is ∧ j = i) ∨ ∃ mid, after = mid ++ [i] ∧ is = before ++ j :: mid := by
  constructor
  · intro h
    rcases List.eq_nil_or_concat after with rfl | ⟨mid, k, rfl⟩
    · obtain ⟨rfl, hj⟩ := List.append_inj' h rfl
      exact .inl ⟨rfl, rfl, (List.singleton_inj.mp hj).symm⟩
    · rw [List.concat_eq_append, ← List.cons_append, ← List.append_assoc] at h
      obtain ⟨his, hk⟩ := List.append_inj' h rfl
      exact .inr ⟨mid, by simp [List.singleton_inj.mp hk], his⟩
  · rintro (⟨rfl, rfl, rfl⟩ | ⟨mid, rfl, rfl⟩)
    · rfl
    · simp

theorem givesLast_concat_of_givesAt {is : List Interface} {i : Interface} {name : Text}
    {stat stat' : InterfaceStat} (h : GivesAt live is i name stat) :
    GivesLast live (is ++ [i]) name stat' ↔ stat = stat' := by
  constructor
  · rintro ⟨before, j, after, hs, hj, hlast⟩
    rcases concat_eq_append_cons_iff.mp hs with ⟨rfl, rfl, rfl⟩ | ⟨mid, rfl, rfl⟩
    · exact h.2.unique hj.2
    · exact absurd h (hlast mid i [] rfl stat)
  · rintro rfl
    exact ⟨is, i, [], rfl, h, by simp⟩

theorem givesLast_concat_of_not {is : List Interface} {i : Interface} {name : Text}
    {stat : InterfaceStat} (h : ∀ st, ¬GivesAt live is i name st) :
    GivesLast live (is ++ [i]) name stat ↔ GivesLast live is name stat := by
  constructor
  · rintro ⟨before, j, after, hs, hj, hlast⟩
    rcases concat_eq_append_cons_iff.mp hs with ⟨rfl, rfl, rfl⟩ | ⟨mid, rfl, rfl⟩
    · exact absurd hj (h stat)
    · refine ⟨before, j, mid, rfl, hj, fun mid' k rest hmid => ?_⟩
      exact hlast mid' k (rest ++ [i]) (by simp [hmid])
  · rintro ⟨before, j, after, rfl, hj, hlast⟩
    refine ⟨before, j, after ++ [i], by simp, hj, fun mid k rest hmid => ?_⟩
    rcases concat_eq_append_cons_iff.mp hmid with ⟨-, rfl, rfl⟩ | ⟨rest', -, hafter⟩
    · exact h
    · exact hlast mid k rest' hafter

theorem find?_stats_ofLive {is : List Interface} {name : Text} {stat : InterfaceStat} :
    (ofLive live is).stats.find? name = some stat ↔ GivesLast live is name stat := by
  induction is using List.reverseRecOn with
  | nil => simp [ofLive, not_givesLast_nil]
  | append_singleton is i ih =>
    rw [ofLive_concat]
    rcases (add_cases live (ofLive live is) i).2 with ⟨st, hg, hs⟩ | ⟨hn, hs⟩
    · rw [hs, SortedMap.find?_insert]
      split
      · rename_i hname
        rw [givesLast_concat_of_givesAt ⟨hname, hg⟩, Option.some.injEq]
      · rename_i hname
        rw [givesLast_concat_of_not fun _ h => hname h.1, ih]
    · rw [hs, givesLast_concat_of_not fun st h => hn st h.2, ih]

/-- If any interface of a name gives something, then one of them is the last to do so. -/
theorem exists_givesLast {is before after : List Interface} {i : Interface} {name : Text}
    {stat : InterfaceStat} (hs : is = before ++ i :: after) (h : GivesAt live before i name stat) :
    ∃ st, GivesLast live is name st := by
  induction is using List.reverseRecOn generalizing after with
  | nil => simp at hs
  | append_singleton is j ih =>
    by_cases hj : ∃ st, GivesAt live is j name st
    · obtain ⟨st, hj⟩ := hj
      exact ⟨st, (givesLast_concat_of_givesAt hj).mpr rfl⟩
    · rw [not_exists] at hj
      rcases concat_eq_append_cons_iff.mp hs with ⟨-, rfl, rfl⟩ | ⟨mid, -, hmid⟩
      · exact absurd h (hj stat)
      · obtain ⟨st, hst⟩ := ih hmid
        exact ⟨st, (givesLast_concat_of_not hj).mpr hst⟩

theorem mem_keys_stats_ofLive {is : List Interface} {name : Text} :
    name ∈ (ofLive live is).stats.keys ↔ ∃ before i after stat,
      is = before ++ i :: after ∧ GivesAt live before i name stat := by
  rw [SortedMap.mem_keys_iff]
  simp only [find?_stats_ofLive]
  constructor
  · rintro ⟨stat, before, i, after, hs, h, -⟩
    exact ⟨before, i, after, stat, hs, h⟩
  · rintro ⟨before, i, after, stat, hs, h⟩
    exact exists_givesLast hs h

/-- What has stats in a survey has both of its counters. -/
theorem exists_counter_of_mem_keys {source : CounterSource} {is : List Interface}
    {name : Text} (h : name ∈ (ofInterfaces source is).stats.keys) (counter : Counter) :
    ∃ v, source name counter = .ok v := by
  obtain ⟨_, i, _, stat, -, rfl, hg⟩ := mem_keys_stats_ofLive.mp h
  cases counter with
  | rx => exact ⟨stat.rx, hg.rx⟩
  | tx => exact ⟨stat.tx, hg.tx⟩

/-- The stats of a survey are those of the last interface of each name that gives anything, and an
interface that gives nothing leaves them as they are. Nothing is read but what the interfaces ask
for, one after the other. Where the counters stand still, a name has stats exactly if both counters
of it can be read and an interface of this name has an external address. -/
theorem ofLive_keeps_last_stats (live : LiveCounters) (is : List Interface) :
    (∀ name, name ∈ (ofLive live is).stats.keys ↔ ∃ before i after stat,
      is = before ++ i :: after ∧ i.name = name ∧ i.Gives live (ofLive live before).reads stat) ∧
    (∀ name stat, (ofLive live is).stats.find? name = some stat ↔ ∃ before i after,
      is = before ++ i :: after ∧
      (i.name = name ∧ i.Gives live (ofLive live before).reads stat) ∧
      ∀ mid j rest, after = mid ++ j :: rest → ∀ st,
        ¬(j.name = name ∧ j.Gives live (ofLive live (before ++ i :: mid)).reads st)) ∧
    (∀ i, (∀ stat, ¬i.Gives live (ofLive live is).reads stat) →
      (ofLive live (is ++ [i])).stats = (ofLive live is).stats) ∧
    Asks live [] is (ofLive live is).reads ∧
    (∀ source name, name ∈ (ofInterfaces source is).stats.keys ↔
      (∃ i ∈ is, i.name = name ∧ i.IsExternal) ∧
        (∃ rx, source name .rx = .ok rx) ∧ ∃ tx, source name .tx = .ok tx) := by
  refine ⟨fun name => mem_keys_stats_ofLive, fun name stat => find?_stats_ofLive,
    fun i => stats_ofLive_concat, asks_ofLive live is, fun source name => ?_⟩
  rw [ofInterfaces, mem_keys_stats_ofLive]
  constructor
  · rintro ⟨before, i, after, stat, rfl, rfl, h⟩
    exact ⟨⟨i, by simp, rfl, h.external⟩, ⟨_, h.rx⟩, ⟨_, h.tx⟩⟩
  · rintro ⟨⟨i, hi, rfl, hx⟩, ⟨rx, hrx⟩, ⟨tx, htx⟩⟩
    obtain ⟨before, after, hs⟩ := List.append_of_mem hi
    exact ⟨before, i, after, i.stat rx tx, hs, rfl,
      Interface.gives_iff.mpr ⟨Interface.isExternal_iff.mp hx, rx, tx, hrx, htx, rfl⟩⟩

def sampleInterface (n : UInt8) : Interface := ⟨['e'], [.v4 #v[127, 0, 0, n], .v4 #v[10, 0, 0, n]]⟩

/-- Counters that can be read twice and then no more. -/
def sampleLive : LiveCounters := fun past name counter =>
  if past.length < 2 then .ok (UInt64.ofNat past.length)
  else .error (.counterUnreadable name counter "gone".toList)

theorem ofLive_sampleInterface :
    (∀ stat, ¬(sampleInterface 2).Gives sampleLive
      (ofLive sampleLive [sampleInterface 1]).reads stat) ∧
    (ofLive sampleLive ([sampleInterface 1] ++ [sampleInterface 2])).stats =
      .ofList [(['e'], ⟨["10.0.0.1".toList], [], 0, 1⟩)] := by
  have hreads : (ofLive sampleLive [sampleInterface 1]).reads = [(['e'], .rx), (['e'], .tx)] := by
    decide
  have h : ∀ stat, ¬(sampleInterface 2).Gives sampleLive
      (ofLive sampleLive [sampleInterface 1]).reads stat := by
    intro stat hg
    have hrx := hg.rx
    rw [hreads] at hrx
    simp [sampleLive] at hrx
  refine ⟨h, ?_⟩
  rw [(ofLive_keeps_last_stats sampleLive [sampleInterface 1]).2.2.1 (sampleInterface 2) h]
  decide

end Survey
end CacheHost
