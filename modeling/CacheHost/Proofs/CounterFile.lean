import CacheHost.CounterFile
import CacheHost.Proofs.Survey
import CacheHost.Proofs.Text.Numeral
import CacheHost.Proofs.Text.Strict

namespace CacheHost

theorem FileReader.readText_eq_ok_iff {files : FileReader} {path text : Text} :
    files.readText path = .ok text ↔ files path = .ok (Utf8.encode text) := by
  rw [readText]
  cases files path with
  | error e => simp [bind, Except.bind]
  | ok bs =>
    simp only [bind, Except.bind, Except.ok.injEq, ← Utf8.decode?_eq_some_iff]
    cases Utf8.decode? bs <;> simp

namespace CounterFile
open Text Numeral

/-- UTF-8 of a numeral for this number, with blanks around it. -/
def Tells (bs : Bytes) (n : Nat) : Prop :=
  ∃ gap numeral gap', IsGap gap ∧ IsGap gap' ∧ Denotes numeral n ∧
    bs = Utf8.encode (gap ++ numeral ++ gap')

def place (root interface : Text) (counter : Counter) : Text :=
  root ++ ['/'] ++ interface ++ "/statistics/".toList ++ counter.name ++ "_bytes".toList

def Holds (files : FileReader) (root interface : Text) (counter : Counter) (n : Nat) : Prop :=
  ∃ bs, files (place root interface counter) = .ok bs ∧ Tells bs n

variable {files : FileReader} {root interface : Text} {counter : Counter}

theorem tells_encode_iff {text : Text} {n : Nat} :
    Tells (Utf8.encode text) n ↔ Denotes (trim text) n := by
  simp only [Tells, Utf8.encode_inj, denotes_trim_iff]

theorem Tells.exists_encode {bs : Bytes} {n : Nat} (h : Tells bs n) :
    ∃ text, bs = Utf8.encode text := by
  obtain ⟨gap, numeral, gap', -, -, -, hbs⟩ := h
  exact ⟨_, hbs⟩

theorem Tells.unique {bs : Bytes} {m n : Nat} (hm : Tells bs m) (hn : Tells bs n) : m = n := by
  obtain ⟨text, rfl⟩ := hm.exists_encode
  exact (tells_encode_iff.mp hm).unique (tells_encode_iff.mp hn)

theorem value_eq_ok_iff {text : Text} {v : UInt64} :
    value text = .ok v ↔ Denotes (trim text) v.toNat := by
  rw [← read64_eq_ok_iff, value]
  split <;> simp_all

theorem read_eq_ok_iff {v : UInt64} : read files root interface counter = .ok v ↔
    ∃ bs, files (path root interface counter) = .ok bs ∧ Tells bs v.toNat := by
  have htext : read files root interface counter = .ok v ↔ ∃ text,
      files.readText (path root interface counter) = .ok text ∧ value text = .ok v := by
    rw [read]
    cases files.readText (path root interface counter) with
    | error e => simp
    | ok text => cases hv : value text <;> simp [Except.mapError, hv]
  simp only [htext, FileReader.readText_eq_ok_iff, value_eq_ok_iff, ← tells_encode_iff]
  constructor
  · rintro ⟨text, hf, ht⟩
    exact ⟨_, hf, ht⟩
  · rintro ⟨bs, hf, ht⟩
    obtain ⟨text, rfl⟩ := ht.exists_encode
    exact ⟨text, hf, ht⟩

/-- Whatever is wrong with the file, the refusal names the counter. -/
theorem exists_value_or_reason (files : FileReader) (root interface : Text) (counter : Counter) :
    (∃ v, read files root interface counter = .ok v) ∨
      ∃ reason, read files root interface counter =
        .error (.counterUnreadable interface counter reason) := by
  rw [read]
  cases files.readText (path root interface counter) with
  | error e => exact .inr ⟨_, rfl⟩
  | ok text =>
    cases hv : value text with
    | error reason => exact .inr ⟨reason, by simp [hv, Except.mapError]⟩
    | ok v => exact .inl ⟨v, by simp [hv, Except.mapError]⟩

theorem join_of_relative {path : Text} (hne : root ≠ []) (hend : root.getLast? ≠ some '/')
    (hp : path.head? ≠ some '/') : join root path = root ++ ['/'] ++ path := by
  rw [join, if_neg hp, if_neg (not_or.mpr ⟨hne, hend⟩)]

theorem path_eq_place (hroot : root ≠ []) (hend : root.getLast? ≠ some '/')
    (hname : interface ≠ []) (hslash : '/' ∉ interface) (counter : Counter) :
    path root interface counter = place root interface counter := by
  have hhead : interface.head? ≠ some '/' := fun h => hslash (List.mem_of_head? h)
  have hlast : (root ++ ['/'] ++ interface).getLast? ≠ some '/' := by
    rw [List.getLast?_append_of_ne_nil _ hname]
    exact fun h => hslash (List.mem_of_getLast? h)
  have hfile : (counter.name ++ "_bytes".toList).head? ≠ some '/' := by
    cases counter <;> decide
  rw [path, join_of_relative hroot hend hhead,
    join_of_relative (by simp) hlast (by decide : "statistics".toList.head? ≠ some '/'),
    join_of_relative (by simp) ?_ hfile]
  · simp [place]
  · rw [List.getLast?_append_of_ne_nil _ (by decide)]
    decide

/-- In a tree whose root does not end in a slash, a counter of an interface whose name is one part of
a path has just the value that its file tells. If its file tells none, then the counter is refused
and the interface has no stats. A number that does not fit is refused, and a value is read back from
its digits, whatever blanks stand around them. -/
theorem read_exact_or_refused (files : FileReader) (hroot : root ≠ [])
    (hend : root.getLast? ≠ some '/') (hname : interface ≠ []) (hslash : '/' ∉ interface)
    (counter : Counter) :
    (∀ v, read files root interface counter = .ok v ↔
      Holds files root interface counter v.toNat) ∧
    ((∀ v : UInt64, ¬Holds files root interface counter v.toNat) →
      (∃ reason, read files root interface counter =
        .error (.counterUnreadable interface counter reason)) ∧
      ∀ is, interface ∉ (Survey.ofInterfaces (read files root) is).stats.keys) ∧
    (∀ n, UInt64.size ≤ n → Holds files root interface counter n →
      ∀ v : UInt64, ¬Holds files root interface counter v.toNat) ∧
    ∀ (v : UInt64) (gap gap' : Text), IsGap gap → IsGap gap' →
      files (place root interface counter) =
        .ok (Utf8.encode (gap ++ Text.ofNat v.toNat ++ gap')) →
      read files root interface counter = .ok v := by
  have hread : ∀ v, read files root interface counter = .ok v ↔
      Holds files root interface counter v.toNat := by
    intro v
    rw [read_eq_ok_iff, path_eq_place hroot hend hname hslash, Holds]
  refine ⟨hread, fun hno => ⟨?_, fun is hk => ?_⟩, ?_, fun v gap gap' hg hg' hf => ?_⟩
  · refine (exists_value_or_reason files root interface counter).resolve_left ?_
    rintro ⟨v, hv⟩
    exact hno v ((hread v).mp hv)
  · obtain ⟨v, hv⟩ := Survey.exists_counter_of_mem_keys hk counter
    exact hno v ((hread v).mp hv)
  · -- the file tells one number only, and a value is smaller than this one
    rintro n hn ⟨bs, hf, ht⟩ v ⟨bs', hf', ht'⟩
    obtain rfl := Except.ok.inj (hf.symm.trans hf')
    have hlt : v.toNat < UInt64.size := v.toNat_lt_size
    exact absurd (ht.unique ht') (by omega)
  · exact (hread v).mpr ⟨_, hf, gap, _, gap', hg, hg', denotes_ofNat _, rfl⟩

/-- The largest number that fits, with leading zeros, and the next one. -/
def sampleTree : FileReader := fun path =>
  if path = "/net/e/statistics/rx_bytes".toList then
    .ok (Utf8.encode "\t+00018446744073709551615\n".toList)
  else if path = "/net/e/statistics/tx_bytes".toList then
    .ok (Utf8.encode "18446744073709551616".toList)
  else .error .notFound

theorem read_sampleTree :
    ("/net".toList ≠ [] ∧ "/net".toList.getLast? ≠ some '/' ∧ ['e'] ≠ [] ∧ '/' ∉ ['e']) ∧
    read sampleTree "/net".toList ['e'] .rx = .ok 18446744073709551615 ∧
    Holds sampleTree "/net".toList ['e'] .tx UInt64.size ∧
    (∃ reason, read sampleTree "/net".toList ['e'] .tx =
      .error (.counterUnreadable ['e'] .tx reason)) ∧
    ∀ is, ['e'] ∉ (Survey.ofInterfaces (read sampleTree "/net".toList) is).stats.keys := by
  have hroot : "/net".toList ≠ [] := by decide
  have hend : "/net".toList.getLast? ≠ some '/' := by decide
  have hname : ['e'] ≠ [] := by decide
  have hslash : '/' ∉ ['e'] := by decide
  have hfits : Denotes "+00018446744073709551615".toList (UInt64.size - 1) :=
    (Numeral.read_eq_ok_iff.mp (rfl : Numeral.read UInt64.size _ = .ok (UInt64.size - 1))).1
  have hexceeds : Denotes "18446744073709551616".toList UInt64.size :=
    (Numeral.read_eq_ok_iff.mp (rfl : Numeral.read (UInt64.size + 1) _ = .ok UInt64.size)).1
  have hrx : Holds sampleTree "/net".toList ['e'] .rx (UInt64.size - 1) :=
    ⟨_, rfl, ['\t'], _, ['\n'], by decide, by decide, hfits, rfl⟩
  have htx : Holds sampleTree "/net".toList ['e'] .tx UInt64.size :=
    ⟨_, rfl, [], _, [], isGap_nil, isGap_nil, hexceeds, rfl⟩
  have h := read_exact_or_refused sampleTree hroot hend hname hslash
  have hno := (h .tx).2.2.1 _ (Nat.le_refl _) htx
  obtain ⟨hreason, homitted⟩ := (h .tx).2.1 hno
  exact ⟨⟨hroot, hend, hname, hslash⟩, ((h .rx).1 _).mpr hrx, htx, hreason, homitted⟩

end CounterFile
end CacheHost
