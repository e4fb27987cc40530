import CacheHost.ProcessCount
import CacheHost.Proofs.Command
import CacheHost.Proofs.Text.Blank
import CacheHost.Proofs.Text.Cut
import Mathlib.Data.List.Basic

namespace CacheHost

namespace Text

/-- A return is blank. -/
theorem trim_dropReturn (l : Text) : trim (dropReturn l) = trim l := by
  unfold dropReturn
  split
  · rename_i h
    obtain ⟨l, rfl⟩ := List.getLast?_eq_some_iff.mp h
    rw [List.dropLast_concat, eq_comm]
    obtain ⟨ht, g, g', hg, hg', hl⟩ := trim_eq_iff.mp (rfl : trim l = trim l)
    refine trim_eq_iff.mpr ⟨ht, g, g' ++ ['\r'], hg, ?_, ?_⟩
    · intro c hc
      rcases List.mem_append.mp hc with hc | hc
      · exact hg' c hc
      · exact List.mem_singleton.mp hc ▸ rfl
    · rw [← List.append_assoc, ← hl]
  · rfl

end Text

namespace ProcessCount
open Text

/-- What the system prints: a line for each process, with the first 15 bytes of its name. -/
def printed (names : List Text) : Bytes :=
  names.flatMap fun name => (Utf8.encode name).take 15 ++ [0x0A]

def seen (name : Text) : Text := trim (Utf8.decodeLossy ((Utf8.encode name).take 15))

def isCounted (worker name : Text) : Bool := seen name = worker || seen name = listed worker

/-- A name that is found again: what the system lists of it is all of it, or ends behind a character
that is no blank, or cuts a last U+FFFD, which damage is read as. -/
def IsListed (name : Text) : Prop :=
  (Utf8.encode name).length ≤ 15 ∨
    (∃ p r, name = p ++ r ∧ (Utf8.encode p).length = 15 ∧ ∀ c ∈ p.getLast?, isBlank c = false) ∨
    ∃ p, name = p ++ ['\uFFFD'] ∧ (Utf8.encode p).length < 15

variable {names : List Text} {name : Text}

theorem lines_printed (h : ∀ name ∈ names, '\n' ∉ name) :
    lines (Utf8.decodeLossy (printed names)) =
      names.map fun name => dropReturn (Utf8.decodeLossy ((Utf8.encode name).take 15)) := by
  induction names with
  | nil => rfl
  | cons name names ih =>
    obtain ⟨hname, hnames⟩ := List.forall_mem_cons.mp h
    have hb : 0x0A ∉ (Utf8.encode name).take 15 := fun hm =>
      hname (Utf8.newline_mem_of_mem_encode (List.mem_of_mem_take hm))
    have hp : printed (name :: names) = (Utf8.encode name).take 15 ++ 0x0A :: printed names := by
      simp [printed]
    rw [hp, Utf8.decodeLossy_append_newline,
      lines_append_newline (Utf8.newline_notMem_decodeLossy hb), ih hnames, List.map_cons]

theorem toNat_count_printed (h : ∀ name ∈ names, '\n' ∉ name) (worker : Text) :
    (count (Utf8.decodeLossy (printed names)) worker).toNat =
      min (names.countP (isCounted worker)) (UInt32.size - 1) := by
  rw [count, lines_printed h, List.countP_map, UInt32.toNat_ofNat_of_lt']
  · congr 2
    funext name
    simp only [Function.comp, trim_dropReturn]
    rfl
  · exact lt_of_le_of_lt (min_le_right _ _) (by decide)

theorem seen_eq_self (ht : IsTrimmed name) (h : (Utf8.encode name).length ≤ 15) :
    seen name = name := by
  rw [seen, List.take_of_length_le h, Utf8.decodeLossy_encode, trim_eq_self ht]

theorem seen_append {p r : Text} (h : (Utf8.encode p).length = 15) : seen (p ++ r) = trim p := by
  rw [seen, Utf8.encode_append, List.take_left' h, Utf8.decodeLossy_encode]

/-- A character that is cut reads as U+FFFD, which is no blank. -/
theorem seen_of_cut_inside {p r : Text} {c : Char} {k : Nat} (ht : IsTrimmed (p ++ c :: r))
    (hk : 0 < k) (hc : k < (String.utf8EncodeChar c).length)
    (h : (Utf8.encode p).length + k = 15) : seen (p ++ c :: r) = p ++ ['\uFFFD'] := by
  have hread : Utf8.decodeLossy ((Utf8.encode (p ++ c :: r)).take 15) = p ++ ['\uFFFD'] := by
    rw [Utf8.encode_append, Utf8.encode_cons, ← h, List.take_length_add_append,
      List.take_append_of_le_length hc.le, Utf8.decodeLossy, Utf8.run_encode_append,
      Utf8.run_take_encodeChar c hk hc, List.map_append, List.map_map]
    exact congrArg (· ++ _) (List.map_id p)
  rw [seen, hread]
  refine trim_eq_self ⟨?_, ?_⟩
  · cases p with
    | nil => exact fun c hc => Option.some.inj hc ▸ rfl
    | cons d p => exact ht.1
  · rw [List.getLast?_concat]
    exact fun c hc => Option.some.inj hc ▸ rfl

theorem listed_of_cut {p : Text} (h : cut? 15 name = some p) : listed name = p := by
  rw [listed, h, Option.getD_some]

theorem listed_of_cut_none (h : cut? 15 name = none) : listed name = name := by
  rw [listed, h, Option.getD_none]

theorem seen_of_isListed (ht : IsTrimmed name) (h : IsListed name) :
    seen name = name ∨ seen name = listed name := by
  rcases h with h | ⟨p, r, rfl, hp, hlast⟩ | ⟨p, rfl, hp⟩
  · exact .inl (seen_eq_self ht h)
  · right
    rw [seen_append hp, listed_of_cut (cut?_append hp r)]
    exact trim_eq_self (ht.left hlast)
  · -- the damage that a cut U+FFFD leaves is read as this very character
    left
    by_cases hl : (Utf8.encode (p ++ ['\uFFFD'])).length ≤ 15
    · exact seen_eq_self ht hl
    · have hk : 15 - (Utf8.encode p).length < (String.utf8EncodeChar '\uFFFD').length := by
        rw [Utf8.encode_append, List.length_append, Utf8.encode_cons, List.length_append] at hl
        have : (Utf8.encode []).length = 0 := rfl
        omega
      exact seen_of_cut_inside ht (by omega) hk (by omega)

theorem seen_of_not_isListed (ht : IsTrimmed name) (h : ¬IsListed name) :
    seen name ≠ name ∧ seen name ≠ listed name := by
  have hl : ¬(Utf8.encode name).length ≤ 15 := fun hl => h (.inl hl)
  rcases cut?_cases (Nat.lt_of_not_le hl).le with
    ⟨p, r, hcut, rfl, hp⟩ | ⟨hcut, p, c, r, k, rfl, hk, hkc, hp⟩
  · -- `p` ends in a blank, so a trim makes it shorter, and it was no longer than the name
    have hblank : trim p ≠ p := fun htp =>
      h (.inr (.inl ⟨p, r, rfl, hp, (htp ▸ isTrimmed_trim p).2⟩))
    rw [seen_append hp, listed_of_cut hcut]
    refine ⟨fun hself => ?_, hblank⟩
    obtain ⟨-, g, g', -, -, hgap⟩ := trim_eq_iff.mp hself
    have hr : r = [] := by
      have hlen := congrArg List.length hgap
      simp only [List.length_append] at hlen
      exact List.eq_nil_of_length_eq_zero (by omega)
    exact hblank (by rw [hself, hr, List.append_nil])
  · -- the name is compared as a whole, and it does not end in U+FFFD where it is cut
    rw [seen_of_cut_inside ht hk hkc hp, listed_of_cut_none hcut]
    have : p ++ ['\uFFFD'] ≠ p ++ c :: r := by
      intro heq
      obtain ⟨rfl, rfl⟩ := List.cons_eq_cons.mp (List.append_cancel_left heq)
      exact h (.inr (.inr ⟨p, rfl, by omega⟩))
    exact ⟨this, this⟩

/-- A listing is always counted, and never are there more than run. A worker that is found again has
each of its processes counted; for one that is not, none of its own is. -/
theorem ofOutcome_printed (ps : Command) {worker : Text} (hw : IsTrimmed worker)
    (h : ∀ name ∈ names, '\n' ∉ name) :
    ∃ n, ofOutcome ps worker (.ended (.exited 0) (printed names)) = .ok n ∧
      n.toNat ≤ min names.length (UInt32.size - 1) ∧
      (IsListed worker → min (names.count worker) (UInt32.size - 1) ≤ n.toNat) ∧
      (¬IsListed worker → n.toNat ≤ names.countP (· ≠ worker)) := by
  have hout : ps.output (.ended (.exited 0) (printed names)) =
      .ok (Utf8.decodeLossy (printed names)) :=
    Command.output_eq_ok_iff.mpr ⟨_, _, rfl, rfl, rfl⟩
  refine ⟨_, by rw [ofOutcome, hout]; rfl, ?_⟩
  rw [toNat_count_printed h]
  have hall : names.countP (isCounted worker) ≤ names.length := List.countP_le_length
  refine ⟨by omega, fun hl => ?_, fun hl => ?_⟩
  · have hown : names.count worker ≤ names.countP (isCounted worker) := by
      refine List.countP_mono_left fun name _ hname => ?_
      obtain rfl := eq_of_beq hname
      simpa [isCounted] using seen_of_isListed hw hl
    omega
  · have hothers : names.countP (isCounted worker) ≤ names.countP (· ≠ worker) := by
      refine List.countP_mono_left fun name _ hname => ?_
      obtain ⟨hself, hcut⟩ := seen_of_not_isListed hw hl
      rw [decide_eq_true_eq]
      rintro rfl
      simp [isCounted, hself, hcut] at hname
    omega

theorem ofOutcome_printed_long_name :
    ∃ n, ofOutcome ⟨"ps".toList, .ofSeconds 5 0⟩ "a-very-long-worker-name".toList
        (.ended (.exited 0) (printed ["init".toList, "a-very-long-worker-name".toList])) = .ok n ∧
      1 ≤ n.toNat ∧ n.toNat ≤ 2 := by
  obtain ⟨n, hn, hle, hl, -⟩ :=
    @ofOutcome_printed ["init".toList, "a-very-long-worker-name".toList]
      ⟨"ps".toList, .ofSeconds 5 0⟩ "a-very-long-worker-name".toList (by decide) (by decide)
  have hlisted : IsListed "a-very-long-worker-name".toList :=
    .inr (.inl ⟨"a-very-long-wor".toList, "ker-name".toList, by decide, by decide,
      fun c hc => Option.some.inj hc ▸ rfl⟩)
  exact ⟨n, hn, hl hlisted, hle⟩

/-- A worker is missed whose name has a blank as its fifteenth byte. -/
theorem not_forall_le_ofOutcome_printed :
    ¬∀ worker : Text, worker ≠ [] → '\n' ∉ worker → '\x00' ∉ worker → IsTrimmed worker →
      ∀ names : List Text, (∀ name ∈ names, '\n' ∉ name ∧ '\x00' ∉ name) →
      ∃ n, ofOutcome ⟨"ps".toList, .ofSeconds 5 0⟩ worker
          (.ended (.exited 0) (printed names)) = .ok n ∧
        min (names.count worker) (UInt32.size - 1) ≤ n.toNat ∧
        n.toNat ≤ min names.length (UInt32.size - 1) := by
  intro h
  obtain ⟨n, hn, hle, -⟩ := h "s3blkdev-syncd worker".toList (by decide) (by decide) (by decide)
    (by decide) ["s3blkdev-syncd worker".toList] (by decide)
  have hzero : ofOutcome ⟨"ps".toList, .ofSeconds 5 0⟩ "s3blkdev-syncd worker".toList
      (.ended (.exited 0) (printed ["s3blkdev-syncd worker".toList])) = .ok 0 := by decide
  obtain rfl := Except.ok.inj (hzero.symm.trans hn)
  exact absurd hle (by decide)

end ProcessCount
end CacheHost
