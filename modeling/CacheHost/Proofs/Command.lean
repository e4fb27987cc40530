import CacheHost.Command
import CacheHost.Proofs.Text.Utf8

namespace CacheHost.Command

inductive Fails (c : Command) : Outcome → StageError → Prop
  | notStarted (cause : SystemError) : c.Fails (.notStarted cause) (.notStarted c.program cause)
  | timedOut : c.Fails .timedOut (.timedOut c.program c.limit)
  | failed (status : ExitStatus) (stdout : Bytes) : status.isSuccess = false →
      c.Fails (.ended status stdout) (.failed c.program status)

theorem output_eq_ok_iff {c : Command} {o : Outcome} {text : Text} :
    c.output o = .ok text ↔ ∃ status stdout, o = .ended status stdout ∧
      status.isSuccess = true ∧ Utf8.decodeLossy stdout = text := by
  cases o with
  | notStarted cause => simp [output]
  | timedOut => simp [output]
  | ended status stdout =>
    by_cases h : status.isSuccess = true
    · rw [output, if_pos h]
      refine ⟨fun ht => ⟨status, stdout, rfl, h, Except.ok.inj ht⟩, fun ⟨_, _, he, _, ht⟩ => ?_⟩
      obtain ⟨rfl, rfl⟩ := Outcome.ended.inj he
      rw [ht]
    · rw [output, if_neg h]
      refine ⟨fun ht => ?_, fun ⟨_, _, he, hs, _⟩ => ?_⟩
      · simp at ht
      · exact absurd ((Outcome.ended.inj he).1 ▸ hs) h

theorem output_eq_error_iff {c : Command} {o : Outcome} {e : StageError} :
    c.output o = .error e ↔ c.Fails o e := by
  constructor
  · intro h
    cases o with
    | notStarted cause => exact Except.error.inj h ▸ .notStarted cause
    | timedOut => exact Except.error.inj h ▸ .timedOut
    | ended status stdout =>
      rw [output] at h
      split at h
      · simp at h
      · rename_i hs
        exact Except.error.inj h ▸ .failed status stdout (Bool.eq_false_iff.mpr hs)
  · intro h
    cases h with
    | notStarted cause => rfl
    | timedOut => rfl
    | failed status stdout hs => exact if_neg (Bool.eq_false_iff.mp hs)

end CacheHost.Command
