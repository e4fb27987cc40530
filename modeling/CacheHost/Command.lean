import CacheHost.StageError
import CacheHost.Text.Utf8

namespace CacheHost

/-- A program, which is started directly and in the C locale, and the time that a run may take. -/
structure Command where
  program : Text
  limit : Duration
  deriving DecidableEq, Repr

inductive Outcome where
  | notStarted (cause : SystemError)
  | timedOut
  | ended (status : ExitStatus) (stdout : Bytes)
  deriving DecidableEq, Repr

def Command.output (c : Command) : Outcome → Except StageError Text
  | .notStarted cause => .error (.notStarted c.program cause)
  | .timedOut => .error (.timedOut c.program c.limit)
  | .ended status stdout =>
    if status.isSuccess then .ok (Utf8.decodeLossy stdout) else .error (.failed c.program status)

end CacheHost
