import CacheHost.Duration
import CacheHost.ExitStatus
import CacheHost.SystemError

namespace CacheHost

/-- The two byte counters of a network interface: received and sent. -/
inductive Counter where
  | rx
  | tx
  deriving DecidableEq, Repr

def Counter.name : Counter → Text
  | .rx => ['r', 'x']
  | .tx => ['t', 'x']

inductive StageError where
  | unreadable (path : Text) (cause : SystemError)
  | notStarted (program : Text) (cause : SystemError)
  | failed (program : Text) (status : ExitStatus)
  | timedOut (program : Text) (limit : Duration)
  | unexpectedOutput (program : Text) (reason : Text)
  | counterUnreadable (interface : Text) (counter : Counter) (reason : Text)
  /-- The task that was to collect did not end with a result. -/
  | taskLost (reason : Text)
  deriving DecidableEq, Repr

namespace StageError

def message : StageError → Text
  | .unreadable path cause => "cannot read ".toList ++ path ++ ": ".toList ++ cause.message
  | .notStarted program cause => "cannot spawn ".toList ++ program ++ ": ".toList ++ cause.message
  | .failed program status => program ++ " exited with ".toList ++ status.text
  | .timedOut program limit => program ++ " did not finish within ".toList ++ limit.text
  | .unexpectedOutput program reason =>
    "unexpected output from ".toList ++ program ++ ": ".toList ++ reason
  | .counterUnreadable interface counter reason =>
    "interface ".toList ++ interface ++ ": cannot read ".toList ++ counter.name ++
      " counter: ".toList ++ reason
  | .taskLost reason => "collector task join: ".toList ++ reason

/-- A source that is missing and an interface that has gone are routine; all else is worth a
warning. -/
def isRoutine : StageError → Bool
  | .unreadable .. | .counterUnreadable .. => true
  | _ => false

end StageError
end CacheHost
