import CacheHost.Text
/-!
How a program ended, as the 32-bit word in which the system reports it: its low seven bits hold the
signal that ended it, the next bit tells of a core dump, and the second byte holds the exit code or
the signal that stopped it.
-/
namespace CacheHost

structure ExitStatus where
  word : UInt32
  deriving DecidableEq, Repr

namespace ExitStatus

def exited (code : Nat) : ExitStatus := ⟨UInt32.ofNat (code % 256 * 256)⟩

def isSuccess (s : ExitStatus) : Bool := s.word == 0

def signalNames : List String := [
  "SIGHUP", "SIGINT", "SIGQUIT", "SIGILL", "SIGTRAP", "SIGABRT", "SIGBUS", "SIGFPE",
  "SIGKILL", "SIGUSR1", "SIGSEGV", "SIGUSR2", "SIGPIPE", "SIGALRM", "SIGTERM", "SIGSTKFLT",
  "SIGCHLD", "SIGCONT", "SIGSTOP", "SIGTSTP", "SIGTTIN", "SIGTTOU", "SIGURG", "SIGXCPU",
  "SIGXFSZ", "SIGVTALRM", "SIGPROF", "SIGWINCH", "SIGIO", "SIGPWR", "SIGSYS"]

def signalText (n : Nat) : Text :=
  match if n = 0 then none else signalNames[n - 1]? with
  | some name => Text.ofNat n ++ " (".toList ++ name.toList ++ ")".toList
  | none => Text.ofNat n

def text (s : ExitStatus) : Text :=
  let n := s.word.toNat
  let signal := n % 128
  let code := n / 256 % 256
  if signal = 0 then "exit status: ".toList ++ Text.ofNat code
  else if signal ≠ 127 then
    "signal: ".toList ++ signalText signal ++
      if n / 128 % 2 = 1 then " (core dumped)".toList else []
  else if n % 256 = 127 then
    "stopped (not terminated) by signal: ".toList ++ signalText code
  else if n = 0xFFFF then "continued (WIFCONTINUED)".toList
  else
    "unrecognised wait status: ".toList ++ Text.ofInt s.word.toInt32.toInt ++
      " 0x".toList ++ Nat.toDigits 16 n

end ExitStatus
end CacheHost
