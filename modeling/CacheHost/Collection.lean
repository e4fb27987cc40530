import CacheHost.DiskReport
import CacheHost.NbdDump
import CacheHost.ProcessCount
import CacheHost.Settings
import CacheHost.Snapshot

namespace CacheHost

namespace BlockConfig

/-- Damaged bytes in the file do not make it unreadable. -/
def load (path : Text) (file : Except SystemError Bytes) : Except StageError BlockConfig :=
  match file with
  | .ok bytes => .ok (parse (Utf8.decodeLossy bytes))
  | .error cause => .error (.unreadable path cause)

/-- The devices with what a dump adds to them; if it cannot be read it adds nothing. -/
def correlate (c : BlockConfig) (path : Text) (file : Except SystemError Bytes) :
    DeviceMap × Option StageError :=
  match file with
  | .ok bytes => (c.withExports (NbdDump.parse (Utf8.decodeLossy bytes)), none)
  | .error cause => (c.devices, some (.unreadable path cause))

end BlockConfig

structure Sources where
  host : Except StageError HostMetrics
  clock : Int64
  interfaces : Except StageError InterfaceMap
  blkdevConf : Except SystemError Bytes
  nbdClient : Except SystemError Bytes
  df : List Text → Outcome
  ps : List Text → Outcome

inductive Program where
  | df
  | ps
  deriving DecidableEq, Repr

/-- The two programs run side by side; this tells which of them ends first. -/
inductive Finish where
  | dfFirst
  | psFirst
  deriving DecidableEq, Repr

def Finish.programs : Finish → List Program
  | .dfFirst => [.df, .ps]
  | .psFirst => [.ps, .df]

inductive Stage where
  | hostMetrics
  | interfaces
  | deviceConfig
  | nbdCorrelation
  | processCount
  | diskUsage
  deriving DecidableEq, Repr

def Stage.name : Stage → Text
  | .hostMetrics => "host metrics".toList
  | .interfaces => "interfaces".toList
  | .deviceConfig => "device config".toList
  | .nbdCorrelation => "nbd correlation".toList
  | .processCount => "process count".toList
  | .diskUsage => "disk usage".toList

inductive Level where
  | debug
  | warn
  deriving DecidableEq, Repr

def Level.name : Level → Text
  | .debug => "DEBUG".toList
  | .warn => "WARN".toList

def Level.message : Level → Text
  | .debug => "stage skipped".toList
  | .warn => "stage failed, using defaults".toList

structure Failure where
  stage : Stage
  error : StageError
  deriving DecidableEq, Repr

def Failure.level (f : Failure) : Level := if f.error.isRoutine then .debug else .warn

def Stage.failures (stage : Stage) (e : Option StageError) : List Failure :=
  (e.map (⟨stage, ·⟩)).toList

/-- A snapshot, what went wrong on the way, and the arguments of the programs that were run. -/
structure Collection where
  snapshot : Snapshot
  log : List Failure
  dfRun : Option (List Text)
  psRun : Option (List Text)

namespace CommandSettings

def dfCommand (c : CommandSettings) : Command := ⟨c.df, c.timeout⟩

def psCommand (c : CommandSettings) : Command := ⟨c.ps, c.timeout⟩

end CommandSettings

namespace Collection

/-- Host metrics that could not be had are zero, but for the time. -/
def hostOf (src : Sources) : HostMetrics :=
  match src.host with
  | .ok host => host
  | .error _ => { utc := src.clock }

/-- The number of worker processes, if they are to be counted; zero stands for a failed count. -/
def processesOf : Option (Except StageError UInt32) → Option UInt32
  | none => none
  | some (.ok n) => some n
  | some (.error _) => some 0

def error? {α : Type} : Except StageError α → Option StageError
  | .ok _ => none
  | .error e => some e

/-- A failure of `ps` is logged when it ends, one of `df` when both have ended. -/
def programLog (finish : Finish) (df ps : List Failure) : List Failure :=
  finish.programs.flatMap (fun
    | .df => []
    | .ps => ps) ++ df

/-- A stage that fails is logged and leaves its defaults. -/
def run (c : Settings) (src : Sources) (finish : Finish) : Collection :=
  let config := BlockConfig.load c.sources.blkdevConf src.blkdevConf
  let devices := (config.toOption.getD {}).correlate c.sources.nbdClient src.nbdClient
  let dfree := (DiskFreeMap.seed devices.1).fill c.commands.dfCommand src.df
  let count := c.commands.worker?.map fun name =>
    ProcessCount.ofOutcome c.commands.psCommand name (src.ps ProcessCount.arguments)
  { snapshot := {
      host := hostOf src
      devices := devices.1
      dfree := dfree.map
      ifaces := src.interfaces.toOption.getD .empty
      processes := processesOf count }
    log :=
      Stage.hostMetrics.failures (error? src.host) ++
      Stage.interfaces.failures (error? src.interfaces) ++
      Stage.deviceConfig.failures (error? config) ++
      Stage.nbdCorrelation.failures devices.2 ++
      programLog finish (Stage.diskUsage.failures dfree.failure)
        (Stage.processCount.failures (count.bind error?))
    dfRun := dfree.run
    psRun := count.map fun _ => ProcessCount.arguments }

end Collection
end CacheHost
