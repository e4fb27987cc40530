import CacheHost.CounterFile
import CacheHost.Toml.Reader
import CacheHost.Toml.Section

namespace CacheHost

structure ServerSettings where
  port : UInt16 := 80
  host : Text := "0.0.0.0".toList
  deriving DecidableEq

structure SourceSettings where
  blkdevConf : Text := "/usr/local/etc/s3blkdev.conf".toList
  nbdClient : Text := "/etc/nbd-client".toList
  sysClassNet : Text := "/sys/class/net".toList
  deriving DecidableEq

/-- An empty worker process turns the process count off. -/
structure CommandSettings where
  df : Text := "df".toList
  ps : Text := "ps".toList
  workerProcess : Text := "s3blkdev-sync".toList
  timeoutMs : UInt64 := 5000
  deriving DecidableEq

structure Settings where
  server : ServerSettings := {}
  sources : SourceSettings := {}
  commands : CommandSettings := {}
  deriving DecidableEq

namespace CommandSettings

def timeout (c : CommandSettings) : Duration := .ofMilliseconds c.timeoutMs.toNat

def worker? (c : CommandSettings) : Option Text :=
  if c.workerProcess = [] then none else some c.workerProcess

end CommandSettings

namespace Settings

inductive Invalid where
  | port
  | empty (field : Text)
  | timeout
  deriving DecidableEq, Repr

def Invalid.message : Invalid → Text
  | .port => "server.port must be between 1 and 65535, got 0".toList
  | .empty field => field ++ " must be non-empty".toList
  | .timeout => "commands.timeout_ms must be > 0, got 0".toList

def checks (c : Settings) : List (Bool × Invalid) :=
  let empty (field : String) (value : Text) := (value.isEmpty, Invalid.empty field.toList)
  [(c.server.port == 0, .port),
    empty "server.host" c.server.host,
    empty "sources.blkdev_conf" c.sources.blkdevConf,
    empty "sources.nbd_client" c.sources.nbdClient,
    empty "sources.sys_class_net" c.sources.sysClassNet,
    empty "commands.df" c.commands.df,
    empty "commands.ps" c.commands.ps,
    (c.commands.timeoutMs == 0, .timeout)]

def invalid? (c : Settings) : Option Invalid := (c.checks.find? (·.1)).map (·.2)

end Settings

namespace Settings
open Toml

def serverFields : List (Setter ServerSettings) :=
  [("port", fun s v => (v.natural? UInt16.size).map fun n => { s with port := UInt16.ofNat n }),
    ("host", fun s v => v.text?.map fun t => { s with host := t })]

def sourceFields : List (Setter SourceSettings) :=
  [("blkdev_conf", fun s v => v.text?.map fun t => { s with blkdevConf := t }),
    ("nbd_client", fun s v => v.text?.map fun t => { s with nbdClient := t }),
    ("sys_class_net", fun s v => v.text?.map fun t => { s with sysClassNet := t })]

def commandFields : List (Setter CommandSettings) :=
  [("df", fun s v => v.text?.map fun t => { s with df := t }),
    ("ps", fun s v => v.text?.map fun t => { s with ps := t }),
    ("worker_process", fun s v => v.text?.map fun t => { s with workerProcess := t }),
    ("timeout_ms", fun s v => (v.natural? UInt64.size).map fun n =>
      { s with timeoutMs := UInt64.ofNat n })]

def fields : List (Setter Settings) :=
  [("server", fun c v => (setSection serverFields {} v).map fun s => { c with server := s }),
    ("sources", fun c v => (setSection sourceFields {} v).map fun s => { c with sources := s }),
    ("commands", fun c v => (setSection commandFields {} v).map fun s => { c with commands := s })]

def sizes : List (String × Nat) :=
  [("server", serverFields.length), ("sources", sourceFields.length),
    ("commands", commandFields.length)]

/-- What the settings look at in a document. A section that is written as an array is looked at no
further than to its last field, so what follows need not be a value. -/
def wanted (entries : Entries) : Entries :=
  entries.map fun e => (e.1, (sizes.find? (·.1.toList = e.1)).elim e.2 (e.2.withoutSurplus ·.2))

def ofEntries? (entries : Entries) : Option Settings := entries.foldlM (setEntry fields) {}

inductive LoadError where
  /-- The document is no TOML, or a value in it does not fit. -/
  | unparsable
  | invalid (cause : Invalid)
  | unreadable (path : Text) (cause : SystemError)
  deriving DecidableEq

def LoadError.message? : LoadError → Option Text
  | .unparsable => none
  | .invalid cause => some cause.message
  | .unreadable path cause =>
    some ("config file ".toList ++ path ++ ": ".toList ++ cause.message)

def parse (s : Text) : Except LoadError Settings :=
  match (ofText? wanted s).bind ofEntries? with
  | none => .error .unparsable
  | some c =>
    match c.invalid? with
    | some cause => .error (.invalid cause)
    | none => .ok c

def defaultPath : Text := "config.toml".toList

/-- The file that `named` names, else the default file if there is one, else the defaults. A value
that is no text names none. -/
def load (files : FileReader) (isThere : Text → Bool) (named : Option Bytes) :
    Except LoadError Settings :=
  match named.bind Utf8.decode? with
  | some path => loadFrom path
  | none => if isThere defaultPath then loadFrom defaultPath else .ok {}
where
  loadFrom (path : Text) : Except LoadError Settings :=
    match files.readText path with
    | .error cause => .error (.unreadable path cause)
    | .ok s => parse s

end Settings
end CacheHost
