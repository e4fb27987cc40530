import CacheHost.DeviceMap
import CacheHost.Text.Blank
import CacheHost.Text.Line
/-!
The configuration of the block-device daemon: `[device]` headers, a `cachedir` under each, and one
`listen` address for all. A `cachedir` line belongs to the nearest header above it that has none
yet, and the last binding of a device counts; `listen` may stand anywhere and the last one counts.
-/
namespace CacheHost

structure BlockConfig where
  devices : DeviceMap := .empty
  listen : Option Text := none
  deriving DecidableEq

namespace BlockConfig

inductive Line where
  | comment
  | header (device : Text)
  | cachedir (path : Text)
  | listen (address : Text)
  | other
  deriving DecidableEq, Repr

/-- The value after a keyword: a blank must follow the keyword, and something after the blanks. -/
def directive? (keyword line : Text) : Option Text :=
  match Text.after? keyword line with
  | some (c :: rest) =>
    let value := Text.trim (c :: rest)
    if Text.isBlank c && value ≠ [] then some value else none
  | _ => none

def header? : Text → Option Text
  | '[' :: rest =>
    let name := rest.takeWhile (· != ']')
    if name = [] then none else some name
  | _ => none

def Line.ofUnindented (line : Text) : Line :=
  if line.head? = some '#' ∨ line.head? = some ';' then .comment
  else if let some device := header? line then .header device
  else if let some path := directive? "cachedir".toList line then .cachedir path
  else if let some value := directive? "listen".toList line then .listen (Text.firstWord value)
  else .other

def Line.of (line : Text) : Line := .ofUnindented (Text.trimStart line)

/-- A configuration read so far, and the header that still waits for its cache directory. -/
structure Draft where
  config : BlockConfig := {}
  waiting : Option Text := none

def Draft.add (d : Draft) : Line → Draft
  | .header device => { d with waiting := some device }
  | .cachedir path =>
    match d.waiting with
    | some device =>
      ⟨{ d.config with devices := d.config.devices.insert device [path] }, none⟩
    | none => d
  | .listen address => { d with config := { d.config with listen := some address } }
  | .comment | .other => d

def ofLines (ls : List Line) : Draft := ls.foldl Draft.add {}

def parse (text : Text) : BlockConfig := (ofLines ((Text.lines text).map Line.of)).config

end BlockConfig
end CacheHost
