import CacheHost.Command
import CacheHost.Text.Blank
import CacheHost.Text.Line

namespace CacheHost.ProcessCount

/-- The name as the system lists it. A name with a character across the end of byte 15 is taken
whole. -/
def listed (name : Text) : Text := (Text.cut? 15 name).getD name

def count (listing name : Text) : UInt32 :=
  let n := (Text.lines listing).countP fun line =>
    Text.trim line = name || Text.trim line = listed name
  UInt32.ofNat (min n (UInt32.size - 1))

def arguments : List Text := ["-A".toList, "-o".toList, "comm=".toList]

def ofOutcome (ps : Command) (name : Text) (o : Outcome) : Except StageError UInt32 :=
  (ps.output o).map (count · name)

end CacheHost.ProcessCount
