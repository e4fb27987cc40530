import CacheHost.Interface
import CacheHost.Text.Blank
import CacheHost.Text.Numeral
import CacheHost.Text.Quoted
import CacheHost.Text.Utf8

namespace CacheHost

abbrev FileReader := Text → Except SystemError Bytes

def FileReader.readText (read : FileReader) (path : Text) : Except SystemError Text := do
  match Utf8.decode? (← read path) with
  | some text => .ok text
  | none => .error .notUtf8

namespace CounterFile

/-- An absolute path replaces what it is joined to; otherwise one slash stands between the parts. -/
def join (root path : Text) : Text :=
  if path.head? = some '/' then path
  else if root = [] ∨ root.getLast? = some '/' then root ++ path
  else root ++ ['/'] ++ path

def path (root interface : Text) (counter : Counter) : Text :=
  join (join (join root interface) "statistics".toList) (counter.name ++ "_bytes".toList)

def value (text : Text) : Except Text UInt64 :=
  let text := Text.trim text
  match Numeral.read64 text with
  | .ok n => .ok n
  | .error e => .error (Text.quoted text ++ ": ".toList ++ e.message)

def read (files : FileReader) (root : Text) : CounterSource := fun interface counter =>
  let path := path root interface counter
  match files.readText path with
  | .error e => .error (.counterUnreadable interface counter (path ++ ": ".toList ++ e.message))
  | .ok text => (value text).mapError (.counterUnreadable interface counter)

end CounterFile
end CacheHost
