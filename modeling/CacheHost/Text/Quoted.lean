import CacheHost.Text.Visible

namespace CacheHost.Text

/-- What has no short escape and does not show is written by its code point. -/
def quotedChar (c : Char) : Text :=
  match c with
  | '\x00' => ['\\', '0']
  | '\t' => ['\\', 't']
  | '\n' => ['\\', 'n']
  | '\r' => ['\\', 'r']
  | '"' => ['\\', '"']
  | '\\' => ['\\', '\\']
  | _ => if isVisible c then [c] else ['\\', 'u', '\x7b'] ++ Nat.toDigits 16 c.toNat ++ ['\x7d']

def quoted (s : Text) : Text := ['"'] ++ s.flatMap quotedChar ++ ['"']

end CacheHost.Text
