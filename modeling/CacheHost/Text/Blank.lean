import CacheHost.Text

namespace CacheHost.Text

/-- The Unicode property `White_Space`. The zero-width space U+200B, the byte order mark U+FEFF and
the separators U+001C to U+001F do not have it. -/
def isBlank (c : Char) : Bool :=
  let n := c.toNat
  (0x09 ≤ n && n ≤ 0x0D) || n == 0x20 || n == 0x85 || n == 0xA0 || n == 0x1680 ||
    (0x2000 ≤ n && n ≤ 0x200A) || n == 0x2028 || n == 0x2029 || n == 0x202F || n == 0x205F ||
    n == 0x3000

def trimStart (s : Text) : Text := s.dropWhile isBlank

def trimEnd (s : Text) : Text := (s.reverse.dropWhile isBlank).reverse

def trim (s : Text) : Text := trimEnd (trimStart s)

def firstWord (s : Text) : Text := s.takeWhile (!isBlank ·)

/-- The last word of a text and what stands before the blank in front of it; `none` if there is no
blank in front of it, or no word. -/
def lastWord? (s : Text) : Option (Text × Text) :=
  let r := s.reverse.dropWhile isBlank
  match r.dropWhile (!isBlank ·) with
  | [] => none
  | _ :: before => some (before.reverse, (r.takeWhile (!isBlank ·)).reverse)

end CacheHost.Text
