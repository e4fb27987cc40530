import CacheHost.Text
/-!
Reading UTF-8. The reader is a machine that takes one byte at a time: it stands between characters
or holds one that is still owed bytes. Every longest piece that could begin a character but does
not complete one is damage, and so is every byte that begins none.
-/
namespace CacheHost

abbrev Bytes := List UInt8

namespace Utf8

/-- A character that has begun: the bytes it is owed, the range the next of them must lie in, and
the bits read so far. -/
structure Pending where
  owed : Nat
  low : UInt8
  high : UInt8
  bits : Nat

/-- What has been read: a character, or damage. -/
abbrev Piece := Option Char

/-- A byte that stands between characters: what it completes at once, or what it begins. The ranges
keep out overlong forms, surrogates and code points above U+10FFFF. -/
def start (b : UInt8) : List Piece × Option Pending :=
  let n := b.toNat
  if n < 0x80 then ([some (Char.ofNat n)], none)
  else if n < 0xC2 then ([none], none)
  else if n < 0xE0 then ([], some ⟨1, 0x80, 0xBF, n - 0xC0⟩)
  else if n < 0xF0 then
    let low := if n = 0xE0 then 0xA0 else 0x80
    let high := if n = 0xED then 0x9F else 0xBF
    ([], some ⟨2, low, high, n - 0xE0⟩)
  else if n < 0xF5 then
    let low := if n = 0xF0 then 0x90 else 0x80
    let high := if n = 0xF4 then 0x8F else 0xBF
    ([], some ⟨3, low, high, n - 0xF0⟩)
  else ([none], none)

def step : Option Pending → UInt8 → List Piece × Option Pending
  | none, b => start b
  | some p, b =>
    if p.low ≤ b ∧ b ≤ p.high then
      let bits := p.bits * 64 + (b.toNat - 0x80)
      if p.owed ≤ 1 then ([some (Char.ofNat bits)], none)
      else ([], some ⟨p.owed - 1, 0x80, 0xBF, bits⟩)
    else (none :: (start b).1, (start b).2)

def run : Option Pending → Bytes → List Piece
  | none, [] => []
  | some _, [] => [none]
  | state, b :: bs => (step state b).1 ++ run (step state b).2 bs

def decodeLossy (bs : Bytes) : Text := (run none bs).map (·.getD '\uFFFD')

def decode? (bs : Bytes) : Option Text := (run none bs).mapM id

def encode (s : Text) : Bytes := s.flatMap String.utf8EncodeChar

end Utf8
end CacheHost
