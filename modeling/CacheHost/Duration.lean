import CacheHost.Text

namespace CacheHost

structure Duration where
  nanoseconds : Nat
  deriving DecidableEq, Repr

namespace Duration

def ofMilliseconds (n : Nat) : Duration := ⟨n * 1000000⟩

def ofSeconds (seconds nanoseconds : Nat) : Duration := ⟨seconds * 1000000000 + nanoseconds⟩

/-- The decimals of `part` tenths to the power `places`, without trailing zeros. -/
def decimals (places part : Nat) : Text :=
  let digits := Text.ofNat part
  let padded := List.replicate (places - digits.length) '0' ++ digits
  let shown := (padded.reverse.dropWhile (· == '0')).reverse
  if shown = [] then [] else '.' :: shown

def inUnit (places : Nat) (unit : Text) (n : Nat) : Text :=
  Text.ofNat (n / Nat.pow 10 places) ++ decimals places (n % Nat.pow 10 places) ++ unit

def text (d : Duration) : Text :=
  let n := d.nanoseconds
  if 1000000000 ≤ n then inUnit 9 ['s'] n
  else if 1000000 ≤ n then inUnit 6 ['m', 's'] n
  else if 1000 ≤ n then inUnit 3 ['µ', 's'] n
  else inUnit 0 ['n', 's'] n

end Duration
end CacheHost
