import CacheHost.Text

namespace CacheHost

inductive Address where
  | v4 (bytes : Vector UInt8 4)
  | v6 (groups : Vector UInt16 8)
  deriving DecidableEq

namespace Address

def isV4 : Address → Bool
  | .v4 _ => true
  | .v6 _ => false

def isLoopback : Address → Bool
  | .v4 bytes => bytes[0] == 127
  | .v6 groups => groups.toList == [0, 0, 0, 0, 0, 0, 0, 1]

def dotted (bytes : List Nat) : Text := ['.'].intercalate (bytes.map Text.ofNat)

def colons (groups : List UInt16) : Text :=
  [':'].intercalate (groups.map fun g => Nat.toDigits 16 g.toNat)

def zerosFrom (groups : List UInt16) (i : Nat) : Nat :=
  ((groups.drop i).takeWhile (· == 0)).length

/-- Where the first of the longest runs of zero groups starts. -/
def longestZeros (groups : List UInt16) : Nat :=
  (List.range groups.length).foldl
    (fun best i => if zerosFrom groups best < zerosFrom groups i then i else best) 0

/-- The first of the longest runs of two or more zero groups is written `::`. -/
def groupsText (groups : List UInt16) : Text :=
  let i := longestZeros groups
  let n := zerosFrom groups i
  if 2 ≤ n then colons (groups.take i) ++ [':', ':'] ++ colons (groups.drop (i + n))
  else colons groups

def text : Address → Text
  | .v4 bytes => dotted (bytes.toList.map UInt8.toNat)
  | .v6 groups =>
    match groups.toList with
    | [0, 0, 0, 0, 0, 0xFFFF, a, b] =>
      "::ffff:".toList ++
        dotted [a.toNat / 256, a.toNat % 256, b.toNat / 256, b.toNat % 256]
    | gs => groupsText gs

end Address
end CacheHost
