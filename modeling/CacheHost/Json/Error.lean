import CacheHost.Text

namespace CacheHost

inductive Misfit where
  | missing (field : Text)
  | repeated (field : Text)
  /-- A number other than 0 in place of a disk usage. -/
  | notUsage (n : UInt64)
  /-- Neither a disk usage nor a number. -/
  | noUsage
  /-- A value of a wrong kind or out of range. -/
  | mismatch
  deriving DecidableEq, Repr

inductive DecodeError where
  | malformed
  | truncated
  | misfit (m : Misfit)
  deriving DecidableEq, Repr

def Misfit.message? : Misfit → Option Text
  | .missing field => some ("missing field ".toList ++ ['\x60'] ++ field ++ ['\x60'])
  | .repeated field => some ("duplicate field ".toList ++ ['\x60'] ++ field ++ ['\x60'])
  | .notUsage n => some ("expected usage object or 0, got ".toList ++ Text.ofNat n.toNat)
  | .noUsage => some "data did not match any variant of untagged enum Wire".toList
  | .mismatch => none

def DecodeError.message? : DecodeError → Option Text
  | .misfit m => m.message?
  | _ => none

end CacheHost
