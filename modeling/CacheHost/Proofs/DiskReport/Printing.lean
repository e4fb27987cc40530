import CacheHost.Proofs.DiskReport.Acceptance
import CacheHost.Proofs.Text.Line

namespace CacheHost
open Text Numeral

namespace DiskReport

def spaces (more : Nat) : Text := List.replicate (more + 1) ' '

/-- What stands after a path in its row: the type of a real file system and three decimals, with
spaces in front of each. -/
structure RowTail where
  pad₁ : Nat
  fstype : Text
  pad₂ : Nat
  size : Text
  pad₃ : Nat
  used : Text
  pad₄ : Nat
  avail : Text
  usage : DiskUsage
  fstype_isWord : IsWord fstype
  fstype_isReal : isPseudo fstype = false
  size_denotes : Denotes size usage.size.toNat
  used_denotes : Denotes used usage.used.toNat
  avail_denotes : Denotes avail usage.avail.toNat

namespace RowTail

def front (t : RowTail) : Text :=
  spaces t.pad₁ ++ t.fstype ++ spaces t.pad₂ ++ t.size ++ spaces t.pad₃ ++ t.used ++ spaces t.pad₄

def text (t : RowTail) : Text := t.front ++ t.avail

def ofUsage (fstype : Text) (usage : DiskUsage) (hw : IsWord fstype)
    (hr : isPseudo fstype = false) : RowTail where
  pad₁ := 0
  fstype := fstype
  pad₂ := 0
  size := Text.ofNat usage.size.toNat
  pad₃ := 0
  used := Text.ofNat usage.used.toNat
  pad₄ := 0
  avail := Text.ofNat usage.avail.toNat
  usage := usage
  fstype_isWord := hw
  fstype_isReal := hr
  size_denotes := denotes_ofNat _
  used_denotes := denotes_ofNat _
  avail_denotes := denotes_ofNat _

variable {path : Text} {hne : path ≠ []} {ht : IsTrimmed path}

end RowTail

/-- One header line, and for each path a row that starts with the path as it is. -/
def report (header : Text) (tails : Text → RowTail) (paths : List Text) : Text :=
  (header :: paths.map fun p => p ++ (tails p).text).flatMap (· ++ ['\n'])

variable {header : Text} {tails : Text → RowTail} {paths : List Text}

end DiskReport
end CacheHost
