import CacheHost.Text

namespace CacheHost.Numeral

inductive Error where
  | empty
  | badDigit
  | tooLarge
  deriving DecidableEq, Repr

def Error.message : Error → Text
  | .empty => "cannot parse integer from empty string".toList
  | .badDigit => "invalid digit found in string".toList
  | .tooLarge => "number too large to fit in target type".toList

def digit? (c : Char) : Option Nat :=
  if c.isDigit then some (c.toNat - '0'.toNat) else none

/-- Reads on from a value. The first character that is no digit, or that takes the value to the
limit, decides the error. -/
def digits (limit : Nat) : Nat → Text → Except Error Nat
  | v, [] => .ok v
  | v, c :: s =>
    match digit? c with
    | none => .error .badDigit
    | some d => if v * 10 + d < limit then digits limit (v * 10 + d) s else .error .tooLarge

/-- Reads a numeral below a limit. It may have a plus sign and any number of leading zeros. -/
def read (limit : Nat) : Text → Except Error Nat
  | [] => .error .empty
  | ['+'] => .error .badDigit
  | '+' :: s => digits limit 0 s
  | s => digits limit 0 s

def read64 (s : Text) : Except Error UInt64 := (read UInt64.size s).map UInt64.ofNat

def read64? (s : Text) : Option UInt64 := (read64 s).toOption

end CacheHost.Numeral
