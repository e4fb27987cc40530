import CacheHost.Json
import CacheHost.Json.Error
/-!
Reading JSON numbers. An integer that fits into 64 bits stays one; any other number is its first
digits, as many as fit into 64 bits, scaled by powers of ten in binary64 arithmetic, so that a
number of many digits may be off by a unit in the last place.
-/
namespace CacheHost.Json

/-- The significant digits read so far, and the power of ten that they are scaled by. -/
structure Scaled where
  digits : Nat
  exponent : Int
  deriving DecidableEq, Repr

def digitOf (c : Char) : Nat := c.toNat - '0'.toNat

/-- Takes the digits of a whole number as long as 64 bits hold them, and counts the others. -/
def wholeDigits (digits : Nat) : Text → Scaled
  | [] => ⟨digits, 0⟩
  | c :: s =>
    if digits * 10 + digitOf c < UInt64.size then wholeDigits (digits * 10 + digitOf c) s
    else ⟨digits, s.length + 1⟩

def Scaled.addDecimals (x : Scaled) : Text → Scaled
  | [] => x
  | c :: s =>
    if x.digits * 10 + digitOf c < UInt64.size then
      Scaled.addDecimals ⟨x.digits * 10 + digitOf c, x.exponent - 1⟩ s
    else x

def tenTo (n : Nat) : Float := Float.ofScientific 1 false n

/-- Divides by ten to the power `n`, in steps of at most 308. After two steps nothing is left of 64
bits. -/
def scaleDown (x : Float) (n : Nat) : Float :=
  if n ≤ 308 then x / tenTo n
  else if n ≤ 616 then x / tenTo 308 / tenTo (n - 308)
  else 0

def Scaled.value? (x : Scaled) : Option Float :=
  let f := (UInt64.ofNat x.digits).toFloat
  if x.exponent < 0 then some (scaleDown f (-x.exponent).toNat)
  else if x.exponent ≤ 308 then
    let y := f * tenTo x.exponent.toNat
    if y.isInf then none else some y
  else if x.digits = 0 then some 0
  else none

/-- Adds a written exponent. One of more than 31 bits leaves zero or is out of range. -/
def Scaled.shift? (x : Scaled) (negative : Bool) (digits : Text) : Option Scaled :=
  let n := digits.foldl (fun n c => n * 10 + digitOf c) 0
  if n < 0x80000000 then
    let e := if negative then x.exponent - n else x.exponent + n
    some ⟨x.digits, max (-0x80000000) (min e 0x7FFFFFFF)⟩
  else if x.digits = 0 ∨ negative then some ⟨0, 0⟩
  else none

def Number.ofWhole (negative : Bool) (n : Nat) : Number :=
  if negative then
    if 0 < n ∧ n ≤ 0x8000000000000000 then .negative (UInt64.ofNat n) else .real (-(UInt64.ofNat n).toFloat)
  else .natural (UInt64.ofNat n)

def Number.ofScaled? (negative : Bool) (x : Scaled) : Option Number :=
  x.value?.map fun f => .real (if negative then -f else f)

structure Numeral where
  negative : Bool
  whole : Text
  decimals : Option Text
  exponent : Option (Bool × Text)
  deriving DecidableEq, Repr

def Numeral.value? (x : Numeral) : Option Number :=
  let scaled := wholeDigits 0 x.whole
  match x.decimals, x.exponent with
  | none, none =>
    if scaled.exponent = 0 then some (.ofWhole x.negative scaled.digits)
    else Number.ofScaled? x.negative scaled
  | decimals, exponent =>
    let scaled := scaled.addDecimals (decimals.getD [])
    match exponent with
    | none => Number.ofScaled? x.negative scaled
    | some (down, digits) => (scaled.shift? down digits).bind (Number.ofScaled? x.negative)

/-- The digits that a text starts with, of which there has to be one. `atEnd` is the error of a text
that ends where they should be. -/
def someDigits (atEnd : DecodeError) (s : Text) : Except DecodeError (Text × Text) :=
  match s with
  | [] => .error atEnd
  | c :: _ => if c.isDigit then .ok (s.span Char.isDigit) else .error .malformed

def wholePart (atEnd : DecodeError) (s : Text) : Except DecodeError (Text × Text) := do
  let (digits, rest) ← someDigits atEnd s
  if digits.head? = some '0' ∧ digits ≠ ['0'] then .error .malformed else .ok (digits, rest)

def decimalPart (atEnd : DecodeError) (s : Text) : Except DecodeError (Option Text × Text) :=
  match s with
  | '.' :: s => do
    let (digits, rest) ← someDigits atEnd s
    .ok (some digits, rest)
  | s => .ok (none, s)

def exponentPart (atEnd : DecodeError) (s : Text) :
    Except DecodeError (Option (Bool × Text) × Text) :=
  match s with
  | c :: s =>
    if c = 'e' ∨ c = 'E' then do
      let (down, s) := match s with
        | '-' :: s => (true, s)
        | '+' :: s => (false, s)
        | s => (false, s)
      let (digits, rest) ← someDigits atEnd s
      .ok (some (down, digits), rest)
    else .ok (none, c :: s)
  | [] => .ok (none, [])

def numeral (atEnd : DecodeError) (negative : Bool) (s : Text) :
    Except DecodeError (Numeral × Text) := do
  let (whole, s) ← wholePart atEnd s
  let (decimals, s) ← decimalPart atEnd s
  let (exponent, s) ← exponentPart atEnd s
  .ok (⟨negative, whole, decimals, exponent⟩, s)

end CacheHost.Json
