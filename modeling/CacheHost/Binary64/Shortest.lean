import CacheHost.Text
/-!
The shortest decimal of a binary64 number: of the decimals that round to it, one with the fewest
digits, and of those the nearest. All arithmetic is exact.
-/
namespace CacheHost.Binary64

/-- A positive finite number, as `mantissa * 2 ^ exponent`. -/
structure Dyadic where
  mantissa : Nat
  exponent : Int
  deriving DecidableEq, Repr

structure Decimal where
  digits : Nat
  exponent : Int
  deriving DecidableEq, Repr

/-- The magnitude behind 63 bits whose exponent field is not all ones. -/
def dyadic (bits : Nat) : Dyadic :=
  let field : Nat := bits / Nat.pow 2 52
  let fraction : Nat := bits % Nat.pow 2 52
  if field = 0 then ⟨fraction, -1074⟩ else ⟨Nat.pow 2 52 + fraction, (field : Int) - 1075⟩

/-- The number and the ends of the interval that rounds to it, as numerators over one
denominator. -/
structure Interval where
  low : Nat
  value : Nat
  high : Nat
  denominator : Nat
  /-- Whether the ends round to the number too. -/
  closed : Bool

/-- Below a power of two the neighbours are twice as close, so the interval is shorter there. -/
def interval (d : Dyadic) : Interval :=
  let short := d.mantissa = Nat.pow 2 52 ∧ -1074 < d.exponent
  let low := 4 * d.mantissa - (if short then 1 else 2)
  let scale := Nat.pow 2 (d.exponent - 2).toNat
  ⟨low * scale, 4 * d.mantissa * scale, (4 * d.mantissa + 2) * scale,
    Nat.pow 2 (2 - d.exponent).toNat, d.mantissa % 2 = 0⟩

/-- Whether `c * 10 ^ e` lies in the interval. -/
def Interval.holds (i : Interval) (c : Nat) (e : Int) : Bool :=
  let x := c * Nat.pow 10 e.toNat * i.denominator
  let unit := Nat.pow 10 (-e).toNat
  if i.closed then i.low * unit ≤ x && x ≤ i.high * unit
  else i.low * unit < x && x < i.high * unit

/-- The nearer of the two neighbours of the number among the multiples of `10 ^ e` that round to it,
the even one if both are as near. -/
def Interval.onGrid? (i : Interval) (e : Int) : Option Decimal :=
  let numerator := i.value * Nat.pow 10 (-e).toNat
  let denominator := i.denominator * Nat.pow 10 e.toNat
  let below := numerator / denominator
  let rest := 2 * (numerator % denominator)
  match i.holds below e, i.holds (below + 1) e with
  | true, true =>
    if rest < denominator ∨ (rest = denominator ∧ below % 2 = 0) then some ⟨below, e⟩
    else some ⟨below + 1, e⟩
  | true, false => some ⟨below, e⟩
  | false, true => some ⟨below + 1, e⟩
  | false, false => none

/-- The exponent of the leading decimal digit. -/
def Interval.magnitude (i : Interval) : Int :=
  if i.denominator ≤ i.value then (Text.ofNat (i.value / i.denominator)).length - 1
  else
    -((Text.ofNat ((i.denominator - 1) / i.value)).length : Int)

/-- The grids with 1, 2, … 17 digits; the last always holds a decimal that rounds to the number. -/
def Interval.shortest (i : Interval) : Decimal :=
  ((List.range 17).findSome? fun (n : Nat) => i.onGrid? (i.magnitude - n)).getD ⟨0, 0⟩

/-- The digits and the exponent of the first of them, without zeros at the end. -/
def Decimal.scientific (d : Decimal) : Text × Int :=
  let digits := Text.ofNat d.digits
  ((digits.reverse.dropWhile (· == '0')).reverse, digits.length - 1 + d.exponent)

/-- How a number is laid out: without an exponent from `10 ^ least` to below `10 ^ limit`. -/
structure Layout where
  least : Int
  limit : Int
  positiveSign : Text

def Layout.place (l : Layout) (digits : Text) (e : Int) : Text :=
  if l.least ≤ e ∧ e < l.limit then
    if 0 ≤ e then
      let whole := digits.take (e.toNat + 1)
      let part := digits.drop (e.toNat + 1)
      whole ++ List.replicate (e.toNat + 1 - whole.length) '0' ++ ['.'] ++
        (if part = [] then ['0'] else part)
    else ['0', '.'] ++ List.replicate ((-e).toNat - 1) '0' ++ digits
  else
    digits.take 1 ++ (if digits.length ≤ 1 then [] else '.' :: digits.drop 1) ++ ['e'] ++
      (if 0 ≤ e then l.positiveSign else []) ++ Text.ofInt e

def Layout.text? (l : Layout) (x : Float) : Option Text :=
  let bits := x.toBits.toNat
  let magnitude := bits % Nat.pow 2 63
  let sign := if bits / Nat.pow 2 63 = 1 then ['-'] else []
  if 2047 * Nat.pow 2 52 ≤ magnitude then none
  else if magnitude = 0 then some (sign ++ l.place ['0'] 0)
  else
    let (digits, e) := (interval (dyadic magnitude)).shortest.scientific
    some (sign ++ l.place digits e)

end CacheHost.Binary64
