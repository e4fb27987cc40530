import CacheHost.Toml

namespace CacheHost

/-- Whether a number rounds to an infinity of binary64: it reaches the middle between the largest
number and the next power of two. -/
def Binary64.Decimal.overflows (d : Binary64.Decimal) : Bool :=
  let places := (Text.ofNat d.digits).length + d.exponent
  if d.digits = 0 ∨ places < 300 then false
  else if 310 < places then true
  else
    (Nat.pow 2 54 - 1) * Nat.pow 2 970 * Nat.pow 10 (-d.exponent).toNat ≤
      d.digits * Nat.pow 10 d.exponent.toNat

namespace Toml

/-- The digits of a number without the underscores, each of which stands between two digits. -/
def ungroup? (isDigit : Char → Bool) : Text → Option Text
  | [] => none
  | [c] => if isDigit c then some [c] else none
  | c :: '_' :: s => if isDigit c then (ungroup? isDigit s).map (c :: ·) else none
  | c :: s => if isDigit c then (ungroup? isDigit s).map (c :: ·) else none

def decimalDigits? (s : Text) : Option Text := ungroup? Char.isDigit s

/-- Of the whole part of a number only the number zero starts with a zero. -/
def wholeDigits? (s : Text) : Option Text :=
  (decimalDigits? s).filter fun digits => digits.head? ≠ some '0' || digits.length == 1

def digitValue (c : Char) : Nat :=
  if c.isDigit then c.toNat - '0'.toNat
  else if 'a' ≤ c then c.toNat - 'a'.toNat + 10
  else c.toNat - 'A'.toNat + 10

def isHexDigit (c : Char) : Bool :=
  c.isDigit || ('a' ≤ c && c ≤ 'f') || ('A' ≤ c && c ≤ 'F')

def valueIn (base : Nat) (digits : Text) : Nat :=
  digits.foldl (fun n c => n * base + digitValue c) 0

def sign : Text → Bool × Text
  | '-' :: s => (true, s)
  | '+' :: s => (false, s)
  | s => (false, s)

def integer? : Text → Option Int
  | '0' :: 'x' :: s => (ungroup? isHexDigit s).map (valueIn 16 ·)
  | '0' :: 'o' :: s => (ungroup? (fun c => '0' ≤ c && c ≤ '7') s).map (valueIn 8 ·)
  | '0' :: 'b' :: s => (ungroup? (fun c => c == '0' || c == '1') s).map (valueIn 2 ·)
  | s =>
    let (negative, s) := sign s
    (wholeDigits? s).map fun digits =>
      if negative then -(valueIn 10 digits : Int) else valueIn 10 digits

/-- A word is taken for an integer before all its characters have been looked at: if it is a base
without digits, or if it starts with a digit other than zero, has no part of a number with decimals,
and has a hexadecimal digit on both sides of every underscore, one at least. -/
def looksInteger (s : Text) : Bool :=
  if s = ['0', 'x'] ∨ s = ['0', 'o'] ∨ s = ['0', 'b'] then true
  else
    let s := (sign s).2
    match Text.split '_' s with
    | first :: second :: rest =>
      !first.isEmpty && first.all Char.isDigit && first.head? ≠ some '0' &&
        !s.any (fun c => c == '.' || c == 'e' || c == 'E') &&
        (second :: rest).all (·.head?.any isHexDigit) &&
        (second :: rest).dropLast.all (·.getLast?.any isHexDigit)
    | _ => false

def isDigitOrUnderscore (c : Char) : Bool := c.isDigit || c == '_'

def exponent? : Text → Option Int
  | [] => some 0
  | c :: s =>
    if c = 'e' ∨ c = 'E' then
      let (negative, s) := sign s
      (decimalDigits? s).map fun digits =>
        if negative then -(valueIn 10 digits : Int) else valueIn 10 digits
    else none

def decimal? (s : Text) : Option Binary64.Decimal := do
  let (whole, rest) := (sign s).2.span isDigitOrUnderscore
  let whole ← wholeDigits? whole
  match rest with
  | [] => none
  | '.' :: rest =>
    let (part, rest) := rest.span isDigitOrUnderscore
    let part ← decimalDigits? part
    let e ← exponent? rest
    some ⟨valueIn 10 (whole ++ part), e - part.length⟩
  | rest =>
    let e ← exponent? rest
    some ⟨valueIn 10 whole, e⟩

def field? (n : Nat) (s : Text) : Option (Nat × Text) :=
  let (digits, rest) := s.span Char.isDigit
  if digits.length = n then some (valueIn 10 digits, rest) else none

def daysIn (year month : Nat) : Nat :=
  if month = 2 then
    if year % 4 = 0 ∧ (year % 100 ≠ 0 ∨ year % 400 = 0) then 29 else 28
  else if month = 4 ∨ month = 6 ∨ month = 9 ∨ month = 11 then 30
  else 31

def afterDate? (s : Text) : Option Text := do
  let (year, s) ← field? 4 s
  let (month, s) ← field? 2 (← Text.after? ['-'] s)
  let (day, s) ← field? 2 (← Text.after? ['-'] s)
  if 1 ≤ month ∧ month ≤ 12 ∧ 1 ≤ day ∧ day ≤ daysIn year month then some s else none

/-- What follows a time of day, whose seconds may be left out. -/
def afterTime? (s : Text) : Option Text := do
  let (hour, s) ← field? 2 s
  let (minute, s) ← field? 2 (← Text.after? [':'] s)
  if 23 < hour ∨ 59 < minute then none
  else
    match s with
    | ':' :: s => do
      let (second, s) ← field? 2 s
      if 60 < second then none
      else
        match s with
        | '.' :: s =>
          let (digits, s) := s.span Char.isDigit
          if digits = [] then none else some s
        | s => some s
    | s => some s

def isOffset : Text → Bool
  | [] => true
  | [c] => c == 'Z' || c == 'z'
  | c :: s =>
    (c == '+' || c == '-') &&
      (do
        let (hours, s) ← field? 2 s
        let (minutes, s) ← field? 2 (← Text.after? [':'] s)
        some (s.isEmpty && hours ≤ 23 && minutes ≤ 59)) == some true

def isDate (s : Text) : Bool := afterDate? s == some []

def isDateTime (s : Text) : Bool :=
  match afterDate? s with
  | some [] => true
  | some (c :: s) =>
    (c == 'T' || c == 't' || c == ' ') &&
      match afterTime? s with
      | some s => isOffset s
      | none => false
  | none => afterTime? s == some []

def scalar? (s : Text) : Option Toml :=
  if s = "true".toList then some (.bool true)
  else if s = "false".toList then some (.bool false)
  else if (sign s).2 = "inf".toList ∨ (sign s).2 = "nan".toList then some (.real none)
  else if let some n := integer? s then some (.integer n)
  else if let some x := decimal? s then some (.real (some x))
  else if isDateTime s then some .date
  else if looksInteger s then some .badInteger
  else none

end Toml
end CacheHost
