import CacheHost.Json.NumberReader
import CacheHost.Text.Numeral
/-!
Reading JSON from the front of a text. A reader returns a value and the text behind it, and fails at
the first character that rules the text out. A value that is passed over, because nothing of it is
kept, may be nested to any depth and may hold numbers out of range and unpaired surrogates.
-/
namespace CacheHost.Json
variable {α σ : Type}

abbrev Reader (α : Type) := Text → Except DecodeError (α × Text)

inductive Use where
  | keep
  | passOver
  deriving DecidableEq, Repr

def isSpace (c : Char) : Bool := c == ' ' || c == '\n' || c == '\t' || c == '\r'

def skipSpace (s : Text) : Text := s.dropWhile isSpace

def readWord (rest : Text) (v : α) : Reader α := fun s =>
  match rest, s with
  | [], s => .ok (v, s)
  | _ :: _, [] => .error .truncated
  | c :: rest, d :: s => if c = d then readWord rest v s else .error .malformed

def hexDigit? (c : Char) : Option Nat :=
  if c.isDigit then some (c.toNat - '0'.toNat)
  else if 'a' ≤ c ∧ c ≤ 'f' then some (c.toNat - 'a'.toNat + 10)
  else if 'A' ≤ c ∧ c ≤ 'F' then some (c.toNat - 'A'.toNat + 10)
  else none

def hex? (s : Text) : Option Nat :=
  s.foldl (fun v c => v.bind fun v => (hexDigit? c).map (v * 16 + ·)) (some 0)

def shortEscape? : Char → Option Char
  | '"' => some '"'
  | '\\' => some '\\'
  | '/' => some '/'
  | 'b' => some '\x08'
  | 'f' => some '\x0c'
  | 'n' => some '\n'
  | 'r' => some '\r'
  | 't' => some '\t'
  | _ => none

/-- A `\u` with fewer than four characters behind it: it may still have as many bytes. -/
def cutEscape (s : Text) : DecodeError :=
  if s.utf8Length < 4 then .truncated else .malformed

def isHighSurrogate (n : Nat) : Bool := 0xD800 ≤ n && n < 0xDC00

def isLowSurrogate (n : Nat) : Bool := 0xDC00 ≤ n && n < 0xE000

def pushChar (c : Char) (r : Except DecodeError (Text × Text)) : Except DecodeError (Text × Text) :=
  r.map fun p => (c :: p.1, p.2)

/-- Reads what follows an opening quote, up to and with the closing one. -/
def readString (use : Use) : Reader Text
  | [] => .error .truncated
  | '"' :: s => .ok ([], s)
  | '\\' :: 'u' :: a :: b :: c :: d :: s =>
    match hex? [a, b, c, d] with
    | none => .error .malformed
    | some n =>
      if !isHighSurrogate n && !isLowSurrogate n then pushChar (Char.ofNat n) (readString use s)
      else if use = .passOver then pushChar '\uFFFD' (readString use s)
      else if isLowSurrogate n then .error .malformed
      else
        match s with
        | '\\' :: 'u' :: e :: f :: g :: h :: s =>
          match hex? [e, f, g, h] with
          | none => .error .malformed
          | some m =>
            if isLowSurrogate m then
              pushChar (Char.ofNat (0x10000 + (n - 0xD800) * 0x400 + (m - 0xDC00)))
                (readString use s)
            else .error .malformed
        | '\\' :: 'u' :: s => .error (cutEscape s)
        | ['\\'] => .error .truncated
        | [] => .error .truncated
        | _ => .error .malformed
  | '\\' :: 'u' :: s => .error (cutEscape s)
  | ['\\'] => .error .truncated
  | '\\' :: c :: s =>
    match shortEscape? c with
    | some c => pushChar c (readString use s)
    | none => .error .malformed
  | c :: s => if c.toNat < 0x20 then .error .malformed else pushChar c (readString use s)

def readNumber (use : Use) (negative : Bool) : Reader Number := fun s =>
  match use with
  | .keep => do
    let (x, s) ← numeral .truncated negative s
    match x.value? with
    | some n => .ok (n, s)
    | none => .error .malformed
  | .passOver => do
    let (_, s) ← numeral .malformed negative s
    .ok (.natural 0, s)

/-- Finds the next item of an array, if there is one; `first` tells that there was none yet. -/
def nextItem (first : Bool) (s : Text) : Except DecodeError (Option Text) :=
  match skipSpace s with
  | [] => .error .truncated
  | ']' :: _ => .ok none
  | c :: s =>
    if first then .ok (some (c :: s))
    else if c = ',' then
      match skipSpace s with
      | [] => .error .truncated
      | ']' :: _ => .error .malformed
      | s => .ok (some s)
    else .error .malformed

def close (s : Text) : Text := (skipSpace s).tail

/-- Ends an array of which no further item is wanted. -/
def endArray (s : Text) : Except DecodeError Text :=
  match skipSpace s with
  | [] => .error .truncated
  | ']' :: s => .ok s
  | _ => .error .malformed

def readItemsWithin (item : Reader α) : (bound : Nat) → (first : Bool) → Reader (List α)
  | 0, _, _ => .error .malformed
  | bound + 1, first, s => do
    match ← nextItem first s with
    | none => .ok ([], close s)
    | some s =>
      let (x, s) ← item s
      let (xs, s) ← readItemsWithin item bound false s
      .ok (x :: xs, s)

/-- An item takes a character at least, so a text holds no more items than characters. -/
def readItems (item : Reader α) : Reader (List α) := fun s =>
  readItemsWithin item (s.length + 1) true s

/-- Finds the next name of an object, if there is one, and passes its opening quote. -/
def nextName (first : Bool) (s : Text) : Except DecodeError (Option Text) :=
  match skipSpace s with
  | [] => .error .truncated
  | '\x7d' :: _ => .ok none
  | c :: s =>
    if first then if c = '"' then .ok (some s) else .error .malformed
    else if c = ',' then
      match skipSpace s with
      | [] => .error .truncated
      | '"' :: s => .ok (some s)
      | _ => .error .malformed
    else .error .malformed

def colon (s : Text) : Except DecodeError Text :=
  match skipSpace s with
  | [] => .error .truncated
  | ':' :: s => .ok s
  | _ => .error .malformed

/-- Reads the members that follow an opening brace, at most `bound` of them. A member is read by its
name and put to what the members before it have given; the text it starts at is the one behind its
name. -/
def foldMembersWithin (use : Use) (member : σ → Text → Reader σ) :
    (bound : Nat) → (first : Bool) → σ → Reader σ
  | 0, _, _, _ => .error .malformed
  | bound + 1, first, acc, s => do
    match ← nextName first s with
    | none => .ok (acc, close s)
    | some s =>
      let (name, s) ← readString use s
      let (acc, s) ← member acc name s
      foldMembersWithin use member bound false acc s

def foldMembers (use : Use) (member : σ → Text → Reader σ) (init : σ) : Reader σ := fun s =>
  foldMembersWithin use member (s.length + 1) true init s

def readMembers (use : Use) (value : Reader α) : Reader (List (Text × α)) := fun s => do
  let member := fun acc name s => do
    let (v, s) ← value (← colon s)
    .ok ((name, v) :: acc, s)
  let (ms, s) ← foldMembers use member [] s
  .ok (ms.reverse, s)

/-- Reads a value whose arrays and objects are read by `array` and `object` from behind their
opening bracket. -/
def readValueWith (use : Use) (array object : Reader Json) : Reader Json := fun s =>
  match skipSpace s with
  | [] => .error .truncated
  | c :: s =>
    match c with
    | 'n' => readWord "ull".toList .null s
    | 't' => readWord "rue".toList (.bool true) s
    | 'f' => readWord "alse".toList (.bool false) s
    | '"' => (readString use s).map fun p => (.string p.1, p.2)
    | '[' => array s
    | '\x7b' => object s
    | '-' => (readNumber use true s).map fun p => (.number p.1, p.2)
    | c =>
      if c.isDigit then (readNumber use false (c :: s)).map fun p => (.number p.1, p.2)
      else .error .malformed

def readValue (use : Use) : Nat → Reader Json
  | 0 => readValueWith use (fun _ => .error .malformed) fun _ => .error .malformed
  | depth + 1 =>
    readValueWith use
      (fun s => (readItems (readValue use depth) s).map fun p => (.array p.1, p.2))
      (fun s => (readMembers use (readValue use depth) s).map fun p => (.object p.1, p.2))

def maxDepth : Nat := 127

/-- No text is nested deeper than it is long. -/
def skipValue (s : Text) : Except DecodeError Text :=
  (readValue .passOver s.length s).map (·.2)

def endDocument (s : Text) : Except DecodeError Unit :=
  if skipSpace s = [] then .ok () else .error .malformed

def ofText (s : Text) : Except DecodeError Json := do
  let (v, s) ← readValue .keep maxDepth s
  endDocument s
  .ok v

end CacheHost.Json
