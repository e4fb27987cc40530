import CacheHost.Toml.Quoted
/-!
Reading TOML documents. Where a reader needs a bound it is the length of the text, as every round
takes a character at least.
-/
namespace CacheHost.Toml

abbrev Reader (α : Type) := Text → Option (α × Text)

def skipSpace (s : Text) : Text := s.dropWhile isSpace

def skipBlanks (inComment : Bool) : Text → Option Text
  | [] => some []
  | '\n' :: s => skipBlanks false s
  | '\r' :: '\n' :: s => skipBlanks false s
  | c :: s =>
    if inComment then if isPlain c then skipBlanks true s else none
    else if isSpace c then skipBlanks false s
    else if c = '#' then skipBlanks true s
    else some (c :: s)

def endLine (s : Text) : Option Text :=
  match skipSpace s with
  | [] => some []
  | '#' :: s => some ('#' :: s)
  | '\n' :: s => some s
  | '\r' :: '\n' :: s => some s
  | _ => none

def isBareKeyChar (c : Char) : Bool := c.isAlphanum || c == '_' || c == '-'

def readKeyPart : Reader Text := fun s =>
  match s with
  | '"' :: s => readBasic s
  | '\'' :: s => readLiteral s
  | s =>
    match s.span isBareKeyChar with
    | ([], _) => none
    | part => some part

def maxDepth : Nat := 80

def readKeyWithin : (bound : Nat) → Reader (List Text)
  | 0, _ => none
  | bound + 1, s => do
    let (part, s) ← readKeyPart s
    match skipSpace s with
    | '.' :: s =>
      let (parts, s) ← readKeyWithin bound (skipSpace s)
      some (part :: parts, s)
    | s => some ([part], s)

def readKey : Reader (List Text) := readKeyWithin maxDepth

def isScalarChar (c : Char) : Bool := !"=,[]{} \t#\r\n".toList.contains c

/-- A date and a time of day may have a space between them. -/
def readScalar : Reader Toml := fun s =>
  let (word, rest) := s.span isScalarChar
  let (word, rest) :=
    match rest with
    | ' ' :: c :: s =>
      if isDate word && c.isDigit then
        let (time, rest) := (c :: s).span isScalarChar
        (word ++ ' ' :: time, rest)
      else (word, rest)
    | _ => (word, rest)
  (scalar? word).map (·, rest)

def readItemsWithin {α : Type} (closing : Char) (item : Reader α) : (bound : Nat) → Reader (List α)
  | 0, _ => none
  | bound + 1, s => do
    let s ← skipBlanks false s
    match Text.after? [closing] s with
    | some s => some ([], s)
    | none =>
      let (x, s) ← item s
      match ← skipBlanks false s with
      | ',' :: s =>
        let (xs, s) ← readItemsWithin closing item bound s
        some (x :: xs, s)
      | s => (Text.after? [closing] s).map ([x], ·)

def readItems {α : Type} (closing : Char) (item : Reader α) : Reader (List α) := fun s =>
  readItemsWithin closing item (s.length + 1) s

/-- Reads a key and its value; `skip` passes over what may stand on both sides of the equals sign. -/
def readAssignment (skip : Text → Option Text) (value : Reader Toml) :
    Reader (List Text × Toml) := fun s => do
  let (path, s) ← readKey s
  let s ← Text.after? ['='] (← skip s)
  let (v, s) ← value (← skip s)
  some ((path, v), s)

/-- Reads a value with arrays and written tables nested to at most the given depth. In a written
table the parts of an assignment, but not those of its key, may stand on lines of their own. -/
def readValue : Nat → Reader Toml
  | depth, s =>
    match s with
    | '[' :: s =>
      match depth with
      | 0 => none
      | depth + 1 => (readItems ']' (readValue depth) s).map fun p => (.array p.1, p.2)
    | '\x7b' :: s =>
      match depth with
      | 0 => none
      | depth + 1 => do
        let (as, s) ← readItems '\x7d' (readAssignment (skipBlanks false) (readValue depth)) s
        (ofAssignments as).map (·, s)
    | '"' :: _ | '\'' :: _ => (readString? s).map fun p => (.text p.1, p.2)
    | s => readScalar s

def readHeader (closing : Text) (s : Text) : Option (List Text × Text) := do
  let (path, s) ← readKey (skipSpace s)
  (Text.after? closing s).map (path, ·)

def readStatement : Reader Statement := fun s =>
  match s with
  | '[' :: '[' :: s => (readHeader [']', ']'] s).map fun p => (.item p.1, p.2)
  | '[' :: s => (readHeader [']'] s).map fun p => (.table p.1, p.2)
  | s =>
    (readAssignment (some ∘ skipSpace) (readValue maxDepth) s).map fun p =>
      (.assign p.1.1 p.1.2, p.2)

def readStatementsWithin : (bound : Nat) → Text → Option (List Statement)
  | 0, _ => none
  | bound + 1, s => do
    match ← skipBlanks false s with
    | [] => some []
    | s =>
      let (statement, s) ← readStatement s
      let s ← endLine s
      (readStatementsWithin bound s).map (statement :: ·)

/-- Reads a document, which may start with a byte order mark. Of its numbers only the form is looked
at. -/
def read? (s : Text) : Option Entries := do
  let s := (Text.after? ['\uFEFF'] s).getD s
  ofStatements (← readStatementsWithin (s.length + 1) s)

/-- Whether what was read is a value: its integers fit into 128 bits and its other numbers into
binary64. -/
def isSound : Toml → Bool
  | .integer n => -Int.pow 2 127 ≤ n && n < Int.pow 2 128
  | .badInteger => false
  | .real (some x) => !x.overflows
  | .array items => itemsSound items
  | .table _ entries => entriesSound entries
  | .tables items => tablesSound items
  | _ => true
where
  itemsSound : List Toml → Bool
    | [] => true
    | v :: vs => isSound v && itemsSound vs
  entriesSound : List (Text × Toml) → Bool
    | [] => true
    | (_, v) :: es => isSound v && entriesSound es
  tablesSound : List (List (Text × Toml)) → Bool
    | [] => true
    | es :: rest => entriesSound es && tablesSound rest

/-- The table that a document stands for, so far as it is wanted: there is one only if all that is
left in it are values. -/
def ofText? (wanted : Entries → Entries) (s : Text) : Option Entries :=
  ((read? s).map wanted).filter (isSound.entriesSound ·)

end CacheHost.Toml
