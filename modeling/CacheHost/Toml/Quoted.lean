import CacheHost.Toml.Scalar
/-!
TOML strings in their four forms. Each reader starts behind the opening quotes and ends behind the
closing ones.
-/
namespace CacheHost.Toml

/-- Of the controls only a tab may stand in a string or in a comment. -/
def isPlain (c : Char) : Bool := c == '\t' || (0x20 ≤ c.toNat && c.toNat != 0x7F)

def isSpace (c : Char) : Bool := c == ' ' || c == '\t'

def push (c : Char) (r : Option (Text × Text)) : Option (Text × Text) :=
  r.map fun p => (c :: p.1, p.2)

def shortEscape? : Char → Option Char
  | 'b' => some '\x08'
  | 't' => some '\t'
  | 'n' => some '\n'
  | 'f' => some '\x0c'
  | 'r' => some '\r'
  | 'e' => some '\x1b'
  | '"' => some '"'
  | '\\' => some '\\'
  | _ => none

def codePoint? (digits : Text) : Option Char :=
  let n := valueIn 16 digits
  if digits.all isHexDigit && decide n.isValidChar then some (Char.ofNat n) else none

def pushCode (digits : Text) (r : Option (Text × Text)) : Option (Text × Text) :=
  (codePoint? digits).bind (push · r)

def readBasic : Text → Option (Text × Text)
  | [] => none
  | '"' :: s => some ([], s)
  | '\\' :: 'x' :: a :: b :: s => pushCode [a, b] (readBasic s)
  | '\\' :: 'u' :: a :: b :: c :: d :: s => pushCode [a, b, c, d] (readBasic s)
  | '\\' :: 'U' :: a :: b :: c :: d :: e :: f :: g :: h :: s =>
    pushCode [a, b, c, d, e, f, g, h] (readBasic s)
  | '\\' :: c :: s => (shortEscape? c).bind (push · (readBasic s))
  | c :: s => if c ≠ '\\' ∧ isPlain c then push c (readBasic s) else none

def readLiteral : Text → Option (Text × Text)
  | [] => none
  | '\'' :: s => some ([], s)
  | c :: s => if isPlain c then push c (readLiteral s) else none

/-- Where a string of several lines stands after a backslash at the end of a line: the end of the
line is still to come, or the white space behind it is being left out. -/
inductive Fold where
  | no
  | owed
  | open
  deriving DecidableEq, Repr

/-- Two of the quotes in front of the closing three may belong to the string. -/
def readLongBasic : Fold → Text → Option (Text × Text)
  | _, [] => none
  | .owed, ' ' :: s => readLongBasic .owed s
  | .owed, '\t' :: s => readLongBasic .owed s
  | .owed, '\n' :: s => readLongBasic .open s
  | .owed, '\r' :: '\n' :: s => readLongBasic .open s
  | .owed, _ => none
  | .open, ' ' :: s => readLongBasic .open s
  | .open, '\t' :: s => readLongBasic .open s
  | .open, '\n' :: s => readLongBasic .open s
  | .open, '\r' :: '\n' :: s => readLongBasic .open s
  | _, '"' :: '"' :: '"' :: '"' :: '"' :: s => some (['"', '"'], s)
  | _, '"' :: '"' :: '"' :: '"' :: s => some (['"'], s)
  | _, '"' :: '"' :: '"' :: s => some ([], s)
  | _, '\\' :: ' ' :: s => readLongBasic .owed s
  | _, '\\' :: '\t' :: s => readLongBasic .owed s
  | _, '\\' :: '\n' :: s => readLongBasic .open s
  | _, '\\' :: '\r' :: '\n' :: s => readLongBasic .open s
  | _, '\\' :: 'x' :: a :: b :: s => pushCode [a, b] (readLongBasic .no s)
  | _, '\\' :: 'u' :: a :: b :: c :: d :: s => pushCode [a, b, c, d] (readLongBasic .no s)
  | _, '\\' :: 'U' :: a :: b :: c :: d :: e :: f :: g :: h :: s =>
    pushCode [a, b, c, d, e, f, g, h] (readLongBasic .no s)
  | _, '\\' :: c :: s => (shortEscape? c).bind (push · (readLongBasic .no s))
  | _, '\n' :: s => push '\n' (readLongBasic .no s)
  | _, '\r' :: '\n' :: s => push '\r' (push '\n' (readLongBasic .no s))
  | _, c :: s => if c ≠ '\\' ∧ isPlain c then push c (readLongBasic .no s) else none

def readLongLiteral : Text → Option (Text × Text)
  | [] => none
  | '\'' :: '\'' :: '\'' :: '\'' :: '\'' :: s => some (['\'', '\''], s)
  | '\'' :: '\'' :: '\'' :: '\'' :: s => some (['\''], s)
  | '\'' :: '\'' :: '\'' :: s => some ([], s)
  | '\n' :: s => push '\n' (readLongLiteral s)
  | '\r' :: '\n' :: s => push '\r' (push '\n' (readLongLiteral s))
  | c :: s => if isPlain c then push c (readLongLiteral s) else none

/-- A line end right behind the opening quotes does not count. -/
def afterOpening : Text → Text
  | '\n' :: s => s
  | '\r' :: '\n' :: s => s
  | s => s

def readString? : Text → Option (Text × Text)
  | '"' :: '"' :: '"' :: s => readLongBasic .no (afterOpening s)
  | '\'' :: '\'' :: '\'' :: s => readLongLiteral (afterOpening s)
  | '"' :: s => readBasic s
  | '\'' :: s => readLiteral s
  | _ => none

end CacheHost.Toml
