import CacheHost.Binary64.Shortest

namespace CacheHost

inductive Json.Number where
  /-- An integer of at most 64 bits without a sign. -/
  | natural (n : UInt64)
  /-- A negative integer, by its distance from zero. -/
  | negative (n : UInt64)
  | real (x : Float)
  deriving DecidableEq

/-- Members keep their order, and a name may occur twice. -/
inductive Json where
  | null
  | bool (b : Bool)
  | number (n : Json.Number)
  | string (s : Text)
  | array (items : List Json)
  | object (members : List (Text × Json))

namespace Json

/-- Numbers from 0.00001 to below 10^16 are written without an exponent. -/
def layout : Binary64.Layout := ⟨-5, 16, ['+']⟩

/-- There is no text for infinities and for what is no number; `null` stands for them. -/
def Number.text : Number → Text
  | .natural n => Text.ofNat n.toNat
  | .negative n => '-' :: Text.ofNat n.toNat
  | .real x => (layout.text? x).getD "null".toList

def escapedChar (c : Char) : Text :=
  match c with
  | '"' => ['\\', '"']
  | '\\' => ['\\', '\\']
  | '\x08' => ['\\', 'b']
  | '\t' => ['\\', 't']
  | '\n' => ['\\', 'n']
  | '\x0c' => ['\\', 'f']
  | '\r' => ['\\', 'r']
  | _ =>
    if c.toNat < 0x20 then
      ['\\', 'u', '0', '0', Nat.digitChar (c.toNat / 16), Nat.digitChar (c.toNat % 16)]
    else [c]

def stringText (s : Text) : Text := ['"'] ++ s.flatMap escapedChar ++ ['"']

mutual

def text : Json → Text
  | .null => "null".toList
  | .bool b => if b then "true".toList else "false".toList
  | .number n => n.text
  | .string s => stringText s
  | .array items => ['['] ++ [','].intercalate (itemTexts items) ++ [']']
  | .object members => ['\x7b'] ++ [','].intercalate (memberTexts members) ++ ['\x7d']

def itemTexts : List Json → List Text
  | [] => []
  | v :: vs => text v :: itemTexts vs

def memberTexts : List (Text × Json) → List Text
  | [] => []
  | (name, v) :: ms => (stringText name ++ [':'] ++ text v) :: memberTexts ms

end

end Json
end CacheHost
