import CacheHost.Json.Reader
/-!
Which texts are JSON, and what they denote. The relations state the grammar of JSON and do not look
at the reader. A string denotes the characters that it shows, so half of a surrogate pair denotes
nothing.
-/
namespace CacheHost.Json

/-- A value as it is written: a number is still the digits that show it. -/
inductive Form where
  | null
  | bool (b : Bool)
  | number (x : Numeral)
  | string (s : Text)
  | array (items : List Form)
  | object (members : List (Text × Form))

def IsSpaces (s : Text) : Prop := ∀ c ∈ s, c ∈ [' ', '\n', '\t', '\r']

instance (s : Text) : Decidable (IsSpaces s) :=
  List.decidableBAll (· ∈ [' ', '\n', '\t', '\r']) s

theorem isSpaces_nil : IsSpaces [] := by decide

def IsDigits (s : Text) : Prop := s ≠ [] ∧ ∀ c ∈ s, c.isDigit = true

instance (s : Text) : Decidable (IsDigits s) :=
  @instDecidableAnd _ _ inferInstance (List.decidableBAll (·.isDigit = true) s)

inductive ShowsDecimals : Text → Option Text → Prop
  | none : ShowsDecimals [] none
  | some {ds : Text} (h : IsDigits ds) : ShowsDecimals ('.' :: ds) (some ds)

inductive ShowsExponent : Text → Option (Bool × Text) → Prop
  | none : ShowsExponent [] none
  | bare {mark : Char} {ds : Text} (hm : mark ∈ ['e', 'E']) (h : IsDigits ds) :
    ShowsExponent (mark :: ds) (some (false, ds))
  | plus {mark : Char} {ds : Text} (hm : mark ∈ ['e', 'E']) (h : IsDigits ds) :
    ShowsExponent (mark :: '+' :: ds) (some (false, ds))
  | minus {mark : Char} {ds : Text} (hm : mark ∈ ['e', 'E']) (h : IsDigits ds) :
    ShowsExponent (mark :: '-' :: ds) (some (true, ds))

/-- A zero stands at the front only alone. -/
inductive ShowsNumeral : Text → Numeral → Prop
  | intro {negative : Bool} {whole point mark : Text} {decimals : Option Text}
    {exponent : Option (Bool × Text)} (hw : IsDigits whole)
    (hz : whole.head? = some '0' → whole = ['0']) (hd : ShowsDecimals point decimals)
    (he : ShowsExponent mark exponent) :
    ShowsNumeral ((if negative then ['-'] else []) ++ (whole ++ (point ++ mark)))
      ⟨negative, whole, decimals, exponent⟩

def IsHexDigit (c : Char) (n : Nat) : Prop :=
  "0123456789abcdef".toList[n]? = some c ∨ "0123456789ABCDEF".toList[n]? = some c

instance (c : Char) (n : Nat) : Decidable (IsHexDigit c n) :=
  inferInstanceAs (Decidable (_ ∨ _))

def IsCode (t : Text) (n : Nat) : Prop :=
  ∃ ds : List (Char × Nat), ds.length = 4 ∧ (∀ d ∈ ds, IsHexDigit d.1 d.2) ∧
    t = ds.map (·.1) ∧ n = ds.foldl (fun n d => n * 16 + d.2) 0

def shortEscapes : List (Char × Char) :=
  [('"', '"'), ('\\', '\\'), ('/', '/'), ('b', '\x08'), ('f', '\x0c'), ('n', '\n'), ('r', '\r'),
    ('t', '\t')]

/-- What stands between quotes, and the text that it denotes. A character beyond the first 65536 may
be given by two codes, which are the halves of a surrogate pair. -/
inductive Quotes : Text → Text → Prop
  | nil : Quotes [] []
  | plain {c : Char} {t s : Text} (hc : 0x20 ≤ c.toNat) (hq : c ≠ '"') (hb : c ≠ '\\')
    (h : Quotes t s) : Quotes (c :: t) (c :: s)
  | escape {mark c : Char} {t s : Text} (hm : (mark, c) ∈ shortEscapes) (h : Quotes t s) :
    Quotes ('\\' :: mark :: t) (c :: s)
  | code {digits : Text} {c : Char} {t s : Text} (hc : IsCode digits c.toNat) (h : Quotes t s) :
    Quotes ('\\' :: 'u' :: (digits ++ t)) (c :: s)
  | pair {high low : Text} {c : Char} {t s : Text} (hc : 0x10000 ≤ c.toNat)
    (hh : IsCode high (0xD800 + (c.toNat - 0x10000) / 0x400))
    (hl : IsCode low (0xDC00 + (c.toNat - 0x10000) % 0x400)) (h : Quotes t s) :
    Quotes ('\\' :: 'u' :: (high ++ '\\' :: 'u' :: (low ++ t))) (c :: s)

inductive ShowsName : Text → Text → Prop
  | intro {before t s after : Text} (hb : IsSpaces before) (h : Quotes t s) (ha : IsSpaces after) :
    ShowsName (before ++ '"' :: (t ++ '"' :: after)) s

structure WrittenMember where
  name : Text
  value : Form
  nameText : Text
  valueText : Text

def WrittenMember.text (m : WrittenMember) : Text := m.nameText ++ ':' :: m.valueText

def WrittenMember.member (m : WrittenMember) : Text × Form := (m.name, m.value)

/-- A text and the value that it denotes. Of an array and of an object the items and the members are
given with their texts. -/
inductive Denotes : Text → Form → Prop
  | padded {before t after : Text} {v : Form} (hb : IsSpaces before) (h : Denotes t v)
    (ha : IsSpaces after) : Denotes (before ++ (t ++ after)) v
  | null : Denotes "null".toList .null
  | false : Denotes "false".toList (.bool false)
  | true : Denotes "true".toList (.bool true)
  | number {t : Text} {x : Numeral} (h : ShowsNumeral t x) : Denotes t (.number x)
  | string {t s : Text} (h : Quotes t s) : Denotes ('"' :: (t ++ ['"'])) (.string s)
  | noItems {gap : Text} (hg : IsSpaces gap) : Denotes ('[' :: (gap ++ [']'])) (.array [])
  | array {es : List (Text × Form)} (h : ∀ e ∈ es, Denotes e.1 e.2) :
    Denotes ('[' :: ([','].intercalate (es.map (·.1)) ++ [']'])) (.array (es.map (·.2)))
  | noMembers {gap : Text} (hg : IsSpaces gap) :
    Denotes ('\x7b' :: (gap ++ ['\x7d'])) (.object [])
  | object {ms : List WrittenMember} (hn : ∀ m ∈ ms, ShowsName m.nameText m.name)
    (hv : ∀ m ∈ ms, Denotes m.valueText m.value) :
    Denotes ('\x7b' :: ([','].intercalate (ms.map WrittenMember.text) ++ ['\x7d']))
      (.object (ms.map WrittenMember.member))

namespace Form

/-- An integer is written without sign, fraction and exponent. -/
def IsNatural (v : Form) (n : UInt64) : Prop :=
  ∃ digits, v = .number ⟨false, digits, none, none⟩ ∧ Nat.ofDigitChars 10 digits 0 = n.toNat

/-- Arrays and objects are nested to at most the given depth, and no number is out of range. -/
inductive Fits : Nat → Form → Prop
  | null {d : Nat} : Fits d .null
  | bool {d : Nat} (b : Bool) : Fits d (.bool b)
  | number {d : Nat} {x : Numeral} (h : x.value? ≠ none) : Fits d (.number x)
  | string {d : Nat} (s : Text) : Fits d (.string s)
  | array {d : Nat} {vs : List Form} (h : ∀ v ∈ vs, Fits d v) : Fits (d + 1) (.array vs)
  | object {d : Nat} {ms : List (Text × Form)} (h : ∀ m ∈ ms, Fits d m.2) :
    Fits (d + 1) (.object ms)

mutual

/-- The value behind its written form. A number that is out of range has none; `null` stands for
it. -/
def value : Form → Json
  | .null => .null
  | .bool b => .bool b
  | .number x => (x.value?.map .number).getD .null
  | .string s => .string s
  | .array vs => .array (itemValues vs)
  | .object ms => .object (memberValues ms)

def itemValues : List Form → List Json
  | [] => []
  | v :: vs => v.value :: itemValues vs

def memberValues : List (Text × Form) → List (Text × Json)
  | [] => []
  | (name, v) :: ms => (name, v.value) :: memberValues ms

end

theorem itemValues_eq_map (vs : List Form) : itemValues vs = vs.map value := by
  induction vs with
  | nil => rfl
  | cons v vs ih => rw [itemValues, ih, List.map_cons]

theorem memberValues_eq_map (ms : List (Text × Form)) :
    memberValues ms = ms.map fun m => (m.1, m.2.value) := by
  induction ms with
  | nil => rfl
  | cons m ms ih => rw [memberValues, ih, List.map_cons]

@[simp] theorem value_array (vs : List Form) : value (.array vs) = .array (vs.map value) := by
  rw [value, itemValues_eq_map]

@[simp] theorem value_object (ms : List (Text × Form)) :
    value (.object ms) = .object (ms.map fun m => (m.1, m.2.value)) := by
  rw [value, memberValues_eq_map]

theorem value_number {x : Numeral} {n : Number} (h : x.value? = some n) :
    value (.number x) = .number n := by
  rw [value, h]
  rfl

end Form

end CacheHost.Json
