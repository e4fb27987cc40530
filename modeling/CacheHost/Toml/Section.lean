import CacheHost.Toml.Scalar

namespace CacheHost.Toml

def text? : Toml → Option Text
  | .text s => some s
  | _ => none

def natural? (limit : Nat) : Toml → Option Nat
  | .integer n => if 0 ≤ n ∧ n < limit then some n.toNat else none
  | _ => none

/-- A field of a section: its name, and how a value is put there. -/
abbrev Setter (σ : Type) := String × (σ → Toml → Option σ)

def setEntry {σ : Type} (setters : List (Setter σ)) (s : σ) (e : Text × Toml) : Option σ :=
  match setters.find? fun f => f.1.toList = e.1 with
  | some f => f.2 s e.2
  | none => some s

/-- A section is a table of fields, of which unknown ones do not count, or an array that starts with
the values of the first fields. A date is a value without fields. -/
def setSection {σ : Type} (setters : List (Setter σ)) (init : σ) : Toml → Option σ
  | .table _ entries => entries.foldlM (setEntry setters) init
  | .array items => (setters.zip items).foldlM (fun s p => p.1.2 s p.2) init
  | .date => some init
  | _ => none

def withoutSurplus (size : Nat) : Toml → Toml
  | .array items => .array (items.take size)
  | v => v

end CacheHost.Toml
