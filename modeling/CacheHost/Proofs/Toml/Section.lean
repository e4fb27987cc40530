import CacheHost.Toml.Section
import Mathlib.Data.List.Forall2
import Mathlib.Data.List.Nodup

namespace CacheHost.Toml

variable {es : Entries} {k : Text} {v : Toml}

section Fold
variable {σ α : Type} {step : σ → Text × Toml → Option σ} {s s' : σ}

end Fold

inductive Kind where
  | text
  /-- A number below a limit. -/
  | natural (limit : Nat)
  deriving DecidableEq

def Kind.Fits : Kind → Toml → Prop
  | .text, .text _ => True
  | .natural limit, .integer n => 0 ≤ n ∧ n < limit
  | _, _ => False

/-- A field of a section, with its value as a document would give it. -/
structure SectionField (σ : Type) where
  name : String
  kind : Kind
  value : σ → Toml

section Section
variable {σ : Type}

def Fitting (fields : List (SectionField σ)) (es : Entries) : Prop :=
  ∀ f ∈ fields, ∀ v ∈ es.lookup f.name.toList, f.kind.Fits v

/-- Each field has the value that a table gives it, or else the one it has in `init`. -/
def Overridden (fields : List (SectionField σ)) (es : Entries) (init s : σ) : Prop :=
  ∀ f ∈ fields, f.value s = (es.lookup f.name.toList).getD (f.value init)

variable {setters : List (Setter σ)} {fields : List (SectionField σ)}

namespace Implements

variable {f : SectionField σ}

end Implements

end Section
end CacheHost.Toml
