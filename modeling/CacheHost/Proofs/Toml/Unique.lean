import CacheHost.Toml.Reader
import Mathlib.Data.List.Basic
import Mathlib.Data.List.Nodup

namespace CacheHost.Toml

/-- No table in a value has two values for one key. -/
inductive IsUnique : Toml → Prop
  | text (s : Text) : IsUnique (.text s)
  | integer (n : Int) : IsUnique (.integer n)
  | badInteger : IsUnique .badInteger
  | real (x : Option Binary64.Decimal) : IsUnique (.real x)
  | bool (b : Bool) : IsUnique (.bool b)
  | date : IsUnique .date
  | array {items : List Toml} : (∀ v ∈ items, IsUnique v) → IsUnique (.array items)
  | table (origin : Origin) {es : Entries} : (es.map (·.1)).Nodup → (∀ e ∈ es, IsUnique e.2) →
      IsUnique (.table origin es)
  | tables {items : List Entries} : (∀ es ∈ items, (es.map (·.1)).Nodup) →
      (∀ es ∈ items, ∀ e ∈ es, IsUnique e.2) → IsUnique (.tables items)

variable {key : Text} {f : Option Toml → Option Toml} {es es' : Entries}

def Statement.IsUnique : Statement → Prop
  | .assign _ value => value.IsUnique
  | _ => True

end CacheHost.Toml
