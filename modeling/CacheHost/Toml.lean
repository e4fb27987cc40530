import CacheHost.Binary64.Shortest

namespace CacheHost

inductive Toml.Origin where
  /-- Declared by a header of its own. -/
  | header
  /-- On the way to a table that was declared. -/
  | implied
  /-- On the way of a dotted key. -/
  | dotted
  /-- Written as a value. -/
  | closed
  deriving DecidableEq, Repr

inductive Toml where
  | text (s : Text)
  | integer (n : Int)
  /-- What is taken for an integer but is none, which shows only where its value is wanted. -/
  | badInteger
  /-- Infinities and what is no number have no decimal. -/
  | real (x : Option Binary64.Decimal)
  | bool (b : Bool)
  | date
  | array (items : List Toml)
  | table (origin : Toml.Origin) (entries : List (Text × Toml))
  /-- An array whose items are declared by headers; the last one is still open. -/
  | tables (items : List (List (Text × Toml)))

namespace Toml

abbrev Entries := List (Text × Toml)

/-- Changes or adds the value of a key, or refuses to. -/
def update (key : Text) (f : Option Toml → Option Toml) : Entries → Option Entries
  | [] => (f none).map fun v => [(key, v)]
  | e :: es =>
    if e.1 = key then (f (some e.2)).map fun v => (key, v) :: es
    else (update key f es).map (e :: ·)

def updateLast (f : Entries → Option Entries) : List Entries → Option (List Entries)
  | [] => none
  | [es] => (f es).map ([·])
  | es :: rest => (updateLast f rest).map (es :: ·)

/-- Gives a value to a dotted key. The tables on its way, those that were only implied as well, are
the key's own from then on; it must not enter a declared or a written table. It may go through the
last item of an array of tables but not end in it; `ends` tells whether it may end here. -/
def assign (ends : Bool) : List Text → Toml → Entries → Option Entries
  | [], _, _ => none
  | [k], v, es =>
    if ends then
      update k (fun
        | none => some v
        | some _ => none) es
    else none
  | k :: ks, v, es =>
    update k (fun
      | none => (assign true ks v []).map (.table .dotted)
      | some (.table .implied inner) => (assign true ks v inner).map (.table .dotted)
      | some (.table .dotted inner) => (assign true ks v inner).map (.table .dotted)
      | some (.tables items) => (updateLast (assign false ks v) items).map .tables
      | some _ => none) es

/-- Declares what `last` makes of the end of a header, and the tables on its way. -/
def declare (last : Option Toml → Option Toml) : List Text → Entries → Option Entries
  | [], _ => none
  | [k], es => update k last es
  | k :: ks, es =>
    update k (fun
      | none => (declare last ks []).map (.table .implied)
      | some (.table .closed _) => none
      | some (.table origin inner) => (declare last ks inner).map (.table origin)
      | some (.tables items) => (updateLast (declare last ks) items).map .tables
      | some _ => none) es

def declareTable : List Text → Entries → Option Entries :=
  declare fun
    | none => some (.table .header [])
    | some (.table .implied inner) => some (.table .header inner)
    | some _ => none

def declareItem : List Text → Entries → Option Entries :=
  declare fun
    | none => some (.tables [[]])
    | some (.tables items) => some (.tables (items ++ [[]]))
    | some _ => none

def within (f : Entries → Option Entries) : List Text → Entries → Option Entries
  | [], es => f es
  | k :: ks, es =>
    update k (fun
      | some (.table origin inner) => (within f ks inner).map (.table origin)
      | some (.tables items) => (updateLast (within f ks) items).map .tables
      | _ => none) es

inductive Statement where
  | table (path : List Text)
  | item (path : List Text)
  | assign (path : List Text) (value : Toml)

/-- A document read so far: the table that assignments go to, and everything. -/
structure Document where
  current : List Text := []
  root : Entries := []

def Document.add (d : Document) : Statement → Option Document
  | .table path => (declareTable path d.root).map (⟨path, ·⟩)
  | .item path => (declareItem path d.root).map (⟨path, ·⟩)
  | .assign path value =>
    (within (Toml.assign true path value) d.current d.root).map (⟨d.current, ·⟩)

def ofStatements (ss : List Statement) : Option Entries :=
  (ss.foldlM Document.add {}).map (·.root)

def ofAssignments (as : List (List Text × Toml)) : Option Toml :=
  (as.foldlM (fun es a => Toml.assign true a.1 a.2 es) []).map (.table .closed)

end Toml
end CacheHost
