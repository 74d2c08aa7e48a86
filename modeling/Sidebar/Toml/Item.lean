import Sidebar.Toml.Value

namespace Sidebar.Toml

inductive Origin where
  | header
  /-- On the way to a table further down that has a header. -/
  | passage
  | dotted
deriving DecidableEq, Repr

inductive Item where
  | value (v : Value)
  | table (origin : Origin) (rows : List (String × Item))
  | tables (elements : List (List (String × Item)))

abbrev Rows := List (String × Item)

mutual

def Item.toValue : Item → Value
  | .value v => v
  | .table _ rows => .table (rowValues rows)
  | .tables elements => .array (elementValues elements)

def rowValues : List (String × Item) → List (String × Value)
  | [] => []
  | (key, item) :: rows => (key, item.toValue) :: rowValues rows

def elementValues : List (List (String × Item)) → List Value
  | [] => []
  | rows :: elements => .table (rowValues rows) :: elementValues elements

end

namespace Rows

def set (key : String) (item : Item) : Rows → Rows
  | [] => [(key, item)]
  | (k, old) :: rows => if k = key then (key, item) :: rows else (k, old) :: set key item rows

/-- Changes the table at the end of a path. The tables that are missing on the way are made, of the
given origin; an array of tables stands for its last element. The change is told the origin of the
table it is made to. -/
def change (made : Origin) (alter : Origin → Rows → Option Rows) :
    List String → Origin → Rows → Option Rows
  | [], origin, rows => alter origin rows
  | key :: path, _, rows =>
    match rows.lookup key with
    | none => do return rows.set key (.table made (← change made alter path made []))
    | some (.table origin inner) =>
      if made = .dotted ∧ origin = .header then none
      else do return rows.set key (.table origin (← change made alter path origin inner))
    | some (.tables elements) =>
      match elements.getLast? with
      | none => none
      | some last => do
        return rows.set key (.tables (elements.dropLast ++ [← change made alter path .header last]))
    | some (.value _) => none

def add (key : String) (v : Value) (rows : Rows) : Option Rows :=
  if (rows.lookup key).isSome then none else some (rows ++ [(key, .value v)])

def insert (path : List String) (key : String) (v : Value) (rows : Rows) : Option Rows :=
  change .dotted
    (fun origin rows => if path.isEmpty ∨ origin = .dotted then add key v rows else none)
    path .header rows

end Rows

end Sidebar.Toml
