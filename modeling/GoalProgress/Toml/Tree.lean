import GoalProgress.Toml.Value

/-!
# Tables under construction

While a document is read its tables are still open: a later line may add to them, as far as the way
in which a table came to be allows it. A name can be given a value once, a table can have one
header, and what is written inline is complete.

## Main definitions

* `Node`: a value, or a table or an array of tables that is still open.
* `Node.insert?`: give a value to a name, with dots or without.
* `Node.openTable?`, `Node.openItem?`: follow a header.
* `Node.closeAll`: the finished table.
-/
namespace GoalProgress.Toml

/-- How an open table came to be. -/
inductive Origin where
  /-- By a header of its own. -/
  | header
  /-- As a table around one that has a header. -/
  | surrounding
  /-- By a name with dots. -/
  | dotted
deriving DecidableEq, Repr

/-- What stands under a name while a document is read. -/
inductive Node where
  | value (v : Value)
  | table (origin : Origin) (members : List (String × Node))
  /-- An array of tables, of which the last one is still open. -/
  | items (finished : List Value) (last : List (String × Node))

namespace Node

mutual

/-- The finished value. -/
def close : Node → Value
  | .value v => v
  | .table _ members => .table (closeAll members)
  | .items finished last => .array (finished ++ [.table (closeAll last)])

/-- The finished table. -/
def closeAll : List (String × Node) → Table
  | [] => []
  | (name, node) :: members => (name, node.close) :: closeAll members

end

/-- What stands under a name. -/
def find? (members : List (String × Node)) (name : String) : Option Node := members.lookup name

/-- The members with a node under a name, in its old place or at the end. -/
def put (members : List (String × Node)) (name : String) (node : Node) : List (String × Node) :=
  match members with
  | [] => [(name, node)]
  | (other, old) :: members =>
    if other = name then (name, node) :: members else (other, old) :: put members name node

/-- The members without a name. -/
def remove (members : List (String × Node)) (name : String) : List (String × Node) :=
  members.filter (·.1 != name)

/-! ## Names with dots -/

/-- The members with a value under a name, which the names in `path` lead to. Tables on the way are
created, and those that have a header must not be entered. -/
def insert? (path : List String) (name : String) (v : Value) (members : List (String × Node)) :
    Option (List (String × Node)) :=
  match path with
  | [] => if (find? members name).isNone then some (members ++ [(name, .value v)]) else none
  | first :: path =>
    match find? members first with
    | none => (insert? path name v []).map fun inner => members ++ [(first, .table .dotted inner)]
    | some (.table origin inner) =>
      if origin = .header ∨ (origin ≠ .dotted ∧ path.isEmpty) then none
      else (insert? path name v inner).map fun inner => put members first (.table origin inner)
    | some (.items finished last) =>
      if path.isEmpty then none
      else (insert? path name v last).map fun last => put members first (.items finished last)
    | some (.value _) => none

/-! ## Headers -/

/-- The members after a change inside the table that the names in `path` lead to. Of an array of
tables the last one is meant, and tables on the way are created. -/
def within? (change : List (String × Node) → Option (List (String × Node))) (path : List String)
    (members : List (String × Node)) : Option (List (String × Node)) :=
  match path with
  | [] => change members
  | first :: path =>
    match find? members first with
    | none =>
      (within? change path []).map fun inner => members ++ [(first, .table .surrounding inner)]
    | some (.table origin inner) =>
      (within? change path inner).map fun inner => put members first (.table origin inner)
    | some (.items finished last) =>
      (within? change path last).map fun last => put members first (.items finished last)
    | some (.value _) => none

/-- The members after the header of the table `name`. A table that only surrounded others so far
becomes the last one. -/
def openTable? (name : String) (members : List (String × Node)) : Option (List (String × Node)) :=
  match find? members name with
  | none => some (members ++ [(name, .table .header [])])
  | some (.table .surrounding inner) => some (remove members name ++ [(name, .table .header inner)])
  | some _ => none

/-- The members after the header of another item of the array of tables `name`. -/
def openItem? (name : String) (members : List (String × Node)) : Option (List (String × Node)) :=
  match find? members name with
  | none => some (members ++ [(name, .items [] [])])
  | some (.items finished last) =>
    some (put members name (.items (finished ++ [.table (closeAll last)]) []))
  | some _ => none

end Node

end GoalProgress.Toml
