/-!
# TOML values

What a TOML document holds. A document is a table: named values in the order in which their names
first appear, no name occurring twice.
-/
namespace GoalProgress.Toml

/-- A TOML value. -/
inductive Value where
  | text (s : String)
  | integer (n : Int)
  | real (x : Float)
  | boolean (b : Bool)
  /-- A date, a time of day or both; which one it is plays no role. -/
  | moment
  | array (items : List Value)
  | table (members : List (String × Value))

/-- Named values, in the order in which their names first appear. -/
abbrev Table := List (String × Value)

/-- The value of a name. -/
def Table.get? (t : Table) (name : String) : Option Value := t.lookup name

/-- The names in a table. -/
def Table.names (t : Table) : List String := t.map (·.1)

end GoalProgress.Toml
