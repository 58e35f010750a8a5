import GoalProgress.Json.Escape
import GoalProgress.Json.Numeral

/-!
# JSON values and their compact text

A value is printed without any space between its tokens, with the members of an object in their
order. Numerals are printed as they are.
-/
namespace GoalProgress.Json

/-- A JSON value. Members keep their order and may repeat a name. -/
inductive Value where
  | null
  | boolean (b : Bool)
  | number (n : Numeral)
  | string (s : String)
  | array (items : List Value)
  | object (members : List (String × Value))

/-- The elements joined by single commas. -/
def joined (parts : List Bytes) : Bytes := [Byte.comma].intercalate parts

@[simp] theorem joined_nil : joined [] = [] := rfl

theorem joined_cons (part : Bytes) (parts : List Bytes) :
    joined (part :: parts) = part ++ parts.flatMap (Byte.comma :: ·) := by
  induction parts generalizing part with
  | nil => simp [joined]
  | cons next parts ih =>
    have h : joined (part :: next :: parts) = part ++ Byte.comma :: joined (next :: parts) := by
      simp [joined, List.intercalate]
    rw [h, ih, List.flatMap_cons, List.cons_append]

namespace Value

/-- An integer. -/
def ofInt (n : Int) : Value := .number (.ofInt n)

mutual

/-- The compact text of a value. -/
def print : Value → Bytes
  | .null => Bytes.ofString "null"
  | .boolean true => Bytes.ofString "true"
  | .boolean false => Bytes.ofString "false"
  | .number n => n.print
  | .string s => quoted .full s
  | .array items => Byte.openBracket :: (joined (printItems items) ++ [Byte.closeBracket])
  | .object members => Byte.openBrace :: (joined (printMembers members) ++ [Byte.closeBrace])

/-- The compact texts of the items of an array. -/
def printItems : List Value → List Bytes
  | [] => []
  | v :: vs => v.print :: printItems vs

/-- The compact texts of the members of an object. -/
def printMembers : List (String × Value) → List Bytes
  | [] => []
  | (name, v) :: members => (quoted .full name ++ Byte.colon :: v.print) :: printMembers members

end

@[simp] theorem printItems_eq_map (vs : List Value) : printItems vs = vs.map print := by
  induction vs with
  | nil => simp [printItems]
  | cons v vs ih => simp [printItems, ih]

@[simp] theorem printMembers_eq_map (members : List (String × Value)) :
    printMembers members = members.map fun m => quoted .full m.1 ++ Byte.colon :: m.2.print := by
  induction members with
  | nil => simp [printMembers]
  | cons m members ih => obtain ⟨name, v⟩ := m; simp [printMembers, ih]

end Value

end GoalProgress.Json
