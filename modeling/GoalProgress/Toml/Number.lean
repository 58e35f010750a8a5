import GoalProgress.Text.Digits
import GoalProgress.Toml.Value

/-!
# TOML numbers

Integers have 64 bits and may be written in four bases; all other numbers have double precision.
Digits may be grouped by underscores.
-/
namespace GoalProgress.Toml.Number

/-- A run of digits, without the underscores, each of which has to stand between two digits. -/
def readDigits? (base : Nat) (cs : List Char) : Option (List Char × List Char) :=
  let run := cs.takeWhile fun c => Text.isDigitIn base c || c == '_'
  if (run.splitOn '_').any (·.isEmpty) then none
  else some (run.filter (· != '_'), cs.drop run.length)

/-- The base that a letter after a zero stands for. -/
def base? : Char → Option Nat
  | 'x' => some 16
  | 'o' => some 8
  | 'b' => some 2
  | _ => none

/-- An integer of 64 bits. -/
def ofInt? (n : Int) : Option Value :=
  if Int64.minValue.toInt ≤ n ∧ n ≤ Int64.maxValue.toInt then some (.integer n) else none

/-- The number `m · 10 ^ e` in double precision. -/
def realOf (m : Nat) (e : Int) : Float :=
  let magnitude := (Nat.toDigits 10 m).length + e
  if m = 0 ∨ magnitude < -400 then 0
  else if 400 < magnitude then 1 / 0
  else if e < 0 then Float.ofScientific m true e.natAbs
  else Float.ofScientific m false e.natAbs

/-- A number that is no integer. It must not exceed the greatest number of double precision; no such
bound holds for negative numbers. -/
def ofReal? (negative : Bool) (x : Float) : Option Value :=
  if negative then some (.real (-x)) else if x.isInf then none else some (.real x)

/-- The fraction after a point, if there is one. -/
def readFraction? : List Char → Option (List Char × List Char)
  | '.' :: rest => readDigits? 10 rest
  | cs => some ([], cs)

/-- The exponent after the letter `e`, if there is one. -/
def readExponent? : List Char → Option (Int × List Char)
  | c :: rest =>
    if c == 'e' || c == 'E' then
      match rest with
      | '-' :: rest =>
        (readDigits? 10 rest).map fun (ds, rest) => (-(Text.number 10 ds : Int), rest)
      | '+' :: rest => (readDigits? 10 rest).map fun (ds, rest) => ((Text.number 10 ds : Int), rest)
      | rest => (readDigits? 10 rest).map fun (ds, rest) => ((Text.number 10 ds : Int), rest)
    else some (0, c :: rest)
  | [] => some (0, [])

/-- A decimal number after its sign. -/
def readDecimal? (negative : Bool) (cs : List Char) : Option (Value × List Char) := do
  let (whole, afterWhole) ← readDigits? 10 cs
  if whole.head? == some '0' && 1 < whole.length then none
  let (fraction, rest) ← readFraction? afterWhole
  let (exponent, rest) ← readExponent? rest
  if rest.length = afterWhole.length then
    let n := Text.number 10 whole
    return (← ofInt? (if negative then -n else n), rest)
  let x := realOf (Text.number 10 (whole ++ fraction)) (exponent - fraction.length)
  return (← ofReal? negative x, rest)

/-- A number after its sign, which may be one of the two that have no digits. -/
def readUnsigned? (negative : Bool) : List Char → Option (Value × List Char)
  | 'i' :: 'n' :: 'f' :: rest => some (.real (if negative then -(1 / 0) else 1 / 0), rest)
  | 'n' :: 'a' :: 'n' :: rest => some (.real (0 / 0), rest)
  | cs => readDecimal? negative cs

/-- A number. A base other than ten has no sign. -/
def read? : List Char → Option (Value × List Char)
  | '+' :: rest => readUnsigned? false rest
  | '-' :: rest => readUnsigned? true rest
  | '0' :: c :: rest =>
    match base? c with
    | some base => do
      let (ds, rest) ← readDigits? base rest
      return (← ofInt? (Text.number base ds), rest)
    | none => readUnsigned? false ('0' :: c :: rest)
  | cs => readUnsigned? false cs

end GoalProgress.Toml.Number
