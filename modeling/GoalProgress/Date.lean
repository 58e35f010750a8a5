/-!
# Calendar dates

Dates of the proleptic Gregorian calendar, limited to the years that instants may have. The day
before and the day after exist unless they leave those years.
-/
namespace GoalProgress

/-- A date of the proleptic Gregorian calendar. -/
structure DateFields where
  year : Int
  month : Nat
  day : Nat
deriving DecidableEq, Repr

namespace DateFields

/-- The first year that a date may have. -/
def firstYear : Int := -262143

/-- The last year that a date may have. -/
def lastYear : Int := 262142

/-- Every fourth year, except the centuries that four hundred does not divide. -/
def isLeapYear (year : Int) : Bool := year % 4 == 0 && (year % 100 != 0 || year % 400 == 0)

/-- The length of a month. -/
def daysInMonth (year : Int) (month : Nat) : Nat :=
  if month = 2 then if isLeapYear year then 29 else 28
  else if month = 4 ∨ month = 6 ∨ month = 9 ∨ month = 11 then 30
  else 31

/-- The fields name an existing day of an admissible year. -/
def Valid (f : DateFields) : Prop :=
  firstYear ≤ f.year ∧ f.year ≤ lastYear ∧ 1 ≤ f.month ∧ f.month ≤ 12 ∧
    1 ≤ f.day ∧ f.day ≤ daysInMonth f.year f.month

instance (f : DateFields) : Decidable f.Valid := by unfold Valid; infer_instance

end DateFields

/-- An existing day of an admissible year. -/
structure Date extends DateFields where
  valid : toDateFields.Valid
deriving DecidableEq

namespace Date

/-- The date with the given fields, if there is one. -/
def ofFields? (year : Int) (month day : Nat) : Option Date :=
  if h : DateFields.Valid ⟨year, month, day⟩ then some ⟨⟨year, month, day⟩, h⟩ else none

/-- The day after. -/
def next? (d : Date) : Option Date :=
  ofFields? d.year d.month (d.day + 1) <|> ofFields? d.year (d.month + 1) 1 <|>
    ofFields? (d.year + 1) 1 1

/-- The day before. -/
def previous? (d : Date) : Option Date :=
  ofFields? d.year d.month (d.day - 1) <|>
    ofFields? d.year (d.month - 1) (DateFields.daysInMonth d.year (d.month - 1)) <|>
    ofFields? (d.year - 1) 12 31

end Date

end GoalProgress
