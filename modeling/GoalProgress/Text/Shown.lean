import GoalProgress.Text.Invisible

/-!
# Texts as messages quote them

A text inside a message stands between quotes. Quotes, backslashes and common control characters are
shown by a letter after a backslash, characters without an image by their number in hexadecimal.
-/
namespace GoalProgress.Text

/-- One character inside quotes. -/
def showChar (c : Char) : String :=
  if c = '\x00' then "\\0"
  else if c = '\t' then "\\t"
  else if c = '\r' then "\\r"
  else if c = '\n' then "\\n"
  else if c = '\\' then "\\\\"
  else if c = '"' then "\\\""
  else if isInvisible c then "\\u\x7b" ++ String.ofList (Nat.toDigits 16 c.toNat) ++ "\x7d"
  else c.toString

/-- A text between quotes. -/
def shown (s : String) : String := "\"" ++ String.join (s.toList.map showChar) ++ "\""

end GoalProgress.Text
