import GoalProgress.Proofs.Json.Escape
import GoalProgress.Proofs.Text.Decimal
import GoalProgress.Json.Value

/-!
# Trees without space

A value is printed without space between its tokens, its texts escaped and its integers in decimal.
The tree of such a text is built from the same parts as the value.

## Main definitions

* `Json.Tree.ofString`, `Json.Tree.ofInt`: texts and integers as they are printed.
* `Json.Tree.compactArray`, `Json.Tree.compactObject`: items and members without space.
-/
namespace GoalProgress.Json

theorem joined_cons_of_ne_nil (part : Bytes) {parts : List Bytes} (h : parts ≠ []) :
    joined (part :: parts) = part ++ Byte.comma :: joined parts := by
  cases parts with
  | nil => exact absurd rfl h
  | cons next parts => rw [joined_cons, joined_cons, List.flatMap_cons, List.cons_append]

theorem joined_append (part : Bytes) (parts more : List Bytes) :
    joined (part :: parts ++ more) = joined (part :: parts) ++ more.flatMap (Byte.comma :: ·) := by
  rw [List.cons_append, joined_cons, joined_cons, List.flatMap_append, List.append_assoc]

/-! ## Numbers -/

theorem isDigits_digits (n : Nat) : IsDigits (Decimal.digits n) :=
  ⟨Decimal.digits_ne_nil n, fun _ hd => Decimal.isDigit_of_mem_digits hd⟩

/-- Integers in decimal are well-formed numbers. -/
theorem isNumberText_ofInt (n : Int) : IsNumberText (Decimal.ofInt n) := by
  have hwhole (m : Nat) : IsDigits (Decimal.digits m) ∧
      ((Decimal.digits m).head? = some Byte.zero → Decimal.digits m = [Byte.zero]) := by
    refine ⟨isDigits_digits m, ?_⟩
    intro h
    rw [Decimal.eq_zero_of_head?_digits h, Decimal.digits_of_lt (by decide)]
    rfl
  cases n with
  | ofNat m =>
    exact ⟨[], Decimal.digits m, [], [], by simp [Decimal.ofInt], .inl rfl, hwhole m, .inl rfl,
      .inl rfl⟩
  | negSucc m =>
    exact ⟨[Byte.minus], Decimal.digits (m + 1), [], [], by simp [Decimal.ofInt], .inr rfl,
      hwhole (m + 1), .inl rfl, .inl rfl⟩

theorem print_ofInt (n : Int) : (Numeral.ofInt n).print = Decimal.ofInt n := by
  cases n with
  | ofNat m => simp [Numeral.ofInt, Numeral.print, Decimal.ofInt]
  | negSucc m => simp [Numeral.ofInt, Numeral.print, Decimal.ofInt, Int.negSucc_lt_zero]

/-! ## Trees -/

/-- A text as it is escaped in a style. -/
def StringText.ofString {style : EscapeStyle} (hs : style.Sound) (s : String) : StringText :=
  ⟨escape style (Bytes.ofString s), isStringText_escape hs s⟩

namespace Tree

/-- A text as a value is printed. -/
def ofString (s : String) : Tree := .string (.ofString EscapeStyle.full_sound s)

/-- An integer as a value is printed. -/
def ofInt (n : Int) : Tree := .number ⟨Decimal.ofInt n, isNumberText_ofInt n⟩

/-- A tree with no space around it. -/
def tight (t : Tree) : Padded Tree := ⟨.none, t, .none⟩

/-- A member with no space between its tokens. -/
def member (name : String) (t : Tree) : Member Tree :=
  ⟨.none, .ofString EscapeStyle.full_sound name, .none, t.tight⟩

/-- An array with no space between its tokens. -/
def compactArray (items : List Tree) : Tree := .array .none (items.map tight)

/-- An object with no space between its tokens. -/
def compactObject (members : List (String × Tree)) : Tree :=
  .object .none (members.map fun m => member m.1 m.2)

@[simp] theorem text_ofString (s : String) : (ofString s).text = (Value.string s).print := by
  simp [ofString, text, StringText.ofString, StringText.quoted, Value.print, quoted]

@[simp] theorem text_ofInt (n : Int) : (ofInt n).text = (Value.ofInt n).print := by
  simp [ofInt, text, Value.ofInt, Value.print, print_ofInt]

@[simp] theorem paddedText_tight (t : Tree) : paddedText t.tight = t.text := by
  simp [paddedText, tight, Space.none]

@[simp] theorem memberText_member (name : String) (t : Tree) :
    memberText (member name t) = quoted .full name ++ Byte.colon :: t.text := by
  simp [memberText, member, Space.none, StringText.ofString, StringText.quoted, quoted]

@[simp] theorem text_compactArray (items : List Tree) :
    (compactArray items).text =
      Byte.openBracket :: (joined (items.map text) ++ [Byte.closeBracket]) := by
  simp [compactArray, text, Space.none, Function.comp_def]

@[simp] theorem text_compactObject (members : List (String × Tree)) :
    (compactObject members).text =
      Byte.openBrace :: (joined (members.map fun m => quoted .full m.1 ++ Byte.colon :: m.2.text) ++
        [Byte.closeBrace]) := by
  simp [compactObject, text, Space.none, Function.comp_def]

/-- Further members stand before the closing brace, each behind a comma. -/
theorem text_compactObject_append (m : String × Tree) (members more : List (String × Tree)) :
    (compactObject (m :: members ++ more)).text =
      (compactObject (m :: members)).text.dropLast ++
        (more.flatMap fun m => Byte.comma :: (quoted .full m.1 ++ Byte.colon :: m.2.text)) ++
        [Byte.closeBrace] := by
  have hdrop (bs : Bytes) : (Byte.openBrace :: (bs ++ [Byte.closeBrace])).dropLast =
      Byte.openBrace :: bs := by
    rw [← List.cons_append, List.dropLast_concat]
  rw [text_compactObject, text_compactObject, List.map_append, List.map_cons, joined_append,
    List.flatMap_map, hdrop]
  simp

@[simp] theorem names_ofString (s : String) : (ofString s).names = [] := by simp [ofString, names]

@[simp] theorem names_ofInt (n : Int) : (ofInt n).names = [] := by simp [ofInt, names]

@[simp] theorem names_compactArray (items : List Tree) :
    (compactArray items).names = items.flatMap names := by
  simp [compactArray, names, tight, List.flatMap_map]

@[simp] theorem names_compactObject (members : List (String × Tree)) :
    (compactObject members).names =
      members.flatMap fun m => escape .full (Bytes.ofString m.1) :: m.2.names := by
  simp [compactObject, names, member, tight, StringText.ofString, List.flatMap_map]

end Tree

end GoalProgress.Json
