import GoalProgress.Json.Reader
import GoalProgress.Json.Value

/-!
# JSON texts by their tokens

A value forgets how it was written. A tree keeps it: the spelling of string literals and numbers,
and the space before and after every token. Trees and JSON texts correspond, so what holds of the
text of every tree holds of every well-formed JSON text.

## Main definitions

* `Json.Tree`: a value as it is written; `Json.Tree.text`: its text.
* `Json.Tree.names`: the names of all members at any depth, as they are written.
* `Json.IsText`: the well-formed JSON texts.
-/
namespace GoalProgress.Json

/-! ## Tokens -/

/-- Space between tokens. -/
structure Space where
  bytes : Bytes
  valid : ∀ b ∈ bytes, isSpace b = true

theorem Space.not_mem (space : Space) {b : UInt8} (h : isSpace b = false) : b ∉ space.bytes := by
  intro hb
  rw [space.valid b hb] at h
  cases h

/-- No space. -/
def Space.none : Space := ⟨[], by simp⟩

/-- A single byte of space. -/
def Space.single (b : UInt8) (h : isSpace b = true) : Space := ⟨[b], List.forall_mem_singleton.2 h⟩

theorem isSpace_space : isSpace Byte.space = true := rfl

theorem isSpace_lineFeed : isSpace Byte.lineFeed = true := rfl

/-- The letters that may follow a backslash in a string literal, `u` apart. -/
def escapeLetters : Bytes := [Byte.quote, Byte.backslash, 0x2F, 0x62, 0x66, 0x6E, 0x72, 0x74]

/-- What may stand between the quotes of a string literal. -/
inductive IsStringText : Bytes → Prop
  | nil : IsStringText []
  | char {c : Char} {bs : Bytes} (hq : c ≠ '"') (hs : c ≠ '\\') (hc : 0x20 ≤ c.toNat)
      (h : IsStringText bs) : IsStringText (String.utf8EncodeChar c ++ bs)
  | letter {l : UInt8} {bs : Bytes} (hl : l ∈ escapeLetters) (h : IsStringText bs) :
      IsStringText (Byte.backslash :: l :: bs)
  | digits {a b c d : UInt8} {bs : Bytes} (hd : ∀ x ∈ [a, b, c, d], (Byte.hexValue? x).isSome)
      (h : IsStringText bs) : IsStringText (Byte.backslash :: 0x75 :: a :: b :: c :: d :: bs)

/-- A string literal as it is written, without its quotes. -/
structure StringText where
  bytes : Bytes
  valid : IsStringText bytes

/-- The literal with its quotes. -/
def StringText.quoted (s : StringText) : Bytes := Byte.quote :: (s.bytes ++ [Byte.quote])

/-- A run of digits. -/
def IsDigits (ds : Bytes) : Prop := ds ≠ [] ∧ ∀ d ∈ ds, Byte.isDigit d = true

/-- What a number may be written as: an optional minus sign, digits without a leading zero, an
optional fraction and an optional exponent. -/
def IsNumberText (bs : Bytes) : Prop :=
  ∃ sign whole fraction exponent, bs = sign ++ whole ++ fraction ++ exponent ∧
    (sign = [] ∨ sign = [Byte.minus]) ∧
    (IsDigits whole ∧ (whole.head? = some Byte.zero → whole = [Byte.zero])) ∧
    (fraction = [] ∨ ∃ ds, IsDigits ds ∧ fraction = Byte.point :: ds) ∧
    (exponent = [] ∨ ∃ e ∈ [0x65, 0x45], ∃ s ∈ [[], [Byte.plus], [Byte.minus]], ∃ ds,
      IsDigits ds ∧ exponent = e :: (s ++ ds))

/-- A number is written with digits, signs, a point and an `e` of either case. -/
theorem IsNumberText.forall_mem {P : UInt8 → Prop} {bs : Bytes} (h : IsNumberText bs)
    (hdigit : ∀ b, Byte.isDigit b = true → P b)
    (hother : ∀ b ∈ [Byte.minus, Byte.plus, Byte.point, 0x65, 0x45], P b) : ∀ b ∈ bs, P b := by
  obtain ⟨sign, whole, fraction, exponent, rfl, hsign, hwhole, hfraction, hexponent⟩ := h
  have hdigits {ds : Bytes} (hds : IsDigits ds) : ∀ b ∈ ds, P b := fun b hb => hdigit b (hds.2 b hb)
  have hs : ∀ b ∈ sign, P b := by
    rcases hsign with rfl | rfl
    · exact nofun
    · exact List.forall_mem_singleton.2 (hother _ (by simp))
  have hf : ∀ b ∈ fraction, P b := by
    rcases hfraction with rfl | ⟨ds, hds, rfl⟩
    · exact nofun
    · exact List.forall_mem_cons.2 ⟨hother _ (by simp), hdigits hds⟩
  have he : ∀ b ∈ exponent, P b := by
    rcases hexponent with rfl | ⟨e, he, s, hs, ds, hds, rfl⟩
    · exact nofun
    · have hletter : e ∈ [Byte.minus, Byte.plus, Byte.point, 0x65, 0x45] :=
        List.mem_append_right [Byte.minus, Byte.plus, Byte.point] he
      have hsign : ∀ b ∈ s, P b := by
        simp only [List.mem_cons, List.not_mem_nil, or_false] at hs
        rcases hs with rfl | rfl | rfl
        · exact nofun
        · exact List.forall_mem_singleton.2 (hother _ (by simp))
        · exact List.forall_mem_singleton.2 (hother _ (by simp))
      exact List.forall_mem_cons.2
        ⟨hother e hletter, List.forall_mem_append.2 ⟨hsign, hdigits hds⟩⟩
  exact List.forall_mem_append.2
    ⟨List.forall_mem_append.2 ⟨List.forall_mem_append.2 ⟨hs, hdigits hwhole.1⟩, hf⟩, he⟩

/-- A number as it is written. -/
structure NumberText where
  bytes : Bytes
  valid : IsNumberText bytes

/-! ## Trees -/

/-- Something with space around it. -/
structure Padded (α : Type) where
  before : Space
  value : α
  after : Space

/-- A member of an object: its name, with space around it, and its value. -/
structure Member (α : Type) where
  before : Space
  name : StringText
  after : Space
  value : Padded α

/-- A JSON value as it is written. The first space of an array or object follows the opening
bracket or brace. -/
inductive Tree where
  | null
  | boolean (b : Bool)
  | number (n : NumberText)
  | string (s : StringText)
  | array (space : Space) (items : List (Padded Tree))
  | object (space : Space) (members : List (Member Tree))

namespace Tree

mutual

/-- The text of a value, without space around it. -/
def text : Tree → Bytes
  | .null => Bytes.ofString "null"
  | .boolean true => Bytes.ofString "true"
  | .boolean false => Bytes.ofString "false"
  | .number n => n.bytes
  | .string s => s.quoted
  | .array space items =>
    Byte.openBracket :: (space.bytes ++ joined (itemTexts items) ++ [Byte.closeBracket])
  | .object space members =>
    Byte.openBrace :: (space.bytes ++ joined (memberTexts members) ++ [Byte.closeBrace])

/-- The texts of the items of an array, with the space around them. -/
def itemTexts : List (Padded Tree) → List Bytes
  | [] => []
  | ⟨before, t, after⟩ :: items => (before.bytes ++ t.text ++ after.bytes) :: itemTexts items

/-- The texts of the members of an object, with the space around them. -/
def memberTexts : List (Member Tree) → List Bytes
  | [] => []
  | ⟨before, name, after, ⟨left, t, right⟩⟩ :: members =>
    (before.bytes ++ name.quoted ++ after.bytes ++
      Byte.colon :: (left.bytes ++ t.text ++ right.bytes)) :: memberTexts members

end

mutual

/-- The names of all members at any depth, as they are written and in the order of the text. -/
def names : Tree → List Bytes
  | .null | .boolean _ | .number _ | .string _ => []
  | .array _ items => itemNames items
  | .object _ members => memberNames members

/-- The names of all members in the items of an array. -/
def itemNames : List (Padded Tree) → List Bytes
  | [] => []
  | ⟨_, t, _⟩ :: items => t.names ++ itemNames items

/-- The names of members and of all members in their values. -/
def memberNames : List (Member Tree) → List Bytes
  | [] => []
  | ⟨_, name, _, ⟨_, t, _⟩⟩ :: members => name.bytes :: (t.names ++ memberNames members)

end

/-- What holds of every tree whose items or values it holds of holds of all trees. -/
@[elab_as_elim, induction_eliminator]
theorem induction {motive : Tree → Prop} (null : motive .null)
    (boolean : ∀ b, motive (.boolean b)) (number : ∀ n, motive (.number n))
    (string : ∀ s, motive (.string s))
    (array : ∀ space items, (∀ i ∈ items, motive i.value) → motive (.array space items))
    (object : ∀ space members, (∀ m ∈ members, motive m.value.value) →
      motive (.object space members)) : ∀ t, motive t
  | .null => null
  | .boolean b => boolean b
  | .number n => number n
  | .string s => string s
  | .array space items => array space items fun i _hi =>
    induction null boolean number string array object i.value
  | .object space members => object space members fun m _hm =>
    induction null boolean number string array object m.value.value
termination_by t => sizeOf t
decreasing_by
  · have hsize := List.sizeOf_lt_of_mem _hi
    obtain ⟨before, t, after⟩ := i
    simp at hsize ⊢
    omega
  · have hsize := List.sizeOf_lt_of_mem _hm
    obtain ⟨before, name, after, ⟨left, t, right⟩⟩ := m
    simp at hsize ⊢
    omega

/-! ## Items and members -/

/-- The text of a value with the space around it. -/
def paddedText (p : Padded Tree) : Bytes := p.before.bytes ++ p.value.text ++ p.after.bytes

/-- The text of a member with the space around it. -/
def memberText (m : Member Tree) : Bytes :=
  m.before.bytes ++ m.name.quoted ++ m.after.bytes ++ Byte.colon :: paddedText m.value

@[simp] theorem itemTexts_eq_map (items : List (Padded Tree)) :
    itemTexts items = items.map paddedText := by
  induction items with
  | nil => simp [itemTexts]
  | cons p items ih => obtain ⟨before, t, after⟩ := p; simp [itemTexts, paddedText, ih]

@[simp] theorem memberTexts_eq_map (members : List (Member Tree)) :
    memberTexts members = members.map memberText := by
  induction members with
  | nil => simp [memberTexts]
  | cons m members ih =>
    obtain ⟨before, name, after, ⟨left, t, right⟩⟩ := m
    simp [memberTexts, memberText, paddedText, ih]

@[simp] theorem itemNames_eq_flatMap (items : List (Padded Tree)) :
    itemNames items = items.flatMap fun p => p.value.names := by
  induction items with
  | nil => simp [itemNames]
  | cons p items ih => obtain ⟨before, t, after⟩ := p; simp [itemNames, ih]

@[simp] theorem memberNames_eq_flatMap (members : List (Member Tree)) :
    memberNames members = members.flatMap fun m => m.name.bytes :: m.value.value.names := by
  induction members with
  | nil => simp [memberNames]
  | cons m members ih =>
    obtain ⟨before, name, after, ⟨left, t, right⟩⟩ := m
    simp [memberNames, ih]

end Tree

/-- A well-formed JSON text: a value with space around it. -/
def IsText (bs : Bytes) : Prop := ∃ p : Padded Tree, bs = Tree.paddedText p

theorem Tree.isText (t : Tree) : IsText t.text :=
  ⟨⟨.none, t, .none⟩, by simp [paddedText, Space.none]⟩

end GoalProgress.Json
