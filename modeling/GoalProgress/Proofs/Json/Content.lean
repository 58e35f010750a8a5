import GoalProgress.Proofs.Json.Compact

/-!
# What a JSON text says

The content of a JSON text is what is left of it when the space between tokens and the escapes in
string literals are undone: members keep their order and may repeat a name, and numbers are kept as
they are written.

## Main definitions

* `Json.StringText.value`: what a string literal stands for.
* `Json.Content`, `Json.Tree.content`: a value without its layout.
* `Json.Says`: a text and its content.
-/
namespace GoalProgress.Json

/-! ## Contents -/

/-- What a string literal stands for: a text, or, if an escape in it is half of a surrogate pair by
itself, nothing but the bytes that it is written with. -/
inductive StringValue where
  | text (s : String)
  | unpaired (bs : Bytes)
deriving DecidableEq, Repr

/-- What a string literal stands for. -/
def StringText.value (s : StringText) : StringValue :=
  match readString (s.bytes ++ [Byte.quote]) with
  | .ok (text, _) => .text text
  | .error _ => .unpaired s.bytes

/-- A JSON value without its layout. -/
inductive Content where
  | null
  | boolean (b : Bool)
  | number (bs : Bytes)
  | string (s : StringValue)
  | array (items : List Content)
  | object (members : List (StringValue × Content))

namespace Tree

mutual

/-- A value without its layout. -/
def content : Tree → Content
  | .null => .null
  | .boolean b => .boolean b
  | .number n => .number n.bytes
  | .string s => .string s.value
  | .array _ items => .array (itemContents items)
  | .object _ members => .object (memberContents members)

/-- The items of an array without their layout. -/
def itemContents : List (Padded Tree) → List Content
  | [] => []
  | ⟨_, t, _⟩ :: items => t.content :: itemContents items

/-- The members of an object without their layout. -/
def memberContents : List (Member Tree) → List (StringValue × Content)
  | [] => []
  | ⟨_, name, _, ⟨_, t, _⟩⟩ :: members => (name.value, t.content) :: memberContents members

end

/-- A member without its layout. -/
def memberContent (m : Member Tree) : StringValue × Content := (m.name.value, m.value.value.content)

@[simp] theorem itemContents_eq_map (items : List (Padded Tree)) :
    itemContents items = items.map (·.value.content) := by
  induction items with
  | nil => simp [itemContents]
  | cons p items ih => obtain ⟨before, t, after⟩ := p; simp [itemContents, ih]

@[simp] theorem memberContents_eq_map (members : List (Member Tree)) :
    memberContents members = members.map memberContent := by
  induction members with
  | nil => simp [memberContents]
  | cons m members ih =>
    obtain ⟨before, name, after, ⟨left, t, right⟩⟩ := m
    simp [memberContents, memberContent, ih]

@[simp] theorem content_array (space : Space) (items : List (Padded Tree)) :
    (array space items).content = .array (items.map (·.value.content)) := by
  rw [content, itemContents_eq_map]

@[simp] theorem content_object (space : Space) (members : List (Member Tree)) :
    (object space members).content = .object (members.map memberContent) := by
  rw [content, memberContents_eq_map]

@[simp] theorem content_compactArray (items : List Tree) :
    (compactArray items).content = .array (items.map content) := by
  simp [compactArray, tight, Function.comp_def]

end Tree

/-- The bytes are a JSON text, and this is its content. -/
def Says (bs : Bytes) (c : Content) : Prop :=
  ∃ p : Padded Tree, bs = Tree.paddedText p ∧ p.value.content = c

theorem Tree.says_content (p : Padded Tree) : Says (paddedText p) p.value.content := ⟨p, rfl, rfl⟩

/-! ## Literals without escapes -/

theorem readStringFrom_verbatim (lenient : Bool) {bs : Bytes} (h : ∀ b ∈ bs, needsEscape b = false)
    (acc rest : Bytes) :
    readStringFrom lenient .plain acc (bs ++ Byte.quote :: rest) =
      .ok (bs.reverse ++ acc, rest) := by
  induction bs generalizing acc with
  | nil => simp [readStringFrom]
  | cons b bs ih =>
    rw [List.forall_mem_cons] at h
    have hb := h.1
    simp only [needsEscape, Bool.or_eq_false_iff, beq_eq_false_iff_ne,
      decide_eq_false_iff_not] at hb
    simp [readStringFrom, StringState.next, hb, ih h.2]

/-- Without a backslash a literal is the encoding of a text that needs no escapes. -/
theorem IsStringText.exists_eq_ofString {bs : Bytes} (h : IsStringText bs)
    (hs : Byte.backslash ∉ bs) :
    ∃ s : String, bs = Bytes.ofString s ∧ ∀ b ∈ bs, needsEscape b = false := by
  induction h with
  | nil => exact ⟨"", by decide, nofun⟩
  | @char c bs hquote hbackslash hcontrol _ ih =>
    obtain ⟨s, rfl, hverbatim⟩ := ih fun hmem => hs (List.mem_append_right _ hmem)
    refine ⟨String.ofList (c :: s.toList), ?_, ?_⟩
    · rw [Bytes.ofString_ofList, Bytes.ofChars_cons, Bytes.ofString_eq]
    · exact List.forall_mem_append.2
        ⟨(needsEscape_encode_iff c).2 ⟨hquote, hbackslash, hcontrol⟩, hverbatim⟩
  | letter => exact absurd List.mem_cons_self hs
  | digits => exact absurd List.mem_cons_self hs

namespace StringText

/-- What a literal stands for is what is read from it. -/
theorem value_of_read {s : StringText} {t : String} (rest : Bytes)
    (h : readString (s.bytes ++ [Byte.quote]) = .ok (t, rest)) : s.value = .text t := by
  rw [value, h]

/-- **A literal without escapes stands for the text it is written as.** -/
theorem value_of_bytes {s : StringText} {t : String} (h : s.bytes = Bytes.ofString t)
    (hs : Byte.backslash ∉ s.bytes) : s.value = .text t := by
  obtain ⟨_, _, hverbatim⟩ := s.valid.exists_eq_ofString hs
  have hread : readString (s.bytes ++ [Byte.quote]) = .ok (t, []) := by
    rw [readString, readStringFrom_verbatim false hverbatim]
    simp only [bind, Except.bind, List.append_nil, List.reverse_reverse, h,
      Bytes.toString?_ofString]
    rfl
  exact value_of_read [] hread

theorem value_ofString {style : EscapeStyle} (hs : style.Sound) {s : String}
    (h : isVerbatim (Bytes.ofString s) = true) : (ofString hs s).value = .text s := by
  have hbytes : (ofString hs s).bytes = Bytes.ofString s := (escape_eq_self_iff hs _).2 h
  refine value_of_bytes hbytes ?_
  rw [hbytes]
  intro hmem
  rw [isVerbatim, Bool.not_eq_true', List.any_eq_false] at h
  exact h _ hmem rfl

theorem value_ofString_ne {style : EscapeStyle} (hs : style.Sound) {s t : String}
    (h : isVerbatim (Bytes.ofString s) = true) (hne : s ≠ t) : (ofString hs s).value ≠ .text t := by
  rw [value_ofString hs h, ne_eq, StringValue.text.injEq]
  exact hne

theorem exists_value_eq {s : StringText} (hs : Byte.backslash ∉ s.bytes) :
    ∃ t, s.value = .text t ∧ s.bytes = Bytes.ofString t := by
  obtain ⟨t, ht, _⟩ := s.valid.exists_eq_ofString hs
  exact ⟨t, value_of_bytes ht hs, ht⟩

/-- A literal without escapes has no quote inside. -/
theorem quote_not_mem {s : StringText} (hs : Byte.backslash ∉ s.bytes) :
    Byte.quote ∉ s.bytes := by
  obtain ⟨_, _, hverbatim⟩ := s.valid.exists_eq_ofString hs
  exact fun hmem => absurd (hverbatim _ hmem) (by decide)

end StringText

end GoalProgress.Json
