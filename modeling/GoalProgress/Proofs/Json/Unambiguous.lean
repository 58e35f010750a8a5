import GoalProgress.Proofs.Json.Content
import GoalProgress.Proofs.Json.Key

/-!
# A JSON text says one thing only

A text can be taken apart in several ways, for the space behind an opening bracket may be counted to
the array or to its first item. What it says is the same in all of them: from the first byte on,
every token ends where it has to, so any two trees with one text have one content.

## Main definitions

* `Json.Kind`, `Json.kindOf?`: what the first byte of a value tells.
* `Json.Told`: parts of a text that can be told from it.
-/
namespace GoalProgress.Json

/-! ## Tokens -/

theorem skipSpace_space (space : Space) (rest : Bytes) :
    skipSpace (space.bytes ++ rest) = skipSpace rest :=
  List.dropWhile_append_of_pos space.valid

theorem skipSpace_cons {b : UInt8} (h : isDelimiter b = false ∨ isSpace b = false) (rest : Bytes) :
    skipSpace (b :: rest) = b :: rest := by
  have hspace : isSpace b = false := by
    rcases h with h | h
    · simp only [isDelimiter, Bool.or_eq_false_iff] at h
      exact h.1.1.1.1
    · exact h
  rw [skipSpace, List.dropWhile_cons_of_neg (by simp [hspace])]

/-- A string literal ends at the first quote that no backslash takes. -/
theorem Enclosed.append_quote_inj {bs cs rest rest' : Bytes} (hb : Enclosed bs) (hc : Enclosed cs)
    (h : bs ++ Byte.quote :: rest = cs ++ Byte.quote :: rest') : bs = cs ∧ rest = rest' := by
  induction hb generalizing cs with
  | nil =>
    cases hc with
    | nil => exact ⟨rfl, (List.cons.inj h).2⟩
    | plain hq => exact absurd (List.cons.inj h).1.symm hq
    | pair => exact absurd (List.cons.inj h).1 (by decide)
  | plain hq hs _ ih =>
    cases hc with
    | nil => exact absurd (List.cons.inj h).1 hq
    | plain _ _ hc =>
      obtain ⟨rfl, htail⟩ := List.cons.inj h
      obtain ⟨rfl, hrest⟩ := ih hc htail
      exact ⟨rfl, hrest⟩
    | pair => exact absurd (List.cons.inj h).1 hs
  | pair b _ ih =>
    cases hc with
    | nil => exact absurd (List.cons.inj h).1 (by decide)
    | plain _ hs => exact absurd (List.cons.inj h).1.symm hs
    | pair _ hc =>
      obtain ⟨rfl, htail⟩ := List.cons.inj (List.cons.inj h).2
      obtain ⟨rfl, hrest⟩ := ih hc htail
      exact ⟨rfl, hrest⟩

/-- What has no delimiter in it ends at the first one. -/
theorem append_delimited_inj {bs cs rest rest' : Bytes} (hb : ∀ b ∈ bs, isDelimiter b = false)
    (hc : ∀ b ∈ cs, isDelimiter b = false) (hrest : Delimited rest) (hrest' : Delimited rest')
    (h : bs ++ rest = cs ++ rest') : bs = cs ∧ rest = rest' := by
  have hcut {bs rest : Bytes} (hb : ∀ b ∈ bs, isDelimiter b = false) (hrest : Delimited rest) :
      (bs ++ rest).takeWhile (!isDelimiter ·) = bs := by
    rw [List.takeWhile_append_of_pos fun b hmem => by rw [hb b hmem]; rfl]
    cases rest with
    | nil => simp
    | cons x rest => rw [List.takeWhile_cons_of_neg (by simp [hrest x rfl]), List.append_nil]
  obtain rfl : bs = cs := by rw [← hcut hb hrest, h, hcut hc hrest']
  exact ⟨rfl, List.append_cancel_left h⟩

theorem isDelimiter_of_isDigit {b : UInt8} (h : Byte.isDigit b = true) : isDelimiter b = false := by
  rw [← Bool.not_eq_true]
  intro hdelimiter
  simp only [isDelimiter, isSpace, Bool.or_eq_true, beq_iff_eq] at hdelimiter
  rcases hdelimiter with ((((((rfl | rfl) | rfl) | rfl) | rfl) | rfl) | rfl) | rfl <;>
    exact absurd h (by decide)

theorem NumberText.not_delimiter (n : NumberText) : ∀ b ∈ n.bytes, isDelimiter b = false := by
  have hall : ([Byte.minus, Byte.plus, Byte.point, 0x65, 0x45].all fun b => !isDelimiter b) =
      true := rfl
  refine n.valid.forall_mem (fun _ => isDelimiter_of_isDigit) ?_
  intro b hb
  simpa using List.all_eq_true.1 hall b hb

/-! ## First bytes -/

/-- The kinds of values that their first bytes tell apart. -/
inductive Kind where
  | null
  | boolean (b : Bool)
  | number
  | string
  | array
  | object

/-- The kind of value that starts with a byte. -/
def kindOf? (b : UInt8) : Option Kind :=
  if Byte.isDigit b || b == Byte.minus then some .number
  else if b = 0x6E then some .null
  else if b = 0x74 then some (.boolean true)
  else if b = 0x66 then some (.boolean false)
  else if b = Byte.quote then some .string
  else if b = Byte.openBracket then some .array
  else if b = Byte.openBrace then some .object
  else none

theorem not_delimiter_of_kindOf? {b : UInt8} {k : Kind} (h : kindOf? b = some k) :
    isDelimiter b = false := by
  rw [← Bool.not_eq_true]
  intro hdelimiter
  simp only [isDelimiter, isSpace, Bool.or_eq_true, beq_iff_eq] at hdelimiter
  rcases hdelimiter with ((((((rfl | rfl) | rfl) | rfl) | rfl) | rfl) | rfl) | rfl <;> cases h

namespace Tree

/-- The kind of a value. -/
def kind : Tree → Kind
  | .null => .null
  | .boolean b => .boolean b
  | .number _ => .number
  | .string _ => .string
  | .array _ _ => .array
  | .object _ _ => .object

/-- The first byte of a value tells its kind. -/
theorem exists_text_eq (t : Tree) : ∃ b bs, t.text = b :: bs ∧ kindOf? b = some t.kind := by
  cases t with
  | null => exact ⟨0x6E, nullTail, by rw [text]; rfl, rfl⟩
  | boolean b =>
    cases b with
    | true => exact ⟨0x74, trueTail, by rw [text]; rfl, rfl⟩
    | false => exact ⟨0x66, falseTail, by rw [text]; rfl, rfl⟩
  | number n =>
    obtain ⟨bytes, sign, whole, fraction, exponent, rfl, hsign, ⟨⟨hne, hdigits⟩, _⟩, _⟩ := n
    rcases hsign with rfl | rfl
    · cases whole with
      | nil => exact absurd rfl hne
      | cons d ds =>
        refine ⟨d, ds ++ fraction ++ exponent, by simp [text], ?_⟩
        rw [kindOf?, hdigits d List.mem_cons_self]
        rfl
    · exact ⟨Byte.minus, whole ++ fraction ++ exponent, by simp [text], rfl⟩
  | string s => exact ⟨Byte.quote, s.bytes ++ [Byte.quote], by rw [text]; rfl, rfl⟩
  | array space items => exact ⟨Byte.openBracket, _, by rw [text], rfl⟩
  | object space members => exact ⟨Byte.openBrace, _, by rw [text], rfl⟩

/-- A value starts with no byte that may follow one. -/
theorem exists_text_eq_not_delimiter (t : Tree) :
    ∃ b bs, t.text = b :: bs ∧ isDelimiter b = false := by
  obtain ⟨b, bs, htext, hkind⟩ := t.exists_text_eq
  exact ⟨b, bs, htext, not_delimiter_of_kindOf? hkind⟩

/-- Values whose texts start alike are of one kind. -/
theorem kind_eq_of_text_append {t t' : Tree} {rest rest' : Bytes}
    (h : t.text ++ rest = t'.text ++ rest') : t.kind = t'.kind := by
  obtain ⟨b, bs, htext, hkind⟩ := t.exists_text_eq
  obtain ⟨b', bs', htext', hkind'⟩ := t'.exists_text_eq
  rw [htext, htext', List.cons_append, List.cons_append, List.cons.injEq] at h
  rw [h.1, hkind', Option.some.injEq] at hkind
  exact hkind.symm

end Tree

/-! ## One content -/

/-- What may follow a part of an array, an object or a text: nothing, a comma or a closing byte. -/
def Ended (rest : Bytes) : Prop :=
  ∀ b, rest.head? = some b → b ∈ [Byte.comma, Byte.closeBracket, Byte.closeBrace]

theorem Ended.cons {b : UInt8} (h : b ∈ [Byte.comma, Byte.closeBracket, Byte.closeBrace])
    (rest : Bytes) : Ended (b :: rest) := by
  intro x hx
  rw [List.head?_cons, Option.some.injEq] at hx
  rwa [← hx]

theorem Ended.delimited {rest : Bytes} (h : Ended rest) : Delimited rest := by
  intro b hb
  have hmem := h b hb
  simp only [List.mem_cons, List.not_mem_nil, or_false] at hmem
  rcases hmem with rfl | rfl | rfl <;> rfl

theorem Ended.skipSpace {rest : Bytes} (h : Ended rest) : skipSpace rest = rest := by
  cases rest with
  | nil => rfl
  | cons b rest =>
    refine skipSpace_cons (.inr ?_) rest
    have hmem := h b rfl
    simp only [List.mem_cons, List.not_mem_nil, or_false] at hmem
    rcases hmem with rfl | rfl | rfl <;> rfl

/-- A part can be told from its text wherever it ends, however much space is before it. -/
def Told {α γ : Type} (text : α → Bytes) (said : α → γ) (a : α) : Prop :=
  ∀ (space space' : Space) (a' : α) {rest rest' : Bytes}, Ended rest → Ended rest' →
    space.bytes ++ (text a ++ rest) = space'.bytes ++ (text a' ++ rest') →
      said a = said a' ∧ rest = rest'

section Parts

variable {α γ : Type} {text : α → Bytes} {said : α → γ} {y : UInt8}

theorem ended_flatMap (hy : y ∈ [Byte.closeBracket, Byte.closeBrace]) (as : List α)
    (rest : Bytes) : Ended (as.flatMap (fun a => Byte.comma :: text a) ++ y :: rest) := by
  cases as with
  | nil => exact .cons (List.mem_cons_of_mem _ hy) rest
  | cons a as => exact .cons List.mem_cons_self _

/-- Parts behind commas can be told from their text. -/
theorem told_flatMap {as : List α} (h : ∀ a ∈ as, Told text said a)
    (hy : y ∈ [Byte.closeBracket, Byte.closeBrace]) {as' : List α} {rest rest' : Bytes}
    (heq : as.flatMap (fun a => Byte.comma :: text a) ++ y :: rest =
      as'.flatMap (fun a => Byte.comma :: text a) ++ y :: rest') :
    as.map said = as'.map said ∧ rest = rest' := by
  have hne : y ≠ Byte.comma := by
    rintro rfl
    exact absurd hy (by decide)
  induction as generalizing as' with
  | nil =>
    cases as' with
    | nil => exact ⟨rfl, (List.cons.inj heq).2⟩
    | cons a' as' => exact absurd (List.cons.inj heq).1 hne
  | cons a as ih =>
    cases as' with
    | nil => exact absurd (List.cons.inj heq).1.symm hne
    | cons a' as' =>
      rw [List.forall_mem_cons] at h
      simp only [List.flatMap_cons, List.cons_append, List.append_assoc, List.cons.injEq,
        true_and] at heq
      obtain ⟨hsaid, htail⟩ := h.1 .none .none a' (ended_flatMap hy as rest)
        (ended_flatMap hy as' rest') heq
      obtain ⟨hmap, hrest⟩ := ih h.2 htail
      exact ⟨by rw [List.map_cons, List.map_cons, hsaid, hmap], hrest⟩

/-- Joined parts can be told from their text, for none of them looks like the end. -/
theorem told_joined {as : List α} (h : ∀ a ∈ as, Told text said a)
    (hy : y ∈ [Byte.closeBracket, Byte.closeBrace])
    (hstart : ∀ (a : α) (rest : Bytes), (skipSpace (text a ++ rest)).head? ≠ some y)
    {space space' : Space} {as' : List α} {rest rest' : Bytes}
    (heq : space.bytes ++ (joined (as.map text) ++ y :: rest) =
      space'.bytes ++ (joined (as'.map text) ++ y :: rest')) :
    as.map said = as'.map said ∧ rest = rest' := by
  have hend (rest : Bytes) : skipSpace (y :: rest) = y :: rest :=
    (Ended.cons (List.mem_cons_of_mem _ hy) rest).skipSpace
  have hskip := congrArg skipSpace heq
  rw [skipSpace_space, skipSpace_space] at hskip
  cases as with
  | nil =>
    cases as' with
    | nil =>
      simp only [List.map_nil, joined_nil, List.nil_append, hend] at hskip
      exact ⟨rfl, (List.cons.inj hskip).2⟩
    | cons a' as' =>
      rw [List.map_nil, joined_nil, List.nil_append, hend, List.map_cons, joined_cons,
        List.append_assoc] at hskip
      exact absurd (by rw [← hskip]; rfl) (hstart a' _)
  | cons a as =>
    cases as' with
    | nil =>
      rw [List.map_nil, joined_nil, List.nil_append, hend, List.map_cons, joined_cons,
        List.append_assoc] at hskip
      exact absurd (by rw [hskip]; rfl) (hstart a _)
    | cons a' as' =>
      rw [List.forall_mem_cons] at h
      simp only [List.map_cons, joined_cons, List.flatMap_map, List.append_assoc] at heq
      obtain ⟨hsaid, htail⟩ := h.1 space space' a' (ended_flatMap hy as rest)
        (ended_flatMap hy as' rest') heq
      obtain ⟨hmap, hrest⟩ := told_flatMap h.2 hy htail
      exact ⟨by rw [List.map_cons, List.map_cons, hsaid, hmap], hrest⟩

end Parts

namespace Tree

/-- A value can be told from its text wherever it ends. -/
def TellsContent (t : Tree) : Prop :=
  ∀ {t' : Tree} {rest rest' : Bytes}, Delimited rest → Delimited rest' →
    t.text ++ rest = t'.text ++ rest' → t.content = t'.content ∧ rest = rest'

theorem skipSpace_text (t : Tree) (rest : Bytes) : skipSpace (t.text ++ rest) = t.text ++ rest := by
  obtain ⟨b, bs, htext, hb⟩ := t.exists_text_eq_not_delimiter
  rw [htext, List.cons_append, skipSpace_cons (.inl hb)]

theorem told_padded {p : Padded Tree} (h : p.value.TellsContent) :
    Told paddedText (·.value.content) p := by
  intro space space' p' rest rest' hrest hrest' heq
  have hskip := congrArg skipSpace heq
  simp only [paddedText, List.append_assoc, skipSpace_space, skipSpace_text] at hskip
  obtain ⟨hcontent, hafter⟩ := h (delimited_space p.after hrest.delimited)
    (delimited_space p'.after hrest'.delimited) hskip
  refine ⟨hcontent, ?_⟩
  have hskip := congrArg skipSpace hafter
  rwa [skipSpace_space, skipSpace_space, hrest.skipSpace, hrest'.skipSpace] at hskip

theorem told_member {m : Member Tree} (h : m.value.value.TellsContent) :
    Told memberText memberContent m := by
  intro space space' m' rest rest' hrest hrest' heq
  have hquote (bs : Bytes) : skipSpace (Byte.quote :: bs) = Byte.quote :: bs :=
    skipSpace_cons (.inl rfl) bs
  have hcolon (bs : Bytes) : skipSpace (Byte.colon :: bs) = Byte.colon :: bs :=
    skipSpace_cons (.inr rfl) bs
  have hskip := congrArg skipSpace heq
  simp only [memberText, StringText.quoted, List.append_assoc, List.cons_append, skipSpace_space,
    hquote, List.cons.injEq, true_and, List.nil_append] at hskip
  obtain ⟨hname, hskip⟩ :=
    m.name.valid.enclosed.append_quote_inj m'.name.valid.enclosed hskip
  have hskip := congrArg skipSpace hskip
  simp only [skipSpace_space, hcolon, List.cons.injEq, true_and] at hskip
  obtain ⟨hcontent, hrest⟩ := told_padded h .none .none m'.value hrest hrest' hskip
  have hvalue : m.name.value = m'.name.value := by
    rw [StringText.value, StringText.value, hname]
  exact ⟨Prod.ext hvalue hcontent, hrest⟩

theorem skipSpace_paddedText_ne (p : Padded Tree) (rest : Bytes) :
    (skipSpace (paddedText p ++ rest)).head? ≠ some Byte.closeBracket := by
  obtain ⟨b, bs, htext, hb⟩ := p.value.exists_text_eq_not_delimiter
  rw [paddedText, List.append_assoc, List.append_assoc, skipSpace_space, skipSpace_text, htext]
  rintro ⟨⟩
  cases hb

theorem skipSpace_memberText_ne (m : Member Tree) (rest : Bytes) :
    (skipSpace (memberText m ++ rest)).head? ≠ some Byte.closeBrace := by
  rw [memberText, StringText.quoted]
  simp only [List.append_assoc, List.cons_append, skipSpace_space]
  rw [skipSpace_cons (.inl rfl), List.head?_cons, ne_eq, Option.some.injEq]
  decide

/-- **A value can be told from its text**, whatever follows it. -/
theorem tellsContent (t : Tree) : t.TellsContent := by
  -- the other value is of the same kind, for the first bytes agree
  induction t with
  | null =>
    intro t' rest rest' _ _ h
    cases t' <;> cases kind_eq_of_text_append h
    exact ⟨rfl, List.append_cancel_left h⟩
  | boolean b =>
    intro t' rest rest' _ _ h
    cases t' <;> cases kind_eq_of_text_append h
    exact ⟨rfl, List.append_cancel_left h⟩
  | number n =>
    intro t' rest rest' hrest hrest' h
    cases t' with
    | number n' =>
      rw [text, text] at h
      obtain ⟨hn, hrest⟩ :=
        append_delimited_inj n.not_delimiter n'.not_delimiter hrest hrest' h
      exact ⟨by rw [content, content, hn], hrest⟩
    | _ => cases kind_eq_of_text_append h
  | string s =>
    intro t' rest rest' _ _ h
    cases t' with
    | string s' =>
      simp only [text, StringText.quoted, List.cons_append, List.append_assoc, List.cons.injEq,
        true_and, List.nil_append] at h
      obtain ⟨hs, hrest⟩ := s.valid.enclosed.append_quote_inj s'.valid.enclosed h
      exact ⟨by rw [content, content, StringText.value, StringText.value, hs], hrest⟩
    | _ => cases kind_eq_of_text_append h
  | array space items ih =>
    intro t' rest rest' _ _ h
    cases t' with
    | array space' items' =>
      simp only [text, itemTexts_eq_map, List.cons_append, List.append_assoc, List.cons.injEq,
        true_and, List.nil_append] at h
      obtain ⟨hitems, hrest⟩ := told_joined (fun p hp => told_padded (ih p hp)) (by decide)
        skipSpace_paddedText_ne h
      exact ⟨by rw [content_array, content_array, hitems], hrest⟩
    | _ => cases kind_eq_of_text_append h
  | object space members ih =>
    intro t' rest rest' _ _ h
    cases t' with
    | object space' members' =>
      simp only [text, memberTexts_eq_map, List.cons_append, List.append_assoc, List.cons.injEq,
        true_and, List.nil_append] at h
      obtain ⟨hmembers, hrest⟩ := told_joined (fun m hm => told_member (ih m hm)) (by decide)
        skipSpace_memberText_ne h
      exact ⟨by rw [content_object, content_object, hmembers], hrest⟩
    | _ => cases kind_eq_of_text_append h

end Tree

/-- **A JSON text says one thing only.** -/
theorem Says.unique {bs : Bytes} {c c' : Content} (h : Says bs c) (h' : Says bs c') : c = c' := by
  obtain ⟨p, rfl, rfl⟩ := h
  obtain ⟨p', htext, rfl⟩ := h'
  have hended : Ended [] := nofun
  exact (Tree.told_padded p.value.tellsContent .none .none p' hended hended
    (by rw [htext])).1

end GoalProgress.Json
