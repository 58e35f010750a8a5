import GoalProgress.Json.Value.Reader
import GoalProgress.Proofs.Json.Token

/-!
# Printed values are read back

A value whose numbers are integers of 64 bits is read back from its print, whatever follows it, if
the arrays and objects in it are not too deep for the reader.

## Main definitions

* `Json.Starts`: the texts of values, by their first bytes.
* `Json.MembersRead`: members that are read one after the other.
* `Json.Readable`: the values that are read back.
-/
namespace GoalProgress.Json

/-! ## Arrays and objects -/

/-- A text whose first byte is none that may follow a value. -/
def Starts (text : Bytes) : Prop := ∃ b bs, text = b :: bs ∧ isDelimiter b = false

/-! ### Items -/

section Items

variable {σ α : Type} {step : σ → Bytes → Except Problem (σ × Bytes)} {text : α → Bytes}
  {next : σ → α → σ} {s s' : σ}

theorem foldItems_end {first : Bool} {bs rest : Bytes}
    (hend : nextItem first bs = .ok (false, rest)) : foldItems step first s bs = .ok (s, rest) := by
  rw [foldItems, hend]

theorem foldItems_item {first : Bool} {bs item rest : Bytes}
    (hitem : nextItem first bs = .ok (true, item)) (hstep : step s item = .ok (s', rest))
    (hshorter : rest.length < bs.length) :
    foldItems step first s bs = foldItems step false s' rest := by
  rw [foldItems, hitem]
  simp only [hstep]
  rw [dif_pos hshorter]

theorem nextItem_close (first : Bool) (rest : Bytes) :
    nextItem first (Byte.closeBracket :: rest) = .ok (false, rest) := by
  rw [nextItem, skipSpace_cons (.inr rfl)]
  rfl

theorem nextItem_first {text : Bytes} (h : Starts text) (rest : Bytes) :
    nextItem true (text ++ rest) = .ok (true, text ++ rest) := by
  obtain ⟨b, bs, rfl, hb⟩ := h
  have hclose : b ≠ Byte.closeBracket := by
    rintro rfl
    cases hb
  simp [nextItem, skipSpace_cons (.inl hb), hclose]

theorem nextItem_comma {text : Bytes} (h : Starts text) (rest : Bytes) :
    nextItem false (Byte.comma :: (text ++ rest)) = .ok (true, text ++ rest) := by
  obtain ⟨b, bs, rfl, hb⟩ := h
  have hclose : b ≠ Byte.closeBracket := by
    rintro rfl
    cases hb
  have hcomma : Byte.comma ≠ Byte.closeBracket := by decide
  simp [nextItem, skipSpace_cons (.inr rfl : _ ∨ isSpace Byte.comma = false),
    skipSpace_cons (.inl hb), hclose, hcomma]

/-- Items behind commas are read one after the other. -/
theorem foldItems_flatMap {as : List α} (hstart : ∀ a ∈ as, Starts (text a))
    (hstep : ∀ a ∈ as, ∀ s {rest}, Ended rest → step s (text a ++ rest) = .ok (next s a, rest))
    (s : σ) (rest : Bytes) :
    foldItems step false s
        (as.flatMap (fun a => Byte.comma :: text a) ++ Byte.closeBracket :: rest) =
      .ok (as.foldl next s, rest) := by
  induction as generalizing s with
  | nil => exact foldItems_end (nextItem_close false rest)
  | cons a as ih =>
    rw [List.forall_mem_cons] at hstart hstep
    have hended : Ended (as.flatMap (fun a => Byte.comma :: text a) ++
        Byte.closeBracket :: rest) := ended_flatMap (by simp) as rest
    rw [List.flatMap_cons, List.append_assoc, List.cons_append, List.foldl_cons,
      foldItems_item (nextItem_comma hstart.1 _) (hstep.1 s hended),
      ih hstart.2 hstep.2]
    simp only [List.length_cons, List.length_append]
    omega

/-- **Joined items are read one after the other**, up to the closing bracket. -/
theorem foldItems_joined {as : List α} (hstart : ∀ a ∈ as, Starts (text a))
    (hstep : ∀ a ∈ as, ∀ s {rest}, Ended rest → step s (text a ++ rest) = .ok (next s a, rest))
    (s : σ) (rest : Bytes) :
    foldItems step true s (joined (as.map text) ++ Byte.closeBracket :: rest) =
      .ok (as.foldl next s, rest) := by
  cases as with
  | nil => exact foldItems_end (nextItem_close true rest)
  | cons a as =>
    rw [List.forall_mem_cons] at hstart hstep
    have hended : Ended (as.flatMap (fun a => Byte.comma :: text a) ++
        Byte.closeBracket :: rest) := ended_flatMap (by simp) as rest
    rw [List.map_cons, joined_cons, List.flatMap_map, List.append_assoc, List.foldl_cons,
      foldItems_item (nextItem_first hstart.1 _) (hstep.1 s hended),
      foldItems_flatMap hstart.2 hstep.2]
    obtain ⟨b, bs, htext, _⟩ := hstart.1
    simp only [htext, List.length_cons, List.length_append]
    omega

end Items

/-! ### Members -/

section Members

variable {σ α : Type} {step : σ → String → Bytes → Except Problem (σ × Bytes)} {name : α → String}
  {value : α → Bytes} {next : σ → α → σ} {s s' : σ}

theorem expectColon_colon (rest : Bytes) : expectColon (Byte.colon :: rest) = .ok rest := by
  rw [expectColon, skipSpace_cons (.inr rfl)]
  rfl

theorem foldMembers_end {first : Bool} {bs rest : Bytes}
    (hend : nextKey first bs = .ok (none, rest)) : foldMembers step first s bs = .ok (s, rest) := by
  rw [foldMembers, hend]

theorem foldMembers_member {first : Bool} {bs member rest : Bytes} {key : String}
    (hkey : nextKey first bs = .ok (some key, member)) (hstep : step s key member = .ok (s', rest))
    (hshorter : rest.length < bs.length) :
    foldMembers step first s bs = foldMembers step false s' rest := by
  rw [foldMembers, hkey]
  simp only [hstep]
  rw [dif_pos hshorter]

theorem nextKey_close (first : Bool) (rest : Bytes) :
    nextKey first (Byte.closeBrace :: rest) = .ok (none, rest) := by
  rw [nextKey, skipSpace_cons (.inr rfl)]
  rfl

theorem nextKey_space (space : Space) (first : Bool) (text : Bytes) :
    nextKey first (space.bytes ++ text) = nextKey first text := by
  rw [nextKey, nextKey, skipSpace_space]

theorem nextKey_first (name : String) (rest : Bytes) :
    nextKey true (quoted .full name ++ rest) = .ok (some name, rest) := by
  have hquote : skipSpace (quoted .full name ++ rest) = quoted .full name ++ rest :=
    skipSpace_cons (.inr rfl) _
  have hbrace : Byte.quote ≠ Byte.closeBrace := by decide
  rw [nextKey, hquote]
  simp [quoted, hbrace, readString_escape EscapeStyle.full_sound, Except.map]

theorem nextKey_comma (name : String) (rest : Bytes) :
    nextKey false (Byte.comma :: (quoted .full name ++ rest)) = .ok (some name, rest) := by
  have hquote : skipSpace (quoted .full name ++ rest) = quoted .full name ++ rest :=
    skipSpace_cons (.inr rfl) _
  have hbrace : Byte.comma ≠ Byte.closeBrace := by decide
  rw [nextKey, skipSpace_cons (.inr rfl)]
  simp only [hquote, if_neg hbrace]
  simp [quoted, readString_escape EscapeStyle.full_sound, Except.map]

/-- Members that `step` reads one after the other, with the states before the first and behind the
last. -/
inductive MembersRead (step : σ → String → Bytes → Except Problem (σ × Bytes)) (name : α → String)
    (value : α → Bytes) : σ → List α → σ → Prop
  | nil (s : σ) : MembersRead step name value s [] s
  | cons {s s' s'' : σ} {a : α} {as : List α}
      (hstep : ∀ {rest}, Ended rest →
        step s (name a) (Byte.colon :: (value a ++ rest)) = .ok (s', rest))
      (h : MembersRead step name value s' as s'') : MembersRead step name value s (a :: as) s''

/-- Members that are read in every state are read one after the other. -/
theorem MembersRead.of_forall {as : List α}
    (hstep : ∀ a ∈ as, ∀ s {rest}, Ended rest →
      step s (name a) (Byte.colon :: (value a ++ rest)) = .ok (next s a, rest)) (s : σ) :
    MembersRead step name value s as (as.foldl next s) := by
  induction as generalizing s with
  | nil => exact .nil s
  | cons a as ih =>
    rw [List.forall_mem_cons] at hstep
    exact .cons (hstep.1 s) (ih hstep.2 _)

/-- Members behind commas are read one after the other. -/
theorem foldMembers_flatMap {as : List α} (h : MembersRead step name value s as s')
    (rest : Bytes) :
    foldMembers step false s
        (as.flatMap (fun a => Byte.comma :: (quoted .full (name a) ++ Byte.colon :: value a)) ++
          Byte.closeBrace :: rest) = .ok (s', rest) := by
  induction h with
  | nil s => exact foldMembers_end (nextKey_close false rest)
  | @cons s s' s'' a as hstep _ ih =>
    have hended : Ended
        (as.flatMap (fun a => Byte.comma :: (quoted .full (name a) ++ Byte.colon :: value a)) ++
          Byte.closeBrace :: rest) := ended_flatMap (by simp) as rest
    rw [List.flatMap_cons, List.append_assoc, List.cons_append, List.append_assoc,
      List.cons_append, foldMembers_member (nextKey_comma (name a) _) (hstep hended), ih]
    simp only [List.length_cons, List.length_append]
    omega

/-- **Joined members are read one after the other**, up to the closing brace. -/
theorem foldMembers_joined {as : List α} (h : MembersRead step name value s as s')
    (rest : Bytes) :
    foldMembers step true s
        (joined (as.map fun a => quoted .full (name a) ++ Byte.colon :: value a) ++
          Byte.closeBrace :: rest) = .ok (s', rest) := by
  cases h with
  | nil => exact foldMembers_end (nextKey_close true rest)
  | @cons _ _ _ a as hstep h =>
    have hended : Ended
        (as.flatMap (fun a => Byte.comma :: (quoted .full (name a) ++ Byte.colon :: value a)) ++
          Byte.closeBrace :: rest) := ended_flatMap (by simp) as rest
    rw [List.map_cons, joined_cons, List.flatMap_map, List.append_assoc, List.append_assoc,
      List.cons_append, foldMembers_member (nextKey_first (name a) _) (hstep hended),
      foldMembers_flatMap h]
    simp only [List.length_cons, List.length_append]
    omega

end Members

/-! ## Values -/

theorem expectWord_append (word rest : Bytes) : expectWord word (word ++ rest) = .ok rest := by
  induction word with
  | nil => rw [List.nil_append, expectWord]
  | cons b word ih => rw [List.cons_append, expectWord, if_pos rfl, ih]

/-- A number starts with no space. -/
theorem isSpace_of_number {b : UInt8} (hb : b = Byte.minus ∨ Byte.isDigit b = true) :
    isSpace b = false := by
  rcases hb with rfl | hb
  · rfl
  · have hdelimiter := isDelimiter_of_isDigit hb
    simp only [isDelimiter, Bool.or_eq_false_iff] at hdelimiter
    exact hdelimiter.1.1.1.1

namespace Value

theorem exists_print_ofInt_eq (n : Int) :
    ∃ b bs, (ofInt n).print = b :: bs ∧ (b = Byte.minus ∨ Byte.isDigit b = true) := by
  rw [ofInt, print, print_ofInt]
  cases n with
  | ofNat n =>
    obtain ⟨d, ds, hds⟩ := List.exists_cons_of_ne_nil (Decimal.digits_ne_nil n)
    exact ⟨d, ds, hds, .inr (Decimal.isDigit_of_mem_digits (hds ▸ List.mem_cons_self))⟩
  | negSucc n => exact ⟨Byte.minus, _, rfl, .inl rfl⟩

theorem read_space (depth : Nat) (space : Space) (text : Bytes) :
    read depth (space.bytes ++ text) = read depth text := by
  unfold read
  rw [skipSpace_space]

theorem read_null (depth : Nat) (rest : Bytes) :
    read depth (null.print ++ rest) = .ok (null, rest) := by
  have htext : null.print = 0x6E :: nullTail := by rw [print]; rfl
  rw [htext, List.cons_append, read, skipSpace_cons (.inr rfl)]
  exact congrArg (Except.map _) (expectWord_append nullTail rest)

theorem read_boolean (depth : Nat) (b : Bool) (rest : Bytes) :
    read depth ((boolean b).print ++ rest) = .ok (boolean b, rest) := by
  cases b with
  | true =>
    have htext : (boolean true).print = 0x74 :: trueTail := by rw [print]; rfl
    rw [htext, List.cons_append, read, skipSpace_cons (.inr rfl)]
    exact congrArg (Except.map _) (expectWord_append trueTail rest)
  | false =>
    have htext : (boolean false).print = 0x66 :: falseTail := by rw [print]; rfl
    rw [htext, List.cons_append, read, skipSpace_cons (.inr rfl)]
    exact congrArg (Except.map _) (expectWord_append falseTail rest)

theorem read_string (depth : Nat) (rest : Bytes) :
    read depth (Byte.quote :: rest) = (readString rest).map fun (s, rest) => (.string s, rest) := by
  rw [read, skipSpace_cons (.inr rfl)]
  rfl

theorem read_number (depth : Nat) {b : UInt8} (hb : b = Byte.minus ∨ Byte.isDigit b = true)
    (rest : Bytes) : read depth (b :: rest) = readNumber (b :: rest) := by
  have hword : b ≠ 0x6E ∧ b ≠ 0x74 ∧ b ≠ 0x66 := by
    refine ⟨?_, ?_, ?_⟩ <;> rintro rfl <;> exact absurd hb (by decide)
  rw [read, skipSpace_cons (.inr (isSpace_of_number hb))]
  simp only
  rw [if_neg hword.1, if_neg hword.2.1, if_neg hword.2.2, if_pos hb]

theorem read_array (depth : Nat) (rest : Bytes) :
    read (depth + 1) (Byte.openBracket :: rest) =
      (foldItems (fun items text => (read depth text).map fun (v, rest) => (v :: items, rest))
        true [] rest).map fun (items, rest) => (.array items.reverse, rest) := by
  rw [read, skipSpace_cons (.inr rfl)]
  rfl

theorem read_object (depth : Nat) (rest : Bytes) :
    read (depth + 1) (Byte.openBrace :: rest) =
      (foldMembers (fun members name text => do
          let (v, rest) ← read depth (← expectColon text)
          return ((name, v) :: members, rest))
        true [] rest).map fun (members, rest) => (.object members.reverse, rest) := by
  rw [read, skipSpace_cons (.inr rfl)]
  rfl

end Value

/-- The values that are read back from their print when at most `depth` arrays and objects may be
inside one another: all their numbers are integers that have 64 bits. -/
inductive Readable : Nat → Value → Prop
  | null {depth} : Readable depth .null
  | boolean {depth} (b : Bool) : Readable depth (.boolean b)
  | integer {depth} {n : Int} (hmin : Int64.minValue.toInt ≤ n) (hmax : n ≤ Numeral.maxWord) :
      Readable depth (.ofInt n)
  | string {depth} (s : String) : Readable depth (.string s)
  | array {depth} {items : List Value} (h : ∀ v ∈ items, Readable depth v) :
      Readable (depth + 1) (.array items)
  | object {depth} {members : List (String × Value)} (h : ∀ m ∈ members, Readable depth m.2) :
      Readable (depth + 1) (.object members)

namespace Readable

/-- A printed value starts with no byte that may follow one. -/
theorem starts {depth : Nat} {v : Value} (h : Readable depth v) : Starts v.print := by
  cases h with
  | null => exact ⟨0x6E, nullTail, by rw [Value.print]; rfl, rfl⟩
  | boolean b =>
    cases b with
    | true => exact ⟨0x74, trueTail, by rw [Value.print]; rfl, rfl⟩
    | false => exact ⟨0x66, falseTail, by rw [Value.print]; rfl, rfl⟩
  | @integer _ n _ _ =>
    obtain ⟨b, bs, htext, hb⟩ := (Tree.ofInt n).exists_text_eq_not_delimiter
    exact ⟨b, bs, by rw [← htext, Tree.text_ofInt], hb⟩
  | string s => exact ⟨Byte.quote, _, by rw [Value.print]; rfl, rfl⟩
  | array _ => exact ⟨Byte.openBracket, _, by rw [Value.print], rfl⟩
  | object _ => exact ⟨Byte.openBrace, _, by rw [Value.print], rfl⟩

/-- **A value is read back from its print.** -/
theorem read_print {depth : Nat} {v : Value} (h : Readable depth v) {rest : Bytes}
    (hrest : Delimited rest) : Value.read depth (v.print ++ rest) = .ok (v, rest) := by
  induction h generalizing rest with
  | null => exact Value.read_null _ rest
  | boolean b => exact Value.read_boolean _ b rest
  | @integer depth n hmin hmax =>
    obtain ⟨b, bs, htext, hb⟩ := Value.exists_print_ofInt_eq n
    have hread := readNumeral_print (decide (n < 0)) n.natAbs hrest
    rw [← Numeral.ofInt] at hread
    rw [htext, List.cons_append, Value.read_number depth hb, ← List.cons_append, ← htext,
      Value.readNumber, Value.ofInt, Value.print, hread]
    simp [bind, Except.bind, number?_ofInt hmin hmax, pure, Except.pure]
  | string s =>
    rw [Value.print, quoted, List.cons_append, Value.read_string, List.append_assoc,
      List.singleton_append, readString_escape EscapeStyle.full_sound]
    rfl
  | @array depth items hitems ih =>
    have hstep : ∀ v ∈ items, ∀ (done : List Value) {rest}, Ended rest →
        (Value.read depth (v.print ++ rest)).map (fun (v, rest) => (v :: done, rest)) =
          .ok (v :: done, rest) := by
      intro v hv done rest hended
      rw [ih v hv hended.delimited]
      rfl
    rw [Value.print, Value.printItems_eq_map, List.cons_append, List.append_assoc,
      List.singleton_append, Value.read_array,
      foldItems_joined (fun v hv => (hitems v hv).starts) hstep]
    simp [Except.map]
  | @object depth members hmembers ih =>
    have hstep : ∀ m ∈ members, ∀ (done : List (String × Value)) {rest}, Ended rest →
        (do
          let (v, rest) ← Value.read depth (← expectColon (Byte.colon :: (m.2.print ++ rest)))
          return ((m.1, v) :: done, rest) : Except Problem _) =
          .ok (m :: done, rest) := by
      intro m hm done rest hended
      rw [expectColon_colon]
      simp only [bind, Except.bind]
      rw [ih m hm hended.delimited]
      rfl
    rw [Value.print, Value.printMembers_eq_map, List.cons_append, List.append_assoc,
      List.singleton_append, Value.read_object,
      foldMembers_joined (.of_forall hstep [])]
    simp [Except.map]

/-- An object with one member is read back with space around its value. -/
theorem read_member {depth : Nat} {v : Value} (h : Readable depth v) (name : String)
    (before after : Space) (rest : Bytes) :
    Value.read (depth + 1) (Byte.openBrace :: (quoted .full name ++ Byte.colon ::
        (before.bytes ++ (v.print ++ (after.bytes ++ Byte.closeBrace :: rest))))) =
      .ok (.object [(name, v)], rest) := by
  have hdelimited := delimited_space after (.cons (b := Byte.closeBrace) rfl rest)
  have hstep : (do
      let (v, rest) ← Value.read depth (← expectColon (Byte.colon ::
        (before.bytes ++ (v.print ++ (after.bytes ++ Byte.closeBrace :: rest)))))
      return ((name, v) :: [], rest) : Except Problem (List (String × Value) × Bytes)) =
      .ok ([(name, v)], after.bytes ++ Byte.closeBrace :: rest) := by
    rw [expectColon_colon]
    simp only [bind, Except.bind, Value.read_space, h.read_print hdelimited]
    rfl
  have hend : nextKey false (after.bytes ++ Byte.closeBrace :: rest) = .ok (none, rest) := by
    rw [nextKey_space, nextKey_close]
  rw [Value.read_object, foldMembers_member (nextKey_first name _) hstep, foldMembers_end hend]
  · rfl
  · simp only [List.length_append, List.length_cons]
    omega

end Readable

end GoalProgress.Json
