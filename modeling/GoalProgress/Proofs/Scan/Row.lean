import GoalProgress.Proofs.Scan.Tree

/-!
# Objects in a row

Objects may stand in a row with commas and space before, between and behind them, in any number and
order. The object scanner finds each object of a row in its place: no range has anything of a
separator in it, and none has a part of an object or more than one.

## Main definitions

* `Json.ObjectText`: the text of an object.
* `Scan.Row`: objects with what separates them; `Scan.Row.text`: all of it.
* `Scan.Row.spans`: where the objects stand.
-/
namespace GoalProgress

open Json

/-- The text of an object, from its opening to its closing brace. -/
structure Json.ObjectText where
  bytes : Bytes
  valid : ∃ space members, bytes = (Tree.object space members).text

theorem Json.ObjectText.isObject (o : ObjectText) : Scan.IsObject o.bytes := by
  obtain ⟨space, members, h⟩ := o.valid
  rw [h]
  exact Tree.isObject_object space members

namespace Scan

/-- Commas and space, in any number and order. -/
structure Separator where
  bytes : Bytes
  valid : ∀ b ∈ bytes, (b == Byte.comma || isSpace b) = true

theorem Separator.inert (s : Separator) : ∀ b ∈ s.bytes, isInert b = true := by
  intro b hb
  rcases Bool.or_eq_true_iff.1 (s.valid b hb) with hcomma | hspace
  · rw [beq_iff_eq.1 hcomma]
    rfl
  · exact (Space.single b hspace).inert b (List.mem_singleton_self b)

/-- An object of a row, and what stands behind it. -/
structure Row.Item where
  object : ObjectText
  behind : Separator

/-- An object with what stands behind it. -/
def Row.Item.bytes (i : Row.Item) : Bytes := i.object.bytes ++ i.behind.bytes

/-- Objects with separators before, between and behind them. -/
structure Row where
  lead : Separator
  items : List Row.Item

namespace Row

variable (row : Row)

/-- The bytes of a row. -/
def text : Bytes := row.lead.bytes ++ row.items.flatMap Item.bytes

/-- The bytes before the object with a given number. -/
def before (k : Nat) : Bytes := row.lead.bytes ++ (row.items.take k).flatMap Item.bytes

/-- The ranges in which the objects stand. -/
def spans : List Span :=
  row.items.mapIdx fun k i => ⟨(row.before k).length, (row.before k ++ i.object.bytes).length⟩

end Row

open ObjectState

namespace Row

variable (row : Row)

/-- Behind any bytes, each object of a row is found where it stands. -/
theorem spansFrom_items (items : List Item) (lead : Bytes) (start : Nat) :
    (clear 0 start).spansFrom lead.length (items.flatMap Item.bytes) =
      items.mapIdx fun k i => ⟨(lead ++ (items.take k).flatMap Item.bytes).length,
        (lead ++ (items.take k).flatMap Item.bytes ++ i.object.bytes).length⟩ := by
  induction items generalizing lead start with
  | nil => rfl
  | cons item items ih =>
    have hlength : lead.length + item.object.bytes.length + item.behind.bytes.length =
        (lead ++ item.bytes).length := by
      simp [Item.bytes, Nat.add_assoc]
    rw [List.flatMap_cons, Item.bytes, List.append_assoc, spansFrom_object item.object.isObject,
      spansFrom_inert_append item.behind.inert, hlength, ih (lead ++ item.bytes), List.mapIdx_cons]
    simp [List.append_assoc]

theorem outermost_text : Outermost row.text (row.items.map (·.object.bytes)) := by
  have hitem (i : Item) : Outermost i.bytes [i.object.bytes] :=
    (Outermost.object i.object.isObject).append (.of_inert i.behind.inert)
  have hitems : Outermost (row.items.flatMap Item.bytes)
      (row.items.flatMap fun i => [i.object.bytes]) := .flatMap fun i _ => hitem i
  rw [← List.map_eq_flatMap] at hitems
  exact (Outermost.of_inert row.lead.inert).append hitems

/-- **The scanner finds exactly the objects of a row**, each in its place: as many ranges as there
are objects, in their order, each from the first byte of its object to behind the last one. -/
theorem objectSpans_text :
    objectSpans row.text = row.spans ∧
      (objectSpans row.text).map (·.slice row.text) = row.items.map (·.object.bytes) := by
  refine ⟨?_, slice_objectSpans row.outermost_text⟩
  have hlead := spansFrom_inert_append row.lead.inert 0 0 0 (row.items.flatMap Item.bytes)
  rw [Nat.zero_add] at hlead
  exact hlead.trans (spansFrom_items row.items row.lead.bytes 0)

example : objectSpans (Bytes.ofString ", \x7b\"a\":\"\x7d\"\x7d\x7b\x7d ,") =
    [⟨2, 11⟩, ⟨11, 13⟩] := by decide

end Row

end Scan

end GoalProgress
