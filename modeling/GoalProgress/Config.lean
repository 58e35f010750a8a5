import GoalProgress.Mismatch
import GoalProgress.Response.Sizing
import GoalProgress.Toml.DateTable

/-!
# Configuration

The configuration says where documents come from and how the room for responses is estimated. It is
decoded from a TOML table with the sections `cache` and `response`; every key has a default, and
keys that are not known are passed over.

## Main definitions

* `Config`: what can be configured.
* `Config.decode`: the configuration in a table.
* `Config.unrecognized`: the keys that are passed over.
-/
namespace GoalProgress

/-- The kind of a TOML value, as messages tell of it. -/
def Toml.Value.found : Toml.Value → Found
  | .text s => .text s
  | .integer n => .integer n
  | .real x => .real x
  | .boolean b => .boolean b
  | .array _ => .sequence
  | .moment | .table _ => .map

/-- Where documents come from unless the command line says so. -/
structure CacheConfig where
  definitions : Option String := none
  snapshot : Option String := none
deriving DecidableEq, Repr

/-- What can be configured. -/
structure Config where
  cache : CacheConfig := {}
  sizing : Sizing := {}
deriving DecidableEq, Repr

namespace Config

/-- The version of the format, which a configuration has to name. -/
def supportedVersion : Int := 1

/-- The keys at the top level. -/
def knownKeys : List String := ["version", "cache", "response"]

/-- The keys of the section `cache`. -/
def cacheKeys : List String := ["definitions", "snapshot"]

/-- The keys of the section `response`. -/
def responseKeys : List String := ["envelope_overhead", "goal_overhead"]

/-! ## Values -/

/-- The way in which a value under the mark of dates differs from a date, if a message tells it. -/
def dateMismatch? : Toml.DateFault → Option Mismatch
  | .notText v => some (.invalidType v.found "string containing a datetime")
  | .malformed => none

/-- A version. -/
def decodeVersion : Toml.Value → Except Mismatch Int
  | .integer n => .ok n
  | v => .error (.invalidType v.found "i64")

/-- A path. -/
def decodePath : Toml.Value → Except Mismatch String
  | .text s => .ok s
  | v => .error (.invalidType v.found "path string")

/-- A number of bytes. -/
def decodeSize : Toml.Value → Except Mismatch ByteCount
  | .integer n => if n < 0 then .error (.invalidValue n "usize") else .ok (.clip n.toNat)
  | v => .error (.invalidType v.found "usize")

/-! ## Sections -/

/-- The members of a section that are known, in the order in which they are written. Instead of a
table a section may be an array with the values of its keys; a date counts as a table without known
keys. -/
def sectionMembers (expected : String) (keys : List String) :
    Toml.Value → Except Mismatch (List (String × Toml.Value))
  | .table members => .ok (members.filter fun m => keys.contains m.1)
  | .array items => .ok (keys.zip items)
  | .moment => .ok []
  | v => .error (.invalidType v.found expected)

/-- The section `cache` with one more member. -/
def decodeCacheMember (c : CacheConfig) (m : String × Toml.Value) : Except Mismatch CacheConfig :=
  match m.1 with
  | "definitions" => (decodePath m.2).map fun path => { c with definitions := some path }
  | "snapshot" => (decodePath m.2).map fun path => { c with snapshot := some path }
  | _ => .ok c

/-- The section `cache`. -/
def decodeCache (v : Toml.Value) : Except Mismatch CacheConfig := do
  (← sectionMembers "struct CacheConfig" cacheKeys v).foldlM decodeCacheMember {}

/-- The section `response` with one more member. -/
def decodeSizingMember (s : Sizing) (m : String × Toml.Value) : Except Mismatch Sizing :=
  match m.1 with
  | "envelope_overhead" => (decodeSize m.2).map fun n => { s with envelopeOverhead := n }
  | "goal_overhead" => (decodeSize m.2).map fun n => { s with goalOverhead := n }
  | _ => .ok s

/-- The section `response`. -/
def decodeSizing (v : Toml.Value) : Except Mismatch Sizing := do
  (← sectionMembers "struct SizingConfig" responseKeys v).foldlM decodeSizingMember {}

/-! ## Whole configurations -/

/-- The configuration with one more section. -/
def decodeSection (c : Config) (m : String × Toml.Value) : Except Mismatch Config :=
  match m.1 with
  | "cache" => (decodeCache m.2).map fun cache => { c with cache := cache }
  | "response" => (decodeSizing m.2).map fun sizing => { c with sizing := sizing }
  | _ => .ok c

/-- The configuration in a table. The first value of the wrong kind is reported, in the order in
which the table is written. -/
def decode (t : Toml.Table) : Except Mismatch Config := t.foldlM decodeSection {}

/-- The names in a table that are not among the given ones, sorted. -/
def otherNames (t : Toml.Table) (keys : List String) : List String :=
  (t.names.filter (!keys.contains ·)).mergeSort fun a b => decide (a ≤ b)

/-- Whether a key at the top level names a section. -/
def isSection (name : String) : Bool := name = "cache" ∨ name = "response"

/-- The sections of a table with the dates in them. In all other values a date that is written as a
table has to stand alone. -/
def datedSections (t : Toml.Table) : Except Toml.DateFault Toml.Table := do
  let sections ← Toml.membersWithDates false (t.filter (isSection ·.1))
  let _ ← Toml.membersWithDates true (t.filter (!isSection ·.1))
  return sections

/-- The keys of a section that are not known, with the name of the section before them. A section
that is no table has no keys. -/
def unrecognizedIn (t : Toml.Table) (name : String) (keys : List String) : List String :=
  match t.get? name with
  | some (.table members) => (otherNames members keys).map (name ++ "." ++ ·)
  | _ => []

/-- The keys that are passed over: first those at the top level, then those of the sections, sorted
each. They cannot be told if a table has the form of a date and is none. -/
def unrecognized (t : Toml.Table) : Except Toml.DateFault (List String) := do
  let sections ← datedSections t
  return otherNames t knownKeys ++ unrecognizedIn sections "cache" cacheKeys ++
    unrecognizedIn sections "response" responseKeys

end Config

end GoalProgress
