import GoalProgress.Proofs.Toml.Distinct

/-!
# Documents have no name twice

Every reader of values gives values in which no table has a name twice: numbers, texts and dates are
no tables, arrays hold what the reader of their items gives, and the members of an inline table are
put together as those of the document are.

## Main definitions

* `Distinctly`: a reader gives only values in which no table has a name twice.
-/
namespace GoalProgress.Toml

/-! ## Numbers -/

namespace Number

variable {negative : Bool} {cs rest : List Char} {v : Value}

theorem distinct_of_ofInt? {n : Int} (h : ofInt? n = some v) : v.Distinct := by
  rw [ofInt?] at h
  split at h
  · cases h
    exact .integer n
  · cases h

theorem distinct_of_ofReal? {x : Float} (h : ofReal? negative x = some v) : v.Distinct := by
  rw [ofReal?] at h
  split at h
  · cases h
    exact .real _
  · split at h
    · cases h
    · cases h
      exact .real x

end Number

/-- A reader gives only values in which no table has a name twice. -/
def Distinctly (read : List Char → Option (Value × List Char)) : Prop :=
  ∀ {cs v rest}, read cs = some (v, rest) → v.Distinct

theorem Number.distinctly_readDecimal? (negative : Bool) : Distinctly (readDecimal? negative) := by
  intro cs v rest h
  obtain ⟨⟨whole, afterWhole⟩, -, h⟩ := Option.bind_eq_some_iff.1 h
  simp only at h
  split at h
  · cases h
  obtain ⟨_, -, h⟩ := Option.bind_eq_some_iff.1 h
  obtain ⟨_, -, h⟩ := Option.bind_eq_some_iff.1 h
  split at h
  · obtain ⟨v, hv, h⟩ := Option.bind_eq_some_iff.1 h
    cases h
    exact distinct_of_ofInt? hv
  · obtain ⟨v, hv, h⟩ := Option.bind_eq_some_iff.1 h
    cases h
    exact distinct_of_ofReal? hv

theorem Number.distinctly_readUnsigned? (negative : Bool) :
    Distinctly (readUnsigned? negative) := by
  intro cs v rest h
  rw [readUnsigned?.eq_def] at h
  split at h
  · cases h
    exact .real _
  · cases h
    exact .real _
  · exact distinctly_readDecimal? negative h

theorem Number.distinctly_read? : Distinctly read? := by
  intro cs v rest h
  rw [read?.eq_def] at h
  split at h
  · exact distinctly_readUnsigned? _ h
  · exact distinctly_readUnsigned? _ h
  · split at h
    · obtain ⟨_, -, h⟩ := Option.bind_eq_some_iff.1 h
      obtain ⟨v, hv, h⟩ := Option.bind_eq_some_iff.1 h
      cases h
      exact distinct_of_ofInt? hv
    · exact distinctly_readUnsigned? _ h
  · exact distinctly_readUnsigned? _ h

theorem distinctly_readWord? (word : String) {v : Value} (hv : v.Distinct) :
    Distinctly (readWord? word v) := by
  intro cs w rest h
  rw [readWord?] at h
  split at h
  · cases h
    exact hv
  · cases h

theorem distinctly_readScalar? : Distinctly readScalar? := by
  intro cs v rest h
  cases cs with
  | nil => cases h
  | cons c cs =>
    rw [readScalar?] at h
    split at h
    · obtain ⟨_, -, h⟩ := Option.map_eq_some_iff.1 h
      cases h
      exact .text _
    split at h
    · obtain ⟨_, -, h⟩ := Option.map_eq_some_iff.1 h
      cases h
      exact .text _
    split at h
    · exact distinctly_readWord? _ (.boolean true) h
    split at h
    · exact distinctly_readWord? _ (.boolean false) h
    split at h
    · obtain ⟨_, -, h⟩ := Option.map_eq_some_iff.1 h
      cases h
      exact .moment
    split at h
    · obtain ⟨_, -, h⟩ := Option.map_eq_some_iff.1 h
      cases h
      exact .moment
    · exact Number.distinctly_read? h

section Nested

variable {value : List Char → Option (Value × List Char)} {cs rest : List Char}

theorem distinct_of_readItems? (hvalue : Distinctly value) {items found : List Value}
    (hitems : ∀ v ∈ items, v.Distinct) (h : readItems? value items cs = some (found, rest)) :
    ∀ v ∈ found, v.Distinct := by
  induction items, cs using readItems?.induct with
  | case1 items cs left hstart =>
    rw [readItems?, hstart] at h
    cases h
    exact hitems
  | case2 items cs hstart ih =>
    rw [readItems?] at h
    split at h
    · rename_i hclosed
      exact absurd hclosed (hstart _)
    · obtain ⟨⟨v, left⟩, hv, h⟩ := Option.bind_eq_some_iff.1 h
      have hmore : ∀ w ∈ v :: items, w.Distinct := List.forall_mem_cons.2 ⟨hvalue hv, hitems⟩
      simp only at h
      split at h
      · cases h
        exact hmore
      · split at h
        · rename_i hlength
          exact ih v _ hlength hmore h
        · cases h
      · cases h

theorem distinct_of_readMember? (hvalue : Distinctly value) {key : List String × String} {v : Value}
    (h : readMember? value cs = some (key, v, rest)) : v.Distinct := by
  obtain ⟨_, -, h⟩ := Option.bind_eq_some_iff.1 h
  simp only at h
  split at h
  · obtain ⟨⟨w, left⟩, hw, h⟩ := Option.bind_eq_some_iff.1 h
    cases h
    exact hvalue hw
  · cases h

theorem allDistinct_of_readMembers? (hvalue : Distinctly value)
    {members found : List (String × Node)} (hmembers : Node.AllDistinct members)
    (h : readMembers? value members cs = some (found, rest)) : Node.AllDistinct found := by
  induction members, cs using readMembers?.induct with
  | case1 members cs ih =>
    rw [readMembers?] at h
    obtain ⟨⟨⟨path, name⟩, v, left⟩, hmember, h⟩ := Option.bind_eq_some_iff.1 h
    obtain ⟨more, hinsert, h⟩ := Option.bind_eq_some_iff.1 h
    have hv := distinct_of_readMember? hvalue hmember
    have hmore := Node.allDistinct_of_insert? hv hmembers hinsert
    split at h
    · cases h
      exact hmore
    · split at h
      · rename_i hlength
        exact ih more _ hlength hmore h
      · cases h
    · cases h

theorem distinctly_readValue? (depth : Nat) : Distinctly (readValue? depth) := by
  induction depth with
  | zero =>
    intro cs v rest h
    rw [readValue?.eq_def] at h
    split at h
    · cases h
    · cases h
    · contradiction
    · contradiction
    · exact distinctly_readScalar? h
  | succ depth ih =>
    intro cs v rest h
    rw [readValue?.eq_def] at h
    split at h
    · contradiction
    · contradiction
    · rename_i hdepth
      obtain ⟨⟨items, left⟩, hitems, h⟩ := Option.map_eq_some_iff.1 h
      cases h
      cases hdepth
      apply Value.Distinct.array
      intro w hw
      exact distinct_of_readItems? ih (by simp) hitems w (List.mem_reverse.1 hw)
    · rename_i hdepth
      cases hdepth
      split at h
      · cases h
        exact .table List.nodup_nil nofun
      · obtain ⟨⟨members, left⟩, hmembers, h⟩ := Option.map_eq_some_iff.1 h
        cases h
        exact (allDistinct_of_readMembers? ih .nil hmembers).closeAll
    · exact distinctly_readScalar? h

end Nested

/-! ## Documents -/

namespace Document

variable {d d' : Document} {cs rest : List Char}

theorem allDistinct_of_insert? {path : List String} {name : String} {v : Value} (hv : v.Distinct)
    (hd : Node.AllDistinct d.members) (h : d.insert? path name v = some d') :
    Node.AllDistinct d'.members := by
  obtain ⟨members, hmembers, h⟩ := Option.bind_eq_some_iff.1 h
  cases h
  exact Node.allDistinct_of_within? (Node.allDistinct_of_insert? hv) hd hmembers

theorem allDistinct_of_openTable? {path : List String} {name : String}
    (hd : Node.AllDistinct d.members) (h : d.openTable? path name = some d') :
    Node.AllDistinct d'.members := by
  obtain ⟨members, hmembers, h⟩ := Option.bind_eq_some_iff.1 h
  cases h
  exact Node.allDistinct_of_within? Node.allDistinct_of_openTable? hd hmembers

theorem allDistinct_of_openItem? {path : List String} {name : String}
    (hd : Node.AllDistinct d.members) (h : d.openItem? path name = some d') :
    Node.AllDistinct d'.members := by
  obtain ⟨members, hmembers, h⟩ := Option.bind_eq_some_iff.1 h
  cases h
  exact Node.allDistinct_of_within? Node.allDistinct_of_openItem? hd hmembers

/-- No line gives a second value to a name. -/
theorem allDistinct_of_readLine? (hd : Node.AllDistinct d.members)
    (h : d.readLine? cs = some (d', rest)) : Node.AllDistinct d'.members := by
  rw [readLine?] at h
  split at h
  · cases h
    exact hd
  · cases h
    exact hd
  · obtain ⟨_, -, h⟩ := Option.map_eq_some_iff.1 h
    cases h
    exact hd
  · obtain ⟨⟨⟨path, name⟩, left⟩, -, h⟩ := Option.bind_eq_some_iff.1 h
    simp only at h
    split at h
    · obtain ⟨opened, hopened, h⟩ := Option.bind_eq_some_iff.1 h
      obtain ⟨_, -, h⟩ := Option.bind_eq_some_iff.1 h
      cases h
      exact allDistinct_of_openItem? hd hopened
    · cases h
  · obtain ⟨⟨⟨path, name⟩, left⟩, -, h⟩ := Option.bind_eq_some_iff.1 h
    simp only at h
    split at h
    · obtain ⟨opened, hopened, h⟩ := Option.bind_eq_some_iff.1 h
      obtain ⟨_, -, h⟩ := Option.bind_eq_some_iff.1 h
      cases h
      exact allDistinct_of_openTable? hd hopened
    · cases h
  · obtain ⟨⟨⟨path, name⟩, v, left⟩, hmember, h⟩ := Option.bind_eq_some_iff.1 h
    obtain ⟨longer, hlonger, h⟩ := Option.bind_eq_some_iff.1 h
    obtain ⟨_, -, h⟩ := Option.bind_eq_some_iff.1 h
    cases h
    have hv := distinct_of_readMember? (distinctly_readValue? maxDepth) hmember
    exact allDistinct_of_insert? hv hd hlonger

theorem allDistinct_of_readLines? (hd : Node.AllDistinct d.members)
    (h : d.readLines? cs = some d') : Node.AllDistinct d'.members := by
  induction d, cs using readLines?.induct with
  | case1 d cs hempty =>
    rw [readLines?, if_pos hempty] at h
    cases h
    exact hd
  | case2 d cs hempty ih =>
    rw [readLines?, if_neg hempty] at h
    obtain ⟨⟨next, left⟩, hline, h⟩ := Option.bind_eq_some_iff.1 h
    simp only at h
    split at h
    · rename_i hlength
      exact ih next left hlength (allDistinct_of_readLine? hd hline) h
    · cases h

end Document

/-- **In a document no name occurs twice**, at the top level or in a table inside. -/
theorem distinct_of_parse? {text : String} {t : Table} (h : parse? text = some t) :
    (Value.table t).Distinct := by
  obtain ⟨d, hd, h⟩ := Option.bind_eq_some_iff.1 h
  cases h
  exact (Document.allDistinct_of_readLines? .nil hd).closeAll

end GoalProgress.Toml
