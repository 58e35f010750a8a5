import GoalProgress.Config.Reader
import GoalProgress.Proofs.Config.Decode
import GoalProgress.Proofs.Config.Unrecognized
import GoalProgress.Proofs.Toml.Reader
import Mathlib

/-!
# Keys that are not known have no influence

Keys that are not known are reported, and the configuration is the one without them. There is one
exception: what stands under these keys is read as any value is, so that a table in the form of a
date has to be one. If it is none, the configuration is refused and no key is reported.
-/
namespace GoalProgress

open Toml (Value Table)

namespace Config

variable {t : Table} {text : String} (path : String)

theorem supportedTable_eq (h : Toml.parse? text = some t) :
    supportedTable text = version t >>= fun n =>
      if n ≠ supportedVersion then .error (.unsupportedVersion n) else .ok t := by
  rw [supportedTable, h]
  simp only [pure, Except.pure]
  rfl

/-- Without the supported version a text is refused, and no key is reported. -/
theorem parse_of_not_version (h : Toml.parse? text = some t)
    (hversion : t.get? "version" ≠ some (.integer supportedVersion)) :
    (parse text path).unrecognized = [] ∧ ∃ e, (parse text path).result = .error e := by
  have hfault : ∃ fault, supportedTable text = .error fault := by
    rw [supportedTable_eq h, version]
    cases hget : t.get? "version" with
    | none => exact ⟨_, rfl⟩
    | some v =>
      cases v with
      | integer n =>
        have hn : n ≠ supportedVersion := by
          rintro rfl
          exact hversion hget
        exact ⟨.unsupportedVersion n, if_pos hn⟩
      | _ => exact ⟨_, rfl⟩
  obtain ⟨fault, hfault⟩ := hfault
  rw [parse, hfault]
  exact ⟨rfl, _, rfl⟩

theorem supportedTable_of_version (h : Toml.parse? text = some t)
    (hversion : t.get? "version" = some (.integer supportedVersion)) :
    supportedTable text = .ok t := by
  rw [supportedTable_eq h, version, hversion]
  rfl

/-- A fault in a date has a text refused, and no key is reported. -/
theorem parse_of_not_genuineDates (h : Toml.parse? text = some t)
    (hversion : t.get? "version" = some (.integer supportedVersion)) (hdates : ¬ GenuineDates t) :
    (parse text path).unrecognized = [] ∧ ∃ e, (parse text path).result = .error e := by
  rw [← isOk_unrecognized] at hdates
  rw [parse, supportedTable_of_version h hversion]
  cases hkeys : unrecognized t with
  | error fault => simp [hkeys]
  | ok keys =>
    rw [hkeys] at hdates
    exact absurd rfl hdates

/-- Without such a fault the keys that the sections show are reported, and the table is decoded. -/
theorem parse_of_genuineDates (h : Toml.parse? text = some t)
    (hversion : t.get? "version" = some (.integer supportedVersion)) (hdates : GenuineDates t) :
    (parse text path).unrecognized =
        (otherKeys t (shownTable t "cache") (shownTable t "response")).map (⟨path, ·⟩) ∧
      (parse text path).result.toOption = (decode t).toOption := by
  rw [← isOk_datedSections] at hdates
  rw [parse, supportedTable_of_version h hversion]
  simp only [unrecognized_eq]
  cases hsections : datedSections t with
  | error fault =>
    rw [hsections] at hdates
    cases hdates
  | ok sections =>
    refine ⟨rfl, ?_⟩
    cases decode t <;> simp [Except.map, Except.mapError, Except.toOption]

/-- A text is accepted if its table is, and if every table in the form of a date is one. -/
theorem result_eq_some_iff (h : Toml.parse? text = some t) {config : Config} :
    (parse text path).result.toOption = some config ↔ Accepts t config ∧ GenuineDates t := by
  rw [Accepts]
  by_cases hversion : t.get? "version" = some (.integer supportedVersion)
  · by_cases hdates : GenuineDates t
    · obtain ⟨-, hresult⟩ := parse_of_genuineDates path h hversion hdates
      rw [hresult, toOption_eq_some_iff]
      simp [hversion, hdates]
    · obtain ⟨-, e, he⟩ := parse_of_not_genuineDates path h hversion hdates
      rw [he]
      simp [Except.toOption, hdates]
  · obtain ⟨-, e, he⟩ := parse_of_not_version path h hversion
    rw [he]
    simp [Except.toOption, hversion]

/-- If two tables are the same without the keys that are not known, then only a fault in a date can
make a difference, and only where the configuration would be accepted. -/
theorem result_eq_iff {text' : String} (path' : String) {t' : Table}
    (h : Toml.parse? text = some t) (h' : Toml.parse? text' = some t')
    (heq : (recognized t).sorted = (recognized t').sorted) :
    (parse text path).result.toOption = (parse text' path').result.toOption ↔
      (∀ config, ¬ Accepts t config) ∨ (GenuineDates t ↔ GenuineDates t') := by
  have hresult (config : Config) :
      (parse text path).result.toOption = some config ↔ Accepts t config ∧ GenuineDates t :=
    result_eq_some_iff path h
  have hresult' (config : Config) :
      (parse text' path').result.toOption = some config ↔ Accepts t config ∧ GenuineDates t' := by
    rw [result_eq_some_iff path' h',
      accepts_congr (Toml.distinct_of_parse? h) (Toml.distinct_of_parse? h') heq]
  constructor
  · intro hsame
    by_cases haccepts : ∀ config, ¬ Accepts t config
    · exact .inl haccepts
    · rw [Classical.not_forall_not] at haccepts
      obtain ⟨config, hconfig⟩ := haccepts
      have hiff := (hresult config).symm.trans (hsame ▸ hresult' config)
      exact .inr (by simpa [hconfig] using hiff)
  · intro hcases
    apply Option.ext
    intro config
    rw [hresult, hresult']
    rcases hcases with hnone | hiff
    · simp [hnone config]
    · rw [hiff]

/-- With the supported version the keys that are not known are reported exactly if there is none, or
if what has the form of a date is one and no section has it. -/
theorem unrecognized_eq_map_iff (h : Toml.parse? text = some t)
    (hversion : t.get? "version" = some (.integer supportedVersion)) {keys : List String}
    (hkeys : PassesOver t keys) :
    (parse text path).unrecognized = keys.map (⟨path, ·⟩) ↔
      keys = [] ∨ (GenuineDates t ∧ PlainSections t) := by
  have hexpected := (passesOver_iff (Toml.distinct_of_parse? h)).1 hkeys
  by_cases hdates : GenuineDates t
  · have hinjective (names : List String) :
        names.map (UnrecognizedKey.mk path) = keys.map (UnrecognizedKey.mk path) ↔ names = keys :=
      List.map_inj_right fun a b hab => (UnrecognizedKey.mk.inj hab).2
    rw [(parse_of_genuineDates path h hversion hdates).1, hinjective, hexpected,
      otherKeys_shownTable_eq_iff]
    constructor
    · intro hplain
      exact .inr ⟨hdates, hplain⟩
    · intro hcases
      rcases hcases with hnil | hboth
      · exact plainSections_of_otherKeys hnil
      · exact hboth.2
  · rw [(parse_of_not_genuineDates path h hversion hdates).1]
    simp [hdates]

/-- **Keys that are not known are reported and have no influence, apart from dates.** Two tables are
the same without these keys if all other names have the same values in both. Then both texts give
the same configuration or both are refused, unless it is a fault in a date that makes the
difference. With the supported version the keys are reported exactly if there is no such fault and
no section has the form of a date; with any other version nothing is reported and the text is
refused. -/
theorem parse_passesOver {text' : String} (path' : String) {t' : Table}
    (h : Toml.parse? text = some t) (h' : Toml.parse? text' = some t') :
    ((recognized t).sorted = (recognized t').sorted ↔
        ∀ name, ((recognized t).get? name).map Toml.Value.sorted =
          ((recognized t').get? name).map Toml.Value.sorted) ∧
      ((recognized t).sorted = (recognized t').sorted →
        ((parse text path).result.toOption = (parse text' path').result.toOption ↔
          (∀ config, ¬ Accepts t config) ∨ (GenuineDates t ↔ GenuineDates t'))) ∧
      (t.get? "version" = some (.integer supportedVersion) →
        (∃ keys, PassesOver t keys ∧
          ((parse text path).unrecognized = keys.map (⟨path, ·⟩) ↔
            keys = [] ∨ (GenuineDates t ∧ PlainSections t))) ∧
        (GenuineDates t →
          ∃ keys, Reports t keys ∧ (parse text path).unrecognized = keys.map (⟨path, ·⟩)) ∧
        (¬ GenuineDates t →
          (parse text path).unrecognized = [] ∧ ∃ e, (parse text path).result = .error e)) ∧
      (t.get? "version" ≠ some (.integer supportedVersion) →
        (parse text path).unrecognized = [] ∧ ∃ e, (parse text path).result = .error e) := by
  have hdistinct := Toml.distinct_of_parse? h
  refine ⟨sorted_recognized_eq_iff hdistinct (Toml.distinct_of_parse? h'),
    result_eq_iff path path' h h', ?_, parse_of_not_version path h⟩
  intro hversion
  have hkeys := (passesOver_iff hdistinct).2 rfl
  refine ⟨⟨_, hkeys, unrecognized_eq_map_iff path h hversion hkeys⟩, ?_, ?_⟩
  · intro hdates
    exact ⟨_, (reports_iff hdistinct).2 rfl, (parse_of_genuineDates path h hversion hdates).1⟩
  · exact parse_of_not_genuineDates path h hversion

/-- A key at the top level and one in a section are reported, and play no other role. -/
theorem parse_passesOver_extra :
    ∃ t t', Toml.parse? "version = 1\nextra = true\n[cache]\nttl = 5\n" = some t ∧
      Toml.parse? "version = 1\n[cache]\n" = some t' ∧
      (recognized t).sorted = (recognized t').sorted ∧
      (parse "version = 1\nextra = true\n[cache]\nttl = 5\n" "goalsplice.toml").result.toOption =
        (parse "version = 1\n[cache]\n" "goalsplice.toml").result.toOption ∧
      (parse "version = 1\nextra = true\n[cache]\nttl = 5\n" "goalsplice.toml").unrecognized =
        [⟨"goalsplice.toml", "extra"⟩, ⟨"goalsplice.toml", "cache.ttl"⟩] := by
  have hread : Toml.parse? "version = 1\nextra = true\n[cache]\nttl = 5\n" =
      some [("version", .integer 1), ("extra", .boolean true),
        ("cache", .table [("ttl", .integer 5)])] := by
    cbv
  have hread' : Toml.parse? "version = 1\n[cache]\n" =
      some [("version", .integer 1), ("cache", .table [])] := by
    cbv
  have hdates : GenuineDates [("version", .integer 1), ("extra", .boolean true),
      ("cache", .table [("ttl", .integer 5)])] :=
    isOk_unrecognized.1 rfl
  have hdates' : GenuineDates [("version", .integer 1), ("cache", .table [])] :=
    isOk_unrecognized.1 rfl
  obtain ⟨-, hsame, hreported, -⟩ :=
    parse_passesOver "goalsplice.toml" "goalsplice.toml" hread hread'
  obtain ⟨⟨keys, hkeys, hiff⟩, -⟩ := hreported rfl
  have hkeys : keys = ["extra", "cache.ttl"] := by
    rw [(passesOver_iff (Toml.distinct_of_parse? hread)).1 hkeys]
    cbv
  have hplain : PlainSections [("version", .integer 1), ("extra", .boolean true),
      ("cache", .table [("ttl", .integer 5)])] :=
    ⟨rfl, rfl⟩
  refine ⟨_, _, hread, hread', rfl, (hsame rfl).2 (.inr (iff_of_true hdates hdates')), ?_⟩
  rw [hiff.2 (.inr ⟨hdates, hplain⟩), hkeys]
  rfl

/-- An empty configuration is accepted. With a table that is not known it is refused, and the table
is not reported, if the table is taken for a date. -/
theorem parse_not_passesOver_date :
    ∃ t t', Toml.parse? "version = 1\n[x]\n\"$__toml_private_datetime\" = 5\n" = some t ∧
      Toml.parse? "version = 1\n" = some t' ∧ (recognized t).sorted = (recognized t').sorted ∧
      PassesOver t ["x"] ∧
      (parse "version = 1\n[x]\n\"$__toml_private_datetime\" = 5\n"
        "goalsplice.toml").unrecognized = [] ∧
      (parse "version = 1\n[x]\n\"$__toml_private_datetime\" = 5\n"
        "goalsplice.toml").result.toOption = none ∧
      (parse "version = 1\n" "goalsplice.toml").result.toOption = some {} := by
  have hread : Toml.parse? "version = 1\n[x]\n\"$__toml_private_datetime\" = 5\n" =
      some [("version", .integer 1), ("x", .table [("$__toml_private_datetime", .integer 5)])] := by
    cbv
  have hread' : Toml.parse? "version = 1\n" = some [("version", .integer 1)] := by cbv
  refine ⟨_, _, hread, hread', rfl, ?_, by cbv, by cbv, by cbv⟩
  rw [passesOver_iff (Toml.distinct_of_parse? hread)]
  cbv

end Config

end GoalProgress
