import CodeGrade.Proofs.Accepting
import CodeGrade.Proofs.Packing
import Mathlib

/-!
# Validating twice

An accepted configuration can be written out and read again, and it is the same configuration. So
it makes no difference whether a catalog is built from what a user wrote or from what the first
validation made of it. For a configuration that is rejected there is only one list of problems,
wherever it is validated first.

## Main definitions

* `Schema.Stable`: a reader that reads its own values, as they are written, again.
-/

namespace CodeGrade

/-! ### Members that are given -/

section Given

variable {members : List (String × Option Json)} {name : String} {value : Option Json}

theorem mem_given {m : String × Json} (h : m ∈ given members) : m.1 ∈ members.map (·.1) := by
  obtain ⟨member, hmember, hm⟩ := List.mem_filterMap.1 h
  obtain ⟨value, -, rfl⟩ := Option.map_eq_some_iff.1 hm
  exact List.mem_map_of_mem hmember

theorem given_cons (name : String) (value : Option Json) (rest : List (String × Option Json)) :
    given ((name, value) :: rest) = (value.map (name, ·)).toList ++ given rest := by
  cases value <;> rfl

theorem field?_given (hnodup : (members.map (·.1)).Nodup) (hmem : (name, value) ∈ members) :
    Json.field? name (.object (given members)) = value := by
  induction members with
  | nil => cases hmem
  | cons first rest ih =>
    obtain ⟨other, old⟩ := first
    obtain ⟨hfirst, hrest⟩ := List.nodup_cons.1 hnodup
    rw [Json.field?, given_cons]
    rcases List.mem_cons.1 hmem with heq | hmem
    · obtain ⟨rfl, rfl⟩ := Prod.mk.inj heq
      have hnone : (given rest).find? (·.1 = name) = none := by
        refine List.find?_eq_none.2 fun m hm heq => hfirst ?_
        rw [← of_decide_eq_true heq]
        exact mem_given hm
      cases value <;> simp [hnone]
    · have hne : other ≠ name := by
        rintro rfl
        exact hfirst (List.mem_map.2 ⟨_, hmem, rfl⟩)
      have hfield := ih hrest hmem
      rw [Json.field?] at hfield
      cases old <;> simp [hne, hfield]

end Given

namespace Schema

open Validated

/-- What the reader made of some value is what it makes of that as it is written, in any place. -/
def Stable {α : Type} (read : List String → Json → Validated α) (encode : α → Json) : Prop :=
  ∀ ⦃path value a⦄, read path value = .valid a → ∀ path', read path' (encode a) = .valid a

/-! ### Single values -/

theorem stable_boolean : Stable boolean .bool := by
  intro path value b h path'
  exact boolean_eq_valid.2 rfl

theorem stable_severity : Stable severity (.string ·.name) := by
  intro path value s h path'
  exact severity_eq_valid.2 rfl

theorem stable_number (complaints : Float → List Complaint) :
    Stable (number · complaints) .number := by
  intro path value x h path'
  exact number_eq_valid.2 ⟨rfl, (number_eq_valid.1 h).2⟩

/-- A limit is written as the number that it was read from. -/
theorem stable_limit : Stable limit Json.ofNat := by
  intro path value n h path'
  obtain ⟨hne, x, -, hx⟩ := limit_eq_valid.1 h
  -- Reading a limit looks at the parts of the number only.
  have hparts := Decimal.ofFloat_ofNat hx hne
  refine limit_eq_valid.2 ⟨hne, _, rfl, ?_⟩
  rw [← hx, Decimal.nat?, Decimal.nat?, hparts]

/-! ### Objects -/

section Objects

variable {α : Type} {read : List String → Json → Validated α} {encode : α → Json}

/-- A member that was read is read again from where it is written. -/
theorem Stable.optional (h : Stable read encode) {path : List String}
    {members : List (String × Json)} {name : String} {v : Option α}
    (hread : Schema.optional path members name read = .valid v)
    {fields : List (String × Option Json)} (hnodup : (fields.map (·.1)).Nodup)
    (hmem : (name, v.map encode) ∈ fields) (path' : List String) :
    Schema.optional path' (given fields) name read = .valid v := by
  have hfield := field?_given hnodup hmem
  rw [optional_eq_valid] at hread ⊢
  rcases hread with ⟨-, rfl⟩ | ⟨value, a, -, hread, rfl⟩
  · exact .inl ⟨hfield, rfl⟩
  · exact .inr ⟨encode a, a, hfield, h hread _, rfl⟩

theorem stable_ruleOverride : Stable ruleOverride RuleOverride.toJson := by
  intro path value o h path'
  obtain ⟨members, -, ⟨henabled, hseverity⟩, -⟩ := ruleOverride_eq_valid.1 h
  have hnodup : ["enabled", "severity"].Nodup := by decide
  refine ruleOverride_eq_valid.2 ⟨_, rfl, ⟨?_, ?_⟩, fun m hm => mem_given hm⟩
  · exact stable_boolean.optional henabled (by exact hnodup) (by simp) path'
  · exact stable_severity.optional hseverity (by exact hnodup) (by simp) path'

/-- The name that stands for no rule is not written, so every member that is written is kept. -/
theorem stable_ruleOverrides :
    Stable ruleOverrides fun rules => .object (rules.map fun r => (r.1, r.2.toJson)) := by
  intro path value rules h path'
  obtain ⟨members, overrides, -, hread, rfl⟩ := ruleOverrides_eq_valid.1 h
  have hoverrides : ∀ o ∈ overrides, ∃ path value, ruleOverride path value = .valid o.2 := by
    refine ((List.forall₂_and_left _ _).1 (hread.flip.imp (S := fun o _ =>
      (∃ path value, ruleOverride path value = .valid o.2) ∧ True) ?_)).1
    intro o m hm
    exact ⟨⟨_, _, hm.2⟩, trivial⟩
  refine ruleOverrides_eq_valid.2 ⟨_, overrides.filter (·.1 != "__proto__"), rfl, ?_, by simp⟩
  rw [List.forall₂_map_left_iff, List.forall₂_same]
  intro o ho
  obtain ⟨path, value, hoverride⟩ := hoverrides o (List.mem_of_mem_filter ho)
  exact ⟨rfl, stable_ruleOverride hoverride _⟩

theorem stable_thresholds : Stable thresholds ThresholdOverrides.toJson := by
  intro path value o h path'
  obtain ⟨members, -, ⟨h₁, h₂, h₃, h₄, h₅, h₆, h₇, h₈⟩, -⟩ := thresholds_eq_valid.1 h
  have hnodup : thresholdNames.Nodup := by decide
  refine thresholds_eq_valid.2 ⟨_, rfl, ⟨?_, ?_, ?_, ?_, ?_, ?_, ?_, ?_⟩, fun m hm => mem_given hm⟩
  · exact stable_limit.optional h₁ (by exact hnodup) (by simp) path'
  · exact stable_limit.optional h₂ (by exact hnodup) (by simp) path'
  · exact stable_limit.optional h₃ (by exact hnodup) (by simp) path'
  · exact stable_limit.optional h₄ (by exact hnodup) (by simp) path'
  · exact stable_limit.optional h₅ (by exact hnodup) (by simp) path'
  · exact stable_limit.optional h₆ (by exact hnodup) (by simp) path'
  · exact stable_boolean.optional h₇ (by exact hnodup) (by simp) path'
  · exact stable_boolean.optional h₈ (by exact hnodup) (by simp) path'

theorem Stable.perCategory (h : Stable read encode) :
    Stable (Schema.perCategory read) (PerCategory.toJson encode) := by
  intro path value values hvalues path'
  obtain ⟨members, -, hread, -⟩ := perCategory_eq_valid.1 hvalues
  have hnodup : (Category.all.map Category.id).Nodup := by decide
  refine perCategory_eq_valid.2 ⟨_, rfl, fun category => ?_, fun m hm => mem_given hm⟩
  exact h.optional (hread category) (by exact hnodup)
    (List.mem_map.2 ⟨category, category.mem_all, rfl⟩) path'

theorem members_append_given (points : SeverityPoints) (rest : List (String × Option Json)) :
    points.members ++ given rest =
      given ((Severity.all.map fun s => (s.name, (points.get s).map .number)) ++ rest) :=
  (List.filterMap_append ..).symm

/-- Points are read again, also where other members follow them. -/
theorem severityPoints_members {path : List String} {members : List (String × Json)}
    {points : SeverityPoints} (h : severityPoints path members = .valid points)
    {rest : List (String × Option Json)}
    (hnodup : (Severity.all.map Severity.name ++ rest.map (·.1)).Nodup) (path' : List String) :
    severityPoints path' (points.members ++ given rest) = .valid points := by
  rw [severityPoints_eq_valid] at h ⊢
  intro s
  rw [members_append_given]
  apply (stable_number _).optional (h s)
  · rwa [List.map_append]
  · exact List.mem_append_left _ (List.mem_map.2 ⟨s, s.mem_all, rfl⟩)

theorem stable_categoryPoints : Stable categoryPoints fun points => .object points.members := by
  intro path value points h path'
  obtain ⟨members, -, hread, -⟩ := object_eq_valid.1 h
  have hagain : severityPoints path' (points.members ++ given []) = .valid points :=
    severityPoints_members hread (by decide) path'
  rw [show given [] = [] from rfl, List.append_nil] at hagain
  exact object_eq_valid.2 ⟨_, rfl, hagain, fun m hm => mem_given hm⟩

theorem stable_deductions : Stable deductions DeductionOverrides.toJson := by
  intro path value o h path'
  obtain ⟨members, -, ⟨hgeneral, hcategories⟩, -⟩ := deductions_eq_valid.1 h
  have hnodup : (Severity.all.map Severity.name ++ ["categories"]).Nodup := by decide
  refine deductions_eq_valid.2 ⟨_, rfl, ⟨?_, ?_⟩, ?_⟩
  · exact severityPoints_members hgeneral (by exact hnodup) path'
  · rw [members_append_given]
    exact stable_categoryPoints.perCategory.optional hcategories (by exact hnodup) (by simp) path'
  · rw [members_append_given]
    exact fun m hm => mem_given hm

/-- An accepted configuration is accepted again as it is written. -/
theorem stable_configuration {value : Json} {c : Configuration}
    (h : configuration value = .valid c) : configuration c.toJson = .valid c := by
  obtain ⟨members, -, ⟨hrules, hthresholds, hweights, hdeductions⟩, -⟩ :=
    configuration_eq_valid.1 h
  have hnodup : ["rules", "thresholds", "weights", "deductions"].Nodup := by decide
  refine configuration_eq_valid.2 ⟨_, rfl, ⟨?_, ?_, ?_, ?_⟩, fun m hm => mem_given hm⟩
  · exact stable_ruleOverrides.optional hrules (by exact hnodup) (by simp) []
  · exact stable_thresholds.optional hthresholds (by exact hnodup) (by simp) []
  · exact (stable_number _).perCategory.optional hweights (by exact hnodup) (by simp) []
  · exact stable_deductions.optional hdeductions (by exact hnodup) (by simp) []

end Objects

end Schema

/-! ### Catalogs -/

theorem Configuration.ofValue_of_ne_null {value : Json} (h : value ≠ .null) :
    Configuration.ofValue (some value) = Configuration.validate (some value) := by
  cases value with
  | null => exact absurd rfl h
  | _ => rfl

/-- A catalog depends on a value only by the configuration that is in it. -/
theorem Catalog.build_congr {config config' : Option Json}
    (h : Configuration.ofValue config = Configuration.ofValue config') (rules : List Rule) :
    Catalog.build config rules = Catalog.build config' rules := by
  rw [Catalog.build, Catalog.build, h]

/-- What a validation made of a value other than null is accepted again, unchanged, and every list
of rules gives one and the same catalog, or one and the same list of problems, with either of the
two. If the value is rejected, so is every catalog of it, and with the same problems, as long as the
identifiers of the rules are distinct and not reserved. -/
theorem revalidation_agrees {value : Json} (hvalue : value ≠ .null) :
    (∀ c, Configuration.validate (some value) = .ok c →
      Configuration.validate (some c.toJson) = .ok c ∧
        ∀ rules, Catalog.build (some value) rules = Catalog.build (some c.toJson) rules) ∧
      ∀ problems, Configuration.validate (some value) = .error problems →
        ∀ rules : List Rule, (rules.map (·.id)).Nodup → (∀ rule ∈ rules, rule.id ≠ unparsableId) →
          Catalog.build (some value) rules = .error problems := by
  constructor
  · intro c hvalid
    have hagain : Configuration.validate (some c.toJson) = .ok c :=
      Validated.toExcept_eq_ok.2
        (Schema.stable_configuration (Validated.toExcept_eq_ok.1 hvalid))
    refine ⟨hagain, Catalog.build_congr ?_⟩
    rw [Configuration.ofValue_of_ne_null hvalue, hvalid]
    exact hagain.symm
  · intro problems hinvalid rules hnodup hreserved
    have hregistered := registrationProblems_nil_iff.2 ⟨hnodup, hreserved⟩
    apply Catalog.build_of_error hregistered
    rw [Configuration.ofValue_of_ne_null hvalue, hinvalid]

/-- A limit beyond the exact whole numbers, and a member that is checked and then dropped. -/
def generousLimits : Json :=
  .object [
    ("rules", .object [
      ("__proto__", .object []), ("todo-comment", .object [("enabled", .bool false)])]),
    ("thresholds", .object [("maxLineLength", .number 1e20)])]

theorem generousLimits_revalidated : ∃ c, Configuration.validate (some generousLimits) = .ok c ∧
    c.rules = some [("todo-comment", ⟨some false, none⟩)] ∧
    c.thresholds.bind (·.maxLineLength) = some (10 ^ 20) ∧
    Configuration.validate (some c.toJson) = .ok c ∧
    Catalog.build (some generousLimits) = Catalog.build (some c.toJson) := by
  have hvalid : Configuration.validate (some generousLimits) =
      .ok ⟨some [("todo-comment", ⟨some false, none⟩)],
        some ⟨none, none, none, none, none, some (10 ^ 20), none, none⟩, none, none⟩ := by
    rfl
  obtain ⟨hagain, hbuild⟩ := (revalidation_agrees (by simp [generousLimits])).1 _ hvalid
  exact ⟨_, hvalid, rfl, rfl, hagain, hbuild _⟩

end CodeGrade
