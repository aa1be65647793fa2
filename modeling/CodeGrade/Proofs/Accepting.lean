import CodeGrade.Catalog
import CodeGrade.Proofs.Masking
import CodeGrade.Proofs.Schema
import Mathlib

/-!
# Accepted configurations

A catalog is built from a configuration that passes all checks and from rules that are registered
once each. What it holds then follows from the configuration rule by rule, and what its policy says
follows from the checks: weights are positive, points are finite and not negative.

## Main definitions

* `Configuration.entries`, `Configuration.catalog`: the catalog of a configuration without the
  checks.
* `ProperPoints`: points that may be deducted.
-/

namespace CodeGrade

/-! ### Registering rules -/

theorem registrationProblems_eq_nil {seen : List String} {rules : List Rule} :
    registrationProblems seen rules = [] ↔ (rules.map (·.id)).Nodup ∧
      ∀ rule ∈ rules, rule.id ∉ seen ∧ rule.id ≠ unparsableId := by
  induction rules generalizing seen with
  | nil => simp [registrationProblems]
  | cons rule rest ih =>
    simp only [registrationProblems, List.append_eq_nil_iff, ih, List.map_cons, List.nodup_cons,
      List.mem_cons, List.mem_map, List.contains_iff_mem]
    grind

/-- Rules are registered once each, and none with the reserved identifier. -/
theorem registrationProblems_nil_iff {rules : List Rule} : registrationProblems [] rules = [] ↔
    (rules.map (·.id)).Nodup ∧ ∀ rule ∈ rules, rule.id ≠ unparsableId := by
  simp [registrationProblems_eq_nil]

/-! ### Settings of rules -/

namespace Configuration

/-- The rule in force under a configuration, if it is. -/
def inForce? (c : Configuration) (rule : Rule) (order : ℕ) : Option CatalogEntry :=
  let setting := c.setting rule.id rule.severity
  if setting.enabled then some ⟨rule, setting.severity, order⟩ else none

/-- The rules in force under a configuration. -/
def entries (c : Configuration) (rules : List Rule) : List CatalogEntry :=
  rules.zipIdx.filterMap fun numbered => c.inForce? numbered.1 numbered.2

/-- The catalog of a configuration, whether it would be accepted or not. -/
def catalog (c : Configuration) (rules : List Rule) : Catalog where
  entries := c.entries rules
  thresholds := c.resolvedThresholds
  policy := ⟨c.resolvedWeights, c.resolvedDeduction⟩

end Configuration

theorem find?_settings {c : Configuration} {rules : List Rule} (hnodup : (rules.map (·.id)).Nodup)
    {rule : Rule} (hrule : rule ∈ rules) :
    (rules.map fun r => (r.id, c.setting r.id r.severity)).find? (·.1 = rule.id) =
      some (rule.id, c.setting rule.id rule.severity) := by
  induction rules with
  | nil => cases hrule
  | cons first rest ih =>
    obtain ⟨hfirst, hrest⟩ := List.nodup_cons.1 hnodup
    rcases List.mem_cons.1 hrule with rfl | hrule
    · simp
    · have hne : first.id ≠ rule.id := fun heq =>
        hfirst (List.mem_map.2 ⟨rule, hrule, heq.symm⟩)
      simpa [hne] using ih hrest hrule

theorem catalogEntries_eq {c : Configuration} {rules : List Rule}
    (hnodup : (rules.map (·.id)).Nodup) :
    catalogEntries (rules.map fun r => (r.id, c.setting r.id r.severity)) rules =
      c.entries rules := by
  refine List.filterMap_congr fun numbered hnumbered => ?_
  simp only [find?_settings hnodup (List.fst_mem_of_mem_zipIdx hnumbered), Configuration.inForce?]

theorem Configuration.resolve_eq_ok {c : Configuration} {known : List (String × Severity)}
    {resolved : Resolved} : c.resolve known = .ok resolved ↔ c.problems (known.map (·.1)) = [] ∧
      resolved = ⟨c.resolvedThresholds, ⟨c.resolvedWeights, c.resolvedDeduction⟩,
        known.map fun k => (k.1, c.setting k.1 k.2)⟩ := by
  rw [Configuration.resolve]
  split
  · rename_i hproblems
    rw [hproblems]
    exact ⟨fun h => ⟨rfl, (Except.ok.inj h).symm⟩, fun h => h.2 ▸ rfl⟩
  · rename_i hproblems
    exact iff_of_false (by simp) fun h => hproblems h.1

/-- A catalog is built if the rules are registered once each, none with the reserved identifier, and
the configuration passes all checks. -/
theorem Catalog.build_eq_ok {config : Option Json} {rules : List Rule} {catalog : Catalog} :
    Catalog.build config rules = .ok catalog ↔
      ((rules.map (·.id)).Nodup ∧ ∀ rule ∈ rules, rule.id ≠ unparsableId) ∧
        ∃ c, Configuration.ofValue config = .ok c ∧ c.problems (rules.map (·.id)) = [] ∧
          catalog = c.catalog rules := by
  rw [← registrationProblems_nil_iff, Catalog.build]
  split
  · rename_i hproblems
    have hnodup := (registrationProblems_nil_iff.1 hproblems).1
    simp only [hproblems, true_and, ok_bind_iff, Configuration.resolve_eq_ok, List.map_map,
      Function.comp_def]
    constructor
    · rintro ⟨c, hc, resolved, ⟨hresolved, rfl⟩, hcatalog⟩
      refine ⟨c, hc, hresolved, ?_⟩
      rw [← Except.ok.inj hcatalog, Configuration.catalog, ← catalogEntries_eq hnodup]
    · rintro ⟨c, hc, hresolved, rfl⟩
      refine ⟨c, hc, _, ⟨hresolved, rfl⟩, ?_⟩
      rw [Configuration.catalog, ← catalogEntries_eq hnodup]
  · rename_i hproblems
    exact iff_of_false (by simp) fun h => hproblems h.1

section Registered

variable {config : Option Json} {rules : List Rule}
  (hregistered : registrationProblems [] rules = [])

include hregistered

theorem Catalog.build_of_error {problems : List Problem}
    (hconfig : Configuration.ofValue config = .error problems) :
    Catalog.build config rules = .error problems := by
  rw [Catalog.build, hregistered, hconfig]
  rfl

theorem Catalog.build_of_problems {c : Configuration}
    (hconfig : Configuration.ofValue config = .ok c)
    (hproblems : c.problems (rules.map (·.id)) ≠ []) :
    Catalog.build config rules = .error (c.problems (rules.map (·.id))) := by
  have hresolve : c.resolve (rules.map fun rule => (rule.id, rule.severity)) =
      .error (c.problems (rules.map (·.id))) := by
    rw [Configuration.resolve, List.map_map]
    split
    · rename_i hnone
      exact absurd hnone hproblems
    · rfl
  rw [Catalog.build, hregistered, hconfig]
  simp only [bind, Except.bind, hresolve]

end Registered

/-! ### Points and weights -/

/-- Points that may be deducted: a finite number that is not negative. -/
structure ProperPoints (x : Float) : Prop where
  isFinite : Decimal.isFinite x = true
  not_neg : ¬x < 0.0

/-- The points given for severities are proper ones. -/
def SeverityPoints.Proper (points : SeverityPoints) : Prop :=
  ∀ severity x, points.get severity = some x → ProperPoints x

/-- The points given for all categories and those for single ones are proper ones. -/
structure DeductionOverrides.Proper (overrides : DeductionOverrides) : Prop where
  general : overrides.general.Proper
  categories : ∀ {values}, overrides.categories = some values →
    ∀ {category points}, values.get category = some points → points.Proper

theorem Schema.points_proper {path : List String} {value : Json} {x : Float}
    (h : Schema.points path value = .valid x) : ProperPoints x := by
  obtain ⟨hfinite, hneg⟩ := List.append_eq_nil_iff.1 (Schema.number_eq_valid.1 h).2
  constructor
  · by_contra hinfinite
    simp [hinfinite] at hfinite
  · intro hlt
    simp [hlt] at hneg

theorem Schema.severityPoints_proper {path : List String} {members : List (String × Json)}
    {points : SeverityPoints} (h : Schema.severityPoints path members = .valid points) :
    points.Proper := by
  intro severity x hx
  have hread := Schema.severityPoints_eq_valid.1 h severity
  rw [hx] at hread
  obtain ⟨value, hpoints⟩ := Schema.read_of_optional hread
  exact Schema.points_proper hpoints

theorem Schema.deductions_proper {path : List String} {value : Json}
    {overrides : DeductionOverrides} (h : Schema.deductions path value = .valid overrides) :
    overrides.Proper := by
  obtain ⟨members, -, h, -⟩ := Schema.object_eq_valid.1 h
  obtain ⟨_, categories, hmk, hcategories, rfl⟩ := Validated.seq_eq_valid.1 h
  obtain ⟨general, hgeneral, rfl⟩ := Validated.map_eq_valid.1 hmk
  constructor
  case general => exact Schema.severityPoints_proper hgeneral
  case categories =>
    intro values hvalues category points hpoints
    obtain rfl : categories = some values := hvalues
    obtain ⟨value, hread⟩ := Schema.read_of_optional hcategories
    obtain ⟨members, -, hread, -⟩ := Schema.perCategory_eq_valid.1 hread
    have hcategory := hread category
    rw [hpoints] at hcategory
    obtain ⟨value, hobject⟩ := Schema.read_of_optional hcategory
    obtain ⟨members, -, hobject, -⟩ := Schema.object_eq_valid.1 hobject
    exact Schema.severityPoints_proper hobject

namespace Configuration

variable {c : Configuration} {config : Option Json}

theorem deductions_of_ofValue (h : ofValue config = .ok c) {overrides : DeductionOverrides}
    (hoverrides : c.deductions = some overrides) : overrides.Proper := by
  rw [ofValue.eq_def] at h
  split at h
  · rw [← Except.ok.inj h] at hoverrides
    cases hoverrides
  · rw [← Except.ok.inj h] at hoverrides
    cases hoverrides
  · obtain ⟨members, -, ⟨-, -, -, hread⟩, -⟩ :=
      Schema.configuration_eq_valid.1 (Validated.toExcept_eq_ok.1 h)
    rw [hoverrides] at hread
    obtain ⟨value, hdeductions⟩ := Schema.read_of_optional hread
    exact Schema.deductions_proper hdeductions

/-- An accepted configuration deducts proper points only. -/
theorem resolvedDeduction_proper (h : ofValue config = .ok c) (category : Category)
    (severity : Severity) : ProperPoints (c.resolvedDeduction category severity) := by
  have hstandard : ProperPoints severity.standardDeduction := by
    cases severity <;> exact ⟨by decide +kernel, by decide +kernel⟩
  cases hdeductions : c.deductions with
  | none => simpa [resolvedDeduction, hdeductions] using hstandard
  | some overrides =>
    have hoverrides := deductions_of_ofValue h hdeductions
    simp only [resolvedDeduction, hdeductions, Option.bind_some]
    cases hown : overrides.categories.bind fun values =>
        (values.get category).bind (·.get severity) with
    | some x =>
      obtain ⟨values, hvalues, hown⟩ := Option.bind_eq_some_iff.1 hown
      obtain ⟨points, hpoints, hx⟩ := Option.bind_eq_some_iff.1 hown
      exact hoverrides.categories hvalues hpoints severity x hx
    | none =>
      cases hgeneral : overrides.general.get severity with
      | some x => exact hoverrides.general severity x hgeneral
      | none => exact hstandard

/-- The weights of an accepted configuration are positive, and none is above one. -/
theorem resolvedWeights_range {known : List String} (h : c.problems known = []) :
    ∀ w ∈ c.resolvedWeights, 0.0 < w.weight ∧ w.weight ≤ 1.0 := by
  intro w hw
  have hweights := (List.append_eq_nil_iff.1 (List.append_eq_nil_iff.1 h).1).2
  have heach := List.filterMap_eq_nil_iff.1 (List.append_eq_nil_iff.1 hweights).1 w hw
  by_contra hrange
  simp [hrange] at heach

end Configuration

end CodeGrade
