import CodeGrade.Proofs.Accepting
import CodeGrade.Proofs.MatchLines
import Mathlib

/-!
# What is wrong with a configuration

Building a catalog fails for three sorts of reasons: the rules are not registered properly, the
value has not the shape of a configuration, or the values that hold after merging do not fit
together. The first sort that applies is reported, with a problem for each thing that is wrong. What
the third sort and the catalog say is stated here in terms of the value as it was written.

## Main definitions

* `Json.at?`: the value at a place within a value.
* `mergedLimit`, `mergedWeight`, `ruleKeys`: what a value says of limits, weights and rules.
* `registryProblems`, `mergedProblems`: the problems of rules and of merged values.
* `enabledEntries`: the rules that a value leaves in force.
* `Configuration.Reflects`: a configuration that says what a value says.
-/

namespace CodeGrade

/-! ### What a value says -/

/-- The value at a place within a value. -/
def Json.at? : List String → Json → Option Json
  | [], value => some value
  | name :: path, value => (value.field? name).bind (at? path)

/-- The limit with a given name: the one that is written, or else the standard one. -/
def mergedLimit (value : Json) (name : String) (standard : ℕ) : ℕ :=
  (((value.at? ["thresholds", name]).bind Json.number?).bind Decimal.nat?).getD standard

/-- The weight of a category: the one that is written, or else the standard one. -/
def mergedWeight (value : Json) (category : Category) : Float :=
  ((value.at? ["weights", category.id]).bind Json.number?).getD category.standardWeight

/-- The sum of the weights, added up in the order of the categories. -/
def mergedWeightSum (value : Json) : Float :=
  Category.all.foldl (fun sum category => sum + mergedWeight value category) 0.0

/-- The names under which settings of rules are written, without the one that stands for no rule. -/
def ruleKeys (value : Json) : List String :=
  match value.field? "rules" with
  | some (.object members) => (members.map (·.1)).filter (· != "__proto__")
  | _ => []

/-- A setting that is written for a rule. -/
def ruleSetting? (value : Json) (id name : String) : Option Json :=
  if id = "__proto__" then none else value.at? ["rules", id, name]

/-- Whether a rule is in force: rules are, unless they are switched off. -/
def isEnabledBy (value : Json) (rule : Rule) : Bool :=
  ((ruleSetting? value rule.id "enabled").bind Json.bool?).getD true

/-- The severity of a rule: the one that is written, or else its own. -/
def severityBy (value : Json) (rule : Rule) : Severity :=
  (((ruleSetting? value rule.id "severity").bind Json.string?).bind Severity.ofName?).getD
    rule.severity

/-- The rules in force in the order of their registration, with their places in it. -/
def enabledEntries (value : Json) (rules : List Rule) : List CatalogEntry :=
  (rules.zipIdx.filter fun numbered => isEnabledBy value numbered.1).map fun numbered =>
    ⟨numbered.1, severityBy value numbered.1, numbered.2⟩

/-! ### Problems -/

/-- The rules have distinct identifiers, none of them reserved. -/
structure FitRegistry (rules : List Rule) : Prop where
  distinct : (rules.map (·.id)).Nodup
  unreserved : ∀ rule ∈ rules, rule.id ≠ "unparsable-source"

/-- The problems of a rule that is registered after others: one if an earlier one has the same
identifier, and one if the identifier is the reserved one. -/
def lateProblems (earlier : List Rule) (rule : Rule) : List Problem :=
  (if rule.id ∈ earlier.map (·.id) then [.registeredTwice rule.id] else []) ++
    (if rule.id = "unparsable-source" then [.reservedRule rule.id] else [])

/-- The problems of registered rules, in the order of registration. -/
def registryProblems (rules : List Rule) : List Problem :=
  rules.zipIdx.flatMap fun numbered => lateProblems (rules.take numbered.2) numbered.1

/-- The values that hold after merging fit together. -/
structure FitSettings (value : Json) (rules : List Rule) : Prop where
  lengths : mergedLimit value "warnFunctionLength" 50 ≤ mergedLimit value "maxFunctionLength" 100
  weights : ∀ category, 0.0 < mergedWeight value category ∧ mergedWeight value category ≤ 1.0
  weightSum : ¬(mergedWeightSum value - 1.0).abs > 1e-9
  rules : ∀ key ∈ ruleKeys value, key ∈ rules.map (·.id)

/-- The problems of the weights: one for each that is out of range, and one if the sum is off. -/
def mergedWeightProblems (value : Json) : List Problem :=
  ((Category.all.filter fun category =>
    ¬(0.0 < mergedWeight value category ∧ mergedWeight value category ≤ 1.0)).map fun category =>
      .weightOutOfRange category (mergedWeight value category)) ++
    (if (mergedWeightSum value - 1.0).abs > 1e-9 then [.weightSum (mergedWeightSum value)] else [])

/-- The problems of the values that hold after merging. -/
def mergedProblems (value : Json) (rules : List Rule) : List Problem :=
  let warning := mergedLimit value "warnFunctionLength" 50
  let limit := mergedLimit value "maxFunctionLength" 100
  (if warning > limit then [.warningExceedsLimit warning limit] else []) ++
    mergedWeightProblems value ++
    ((ruleKeys value).filter (· ∉ rules.map (·.id))).map .unknownRule

theorem mergedProblems_eq_nil {value : Json} {rules : List Rule} :
    mergedProblems value rules = [] ↔ FitSettings value rules := by
  simp only [mergedProblems, mergedWeightProblems, List.append_eq_nil_iff, ite_eq_right_iff,
    List.map_eq_nil_iff, List.filter_eq_nil_iff, reduceCtorEq, imp_false, decide_eq_true_eq,
    not_not]
  constructor
  · rintro ⟨⟨hlengths, hweights, hsum⟩, hrules⟩
    exact ⟨by omega, fun category => hweights category category.mem_all, hsum, hrules⟩
  · rintro ⟨hlengths, hweights, hsum, hrules⟩
    exact ⟨⟨by omega, fun category _ => hweights category, hsum⟩, hrules⟩

/-- The identifiers of the rules before a place are those that were seen on the way to it. -/
theorem registrationProblems_eq {seen : List String} (earlier rules : List Rule)
    (hseen : ∀ id, id ∈ seen ↔ id ∈ earlier.map (·.id)) :
    registrationProblems seen rules = (rules.zipIdx earlier.length).flatMap fun numbered =>
      lateProblems ((earlier ++ rules).take numbered.2) numbered.1 := by
  induction rules generalizing seen earlier with
  | nil => rfl
  | cons rule rest ih =>
    have hseen' : ∀ id, id ∈ rule.id :: seen ↔ id ∈ (earlier ++ [rule]).map (·.id) := by
      intro id
      simp [hseen, or_comm]
    have hnext := ih (earlier ++ [rule]) hseen'
    rw [List.append_assoc, List.singleton_append, List.length_append] at hnext
    rw [registrationProblems, hnext, List.zipIdx_cons, List.flatMap_cons, List.take_left,
      lateProblems]
    simp only [List.contains_iff_mem, hseen]
    rfl

theorem registrationProblems_nil (rules : List Rule) :
    registrationProblems [] rules = registryProblems rules :=
  registrationProblems_eq [] rules (by simp)

/-! ### Reading what a value says -/

namespace Schema

section Optional

variable {α β : Type} {read : List String → Json → Validated α} {path : List String}
  {members : List (String × Json)} {name : String} {v : Option α}

/-- What follows from a member that was read follows from what is written there. -/
theorem optional_bind {f : α → Option β} {g : Json → Option β}
    (h : optional path members name read = .valid v)
    (hread : ∀ {path value a}, read path value = .valid a → f a = g value) :
    v.bind f = (Json.field? name (.object members)).bind g := by
  rcases optional_eq_valid.1 h with ⟨hfield, rfl⟩ | ⟨value, a, hfield, hvalue, rfl⟩
  · rw [hfield]
    rfl
  · rw [hfield]
    exact hread hvalue

theorem optional_eq_bind {g : Json → Option α}
    (h : optional path members name read = .valid v)
    (hread : ∀ {path value a}, read path value = .valid a → some a = g value) :
    v = (Json.field? name (.object members)).bind g := by
  have hbind := optional_bind h hread
  rwa [Option.bind_fun_some] at hbind

end Optional

variable {path : List String} {value : Json}

theorem boolean_written {b : Bool} (h : boolean path value = .valid b) : some b = value.bool? := by
  rw [boolean_eq_valid.1 h]
  rfl

theorem severity_written {s : Severity} (h : severity path value = .valid s) :
    some s = value.string?.bind Severity.ofName? := by
  rw [severity_eq_valid.1 h]
  cases s <;> rfl

theorem number_written {complaints : Float → List Complaint} {x : Float}
    (h : number path complaints value = .valid x) : some x = value.number? := by
  rw [(number_eq_valid.1 h).1]
  rfl

theorem limit_written {n : ℕ} (h : limit path value = .valid n) :
    some n = value.number?.bind Decimal.nat? := by
  obtain ⟨-, x, rfl, hx⟩ := limit_eq_valid.1 h
  exact hx.symm

theorem thresholds_written {o : ThresholdOverrides} (h : thresholds path value = .valid o) :
    o.warnFunctionLength =
        (value.field? "warnFunctionLength").bind (fun v => v.number?.bind Decimal.nat?) ∧
      o.maxFunctionLength =
        (value.field? "maxFunctionLength").bind (fun v => v.number?.bind Decimal.nat?) := by
  obtain ⟨members, rfl, ⟨hmax, hwarn, -⟩, -⟩ := thresholds_eq_valid.1 h
  exact ⟨optional_eq_bind hwarn limit_written, optional_eq_bind hmax limit_written⟩

theorem weights_written {weights : PerCategory Float}
    (h : perCategory weight path value = .valid weights) (category : Category) :
    weights.get category = (value.field? category.id).bind Json.number? := by
  obtain ⟨members, rfl, hread, -⟩ := perCategory_eq_valid.1 h
  exact optional_eq_bind (hread category) number_written

theorem enabled_written {o : RuleOverride} (h : ruleOverride path value = .valid o) :
    o.enabled = (value.field? "enabled").bind Json.bool? := by
  obtain ⟨members, rfl, ⟨henabled, -⟩, -⟩ := ruleOverride_eq_valid.1 h
  exact optional_eq_bind henabled boolean_written

theorem overrideSeverity_written {o : RuleOverride} (h : ruleOverride path value = .valid o) :
    o.severity = (value.field? "severity").bind fun v => v.string?.bind Severity.ofName? := by
  obtain ⟨members, rfl, ⟨-, hseverity⟩, -⟩ := ruleOverride_eq_valid.1 h
  exact optional_eq_bind hseverity severity_written

section Rules

variable {β : Type} {rules : List (String × RuleOverride)}

theorem ruleOverrides_keys (h : ruleOverrides path value = .valid rules) :
    ∃ members, value = .object members ∧
      rules.map (·.1) = (members.map (·.1)).filter (· != "__proto__") := by
  obtain ⟨members, overrides, rfl, hread, rfl⟩ := ruleOverrides_eq_valid.1 h
  have hnames : members.map (·.1) = overrides.map (·.1) := by
    rw [← List.forall₂_eq_eq_eq, List.forall₂_map_left_iff, List.forall₂_map_right_iff]
    exact hread.imp fun _ _ hm => hm.1
  refine ⟨members, rfl, ?_⟩
  rw [hnames, List.filter_map]
  rfl

/-- What follows from the settings of a rule follows from what is written under its name. -/
theorem override_written {f : RuleOverride → Option β} {g : Json → Option β}
    (h : ruleOverrides path value = .valid rules)
    (hsetting : ∀ {path value o}, ruleOverride path value = .valid o → f o = g value)
    (id : String) :
    ((rules.find? (·.1 = id)).map (·.2)).bind f =
      if id = "__proto__" then none else (value.field? id).bind g := by
  obtain ⟨members, overrides, rfl, hread, rfl⟩ := ruleOverrides_eq_valid.1 h
  split
  · rename_i hid
    rw [List.find?_eq_none.2 (by simp [hid])]
    rfl
  · rename_i hid
    clear h
    -- Members and settings correspond one by one, and what is left out has another name.
    induction hread with
    | nil => rfl
    | @cons m o members overrides hm hrest ih =>
      obtain ⟨hname, hoverride⟩ := hm
      rw [Json.field?] at ih ⊢
      by_cases hfound : m.1 = id
      · simp [← hname, hfound, hid, hsetting hoverride]
      · rw [List.find?_cons_of_neg (by simpa using hfound), ← ih, List.filter_cons]
        split
        · rw [List.find?_cons_of_neg (by simpa [← hname] using hfound)]
        · rfl

end Rules

section Places

variable {members : List (String × Json)}

/-- A limit stands at its name among the limits. -/
theorem mergedLimit_eq {overrides : Option ThresholdOverrides}
    (h : optional [] members "thresholds" thresholds = .valid overrides)
    {f : ThresholdOverrides → Option ℕ} {name : String}
    (hwritten : ∀ {path value o}, thresholds path value = .valid o →
      f o = (value.field? name).bind fun v => v.number?.bind Decimal.nat?) (standard : ℕ) :
    mergedLimit (.object members) name standard = (overrides.bind f).getD standard := by
  rw [optional_bind h hwritten, mergedLimit]
  simp only [Json.at?, Option.bind_assoc, Option.bind_some]

theorem mergedWeight_eq {weights : Option (PerCategory Float)}
    (h : optional [] members "weights" (perCategory weight) = .valid weights)
    (category : Category) : mergedWeight (.object members) category =
      (weights.bind (·.get category)).getD category.standardWeight := by
  rw [optional_bind h fun h => weights_written h category, mergedWeight]
  simp only [Json.at?, Option.bind_assoc, Option.bind_some]

variable {rules : Option (List (String × RuleOverride))}
  (h : optional [] members "rules" ruleOverrides = .valid rules)

include h

theorem ruleKeys_eq : ruleKeys (.object members) = (rules.getD []).map (·.1) := by
  rcases optional_eq_valid.1 h with ⟨hfield, rfl⟩ | ⟨value, rules, hfield, hread, rfl⟩
  · rw [ruleKeys, hfield]
    rfl
  · obtain ⟨written, rfl, hkeys⟩ := ruleOverrides_keys hread
    rw [ruleKeys, hfield]
    exact hkeys.symm

/-- A setting of a rule stands at its name among the settings of the rule. -/
theorem ruleSetting?_bind {β : Type} {f : RuleOverride → Option β} {name : String}
    {g : Json → Option β}
    (hwritten : ∀ {path value o}, ruleOverride path value = .valid o →
      f o = (value.field? name).bind g) (id : String) :
    (ruleSetting? (.object members) id name).bind g =
      rules.bind fun rules => ((rules.find? (·.1 = id)).map (·.2)).bind f := by
  rw [optional_bind h fun h => override_written h hwritten id, ruleSetting?]
  split
  · simp
  · simp only [Json.at?, Option.bind_assoc, Option.bind_some]

end Places

end Schema

/-! ### Configurations -/

/-- The configuration says what the value says. -/
structure Configuration.Reflects (c : Configuration) (value : Json) : Prop where
  warning : c.resolvedThresholds.warnFunctionLength = mergedLimit value "warnFunctionLength" 50
  limit : c.resolvedThresholds.maxFunctionLength = mergedLimit value "maxFunctionLength" 100
  weights : c.resolvedWeights =
    Category.all.map fun category => ⟨category, mergedWeight value category⟩
  keys : (c.rules.getD []).map (·.1) = ruleKeys value
  setting : ∀ rule : Rule, c.setting rule.id rule.severity =
    ⟨isEnabledBy value rule, severityBy value rule⟩

theorem reflects_empty : Configuration.empty.Reflects .null := by
  have hsetting : ∀ id name, ruleSetting? .null id name = none := by
    intro id name
    rw [ruleSetting?]
    split <;> rfl
  refine ⟨rfl, rfl, rfl, rfl, fun rule => ?_⟩
  rw [isEnabledBy, severityBy, hsetting, hsetting]
  rfl

theorem reflects_of_configuration {value : Json} {c : Configuration}
    (h : Schema.configuration value = .valid c) : c.Reflects value := by
  obtain ⟨members, rfl, ⟨hrules, hthresholds, hweights, -⟩, -⟩ :=
    Schema.configuration_eq_valid.1 h
  constructor
  case warning =>
    rw [Schema.mergedLimit_eq hthresholds fun h => (Schema.thresholds_written h).1,
      Configuration.resolvedThresholds]
    cases c.thresholds <;> rfl
  case limit =>
    rw [Schema.mergedLimit_eq hthresholds fun h => (Schema.thresholds_written h).2,
      Configuration.resolvedThresholds]
    cases c.thresholds <;> rfl
  case weights =>
    simp only [Schema.mergedWeight_eq hweights]
    rfl
  case keys => exact (Schema.ruleKeys_eq hrules).symm
  case setting =>
    intro rule
    rw [isEnabledBy, severityBy, Option.bind_assoc,
      Schema.ruleSetting?_bind hrules Schema.enabled_written,
      Schema.ruleSetting?_bind hrules Schema.overrideSeverity_written,
      Configuration.setting, Configuration.override?, Option.bind_assoc, Option.bind_assoc]

theorem reflects_of_ofValue {config : Option Json} {c : Configuration}
    (h : Configuration.ofValue config = .ok c) : c.Reflects (config.getD .null) := by
  rw [Configuration.ofValue.eq_def] at h
  split at h
  · rw [← Except.ok.inj h]
    exact reflects_empty
  · rw [← Except.ok.inj h]
    exact reflects_empty
  · exact reflects_of_configuration (Validated.toExcept_eq_ok.1 h)

namespace Configuration.Reflects

variable {c : Configuration} {value : Json}

theorem weightProblems_eq (h : c.Reflects value) :
    weightProblems c.resolvedWeights = mergedWeightProblems value := by
  rw [weightProblems, h.weights, List.filterMap_map, List.foldl_map, mergedWeightProblems,
    ← List.filterMap_eq_map, List.filterMap_filter]
  congr 1
  refine List.filterMap_congr fun category _ => ?_
  simp only [Function.comp_apply, decide_eq_true_eq, ite_not]

theorem problems_eq (h : c.Reflects value) (rules : List Rule) :
    c.problems (rules.map (·.id)) = mergedProblems value rules := by
  have hrules : c.ruleProblems (rules.map (·.id)) =
      ((ruleKeys value).filter (· ∉ rules.map (·.id))).map .unknownRule := by
    rw [← h.keys, List.filter_map, List.map_map, ruleProblems]
    refine congrArg (List.map _) (List.filter_congr fun r _ => ?_)
    rw [Bool.eq_iff_iff]
    simp
  rw [problems, thresholdProblems, h.warning, h.limit, h.weightProblems_eq, hrules, mergedProblems]

theorem entries_eq (h : c.Reflects value) (rules : List Rule) :
    c.entries rules = enabledEntries value rules := by
  rw [entries, enabledEntries, ← List.filterMap_eq_map, List.filterMap_filter]
  refine List.filterMap_congr fun numbered _ => ?_
  rw [inForce?, h.setting]
  rfl

end Configuration.Reflects

/-! ### Catalogs -/

theorem fitRegistry_iff {rules : List Rule} :
    FitRegistry rules ↔ registrationProblems [] rules = [] := by
  rw [registrationProblems_nil_iff]
  constructor
  · intro hfit
    exact ⟨hfit.distinct, hfit.unreserved⟩
  · rintro ⟨hdistinct, hunreserved⟩
    exact ⟨hdistinct, hunreserved⟩

theorem Catalog.build_of_not_fit {rules : List Rule} (h : ¬FitRegistry rules)
    (config : Option Json) : Catalog.build config rules = .error (registryProblems rules) := by
  rw [fitRegistry_iff] at h
  rw [Catalog.build, ← registrationProblems_nil]
  split
  · rename_i hnone
    exact absurd hnone h
  · rfl

/-- Building a catalog reports all problems of the first step that shows any. If the registered
rules are fit, these are the problems of the schema, if it finds any, and otherwise those of the
merged values, each once and in order. Only if there are none of any sort is there a catalog. It
holds the rules that are not switched off, in the order of registration and with their places in
it. -/
theorem build_reports_problems (config : Option Json) (rules : List Rule) :
    (¬FitRegistry rules → Catalog.build config rules = .error (registryProblems rules)) ∧
      (FitRegistry rules →
        (∀ problems, Configuration.ofValue config = .error problems →
          Catalog.build config rules = .error problems) ∧
        ∀ c, Configuration.ofValue config = .ok c →
          (¬FitSettings (config.getD .null) rules →
            Catalog.build config rules = .error (mergedProblems (config.getD .null) rules)) ∧
          (FitSettings (config.getD .null) rules →
            ∃ catalog, Catalog.build config rules = .ok catalog ∧
              catalog.entries = enabledEntries (config.getD .null) rules)) := by
  refine ⟨fun hunfit => Catalog.build_of_not_fit hunfit config, fun hfit =>
    ⟨fun problems => Catalog.build_of_error (fitRegistry_iff.1 hfit), fun c hconfig => ?_⟩⟩
  have hreflects := reflects_of_ofValue hconfig
  have hproblems := hreflects.problems_eq rules
  rw [← mergedProblems_eq_nil, ← hproblems]
  constructor
  · exact Catalog.build_of_problems (fitRegistry_iff.1 hfit) hconfig
  · intro hnone
    refine ⟨c.catalog rules, Catalog.build_eq_ok.2 ⟨?_, c, hconfig, hnone, rfl⟩,
      hreflects.entries_eq rules⟩
    exact ⟨hfit.distinct, hfit.unreserved⟩

/-- A warning above the standard limit, a weight that is too great, and a rule that is not there. -/
def conflictingSettings : Json :=
  .object [
    ("thresholds", .object [("warnFunctionLength", .number 200)]),
    ("weights", .object [("security", .number 2)]),
    ("rules", .object [("__proto__", .object []), ("no-such-rule", .object [])])]

/-- All problems are reported, also that the weights do not add up any more. -/
theorem conflictingSettings_rejected : Catalog.build (some conflictingSettings) = .error [
    .warningExceedsLimit 200 100, .weightOutOfRange .security 2,
    .weightSum (mergedWeightSum conflictingSettings), .unknownRule "no-such-rule"] := by
  have hvalid : Configuration.ofValue (some conflictingSettings) = .ok
      ⟨some [("no-such-rule", ⟨none, none⟩)],
        some ⟨none, some 200, none, none, none, none, none, none⟩,
        some ⟨none, none, none, some 2, none, none⟩, none⟩ := rfl
  have hunfit : ¬FitSettings conflictingSettings builtinRules := by
    intro hfit
    exact absurd hfit.lengths (by decide +kernel)
  have hproblems : mergedProblems conflictingSettings builtinRules = [
      .warningExceedsLimit 200 100, .weightOutOfRange .security 2,
      .weightSum (mergedWeightSum conflictingSettings), .unknownRule "no-such-rule"] := by
    rfl
  rw [← hproblems]
  have hrejects := (build_reports_problems (some conflictingSettings) builtinRules).2
    ⟨nodup_builtinRules, fun rule hrule => (builtinRules_not_reserved rule hrule).1⟩
  exact (hrejects.2 _ hvalid).1 hunfit

end CodeGrade
