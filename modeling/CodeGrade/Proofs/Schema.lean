import CodeGrade.Config.Validation
import CodeGrade.Proofs.ExactValue
import Mathlib

/-!
# What the schema reads

A configuration is read part by part, and problems of different parts do not hide one another. A
part is accepted if the value is of the right sort, has no members of unknown names, and all that is
given in it is accepted. What is read is then what the value has in the same place.
-/

namespace CodeGrade

namespace Decimal

theorem zero_lt_iff_of_finite {x : Float} {negative : Bool} {m : ℕ} {e : ℤ}
    (hx : Binary64.ofFloat x = .finite negative m e) : 0.0 < x ↔ negative = false ∧ m ≠ 0 := by
  rw [lt_iff_unpacked, unpacked_zero, hx, Binary64.unpacked]
  split
  · rename_i hm
    simp [hm, Float.Model.UnpackedFloat.lt, Float.Model.UnpackedFloat.compare]
  · rename_i hm
    cases negative <;>
      simp [hm, signOf, Float.Model.UnpackedFloat.lt, Float.Model.UnpackedFloat.compare]

/-- The positive integers are the natural numbers other than zero. -/
theorem isInteger_and_pos_iff {x : Float} :
    isInteger x = true ∧ 0.0 < x ↔ ∃ n, nat? x = some n ∧ n ≠ 0 := by
  cases hx : Binary64.ofFloat x with
  | infinite negative => simp [isInteger, nat?, hx]
  | notANumber => simp [isInteger, nat?, hx]
  | finite negative m e =>
    have hnumerator : (Binary64.scale e).1 ≠ 0 := (Nat.pow_pos (by decide)).ne'
    rw [zero_lt_iff_of_finite hx]
    simp only [isInteger, nat?, hx, beq_iff_eq, Bool.and_eq_true, Bool.or_eq_true,
      Bool.not_eq_true', Option.ite_none_right_eq_some, Option.some.injEq]
    constructor
    · rintro ⟨hdvd, hsign, hm⟩
      refine ⟨_, ⟨⟨hdvd, .inl hsign⟩, rfl⟩, Nat.mul_ne_zero (fun hquotient => hm ?_) hnumerator⟩
      rw [← Nat.div_mul_cancel (Nat.dvd_of_mod_eq_zero hdvd), hquotient, zero_mul]
    · rintro ⟨n, ⟨⟨hdvd, hsign⟩, rfl⟩, hn⟩
      have hm : m ≠ 0 := by
        rintro rfl
        simp at hn
      exact ⟨hdvd, hsign.resolve_right hm, hm⟩

end Decimal

/-! ### Validated values -/

namespace Validated

variable {α β : Type}

theorem map_eq_valid {f : α → β} {x : Validated α} {b : β} :
    f <$> x = .valid b ↔ ∃ a, x = .valid a ∧ f a = b := by
  constructor
  · intro h
    cases x with
    | valid a => exact ⟨a, rfl, valid.inj h⟩
    | invalid problems => cases h
  · rintro ⟨a, rfl, rfl⟩
    rfl

theorem seq_eq_valid {f : Validated (α → β)} {x : Validated α} {b : β} :
    f <*> x = .valid b ↔ ∃ g a, f = .valid g ∧ x = .valid a ∧ g a = b := by
  constructor
  · intro h
    cases f with
    | invalid problems => cases x <;> cases h
    | valid g =>
      cases x with
      | valid a => exact ⟨g, a, rfl, rfl, valid.inj h⟩
      | invalid problems => cases h
  · rintro ⟨g, a, rfl, rfl, rfl⟩
    rfl

theorem accept_eq_valid {path : List String} {complaints : List Complaint} {value a : α} :
    accept path complaints value = .valid a ↔ complaints = [] ∧ value = a := by
  cases complaints <;> simp [accept]

theorem forEach_eq_valid {f : α → Validated β} {l : List α} {bs : List β} :
    forEach f l = .valid bs ↔ List.Forall₂ (fun a b => f a = .valid b) l bs := by
  induction l generalizing bs with
  | nil => simp [forEach, eq_comm]
  | cons a rest ih =>
    change List.cons <$> f a <*> forEach f rest = .valid bs ↔ _
    simp only [seq_eq_valid, map_eq_valid, List.forall₂_cons_left_iff, ih]
    constructor
    · rintro ⟨_, bs, ⟨b, hb, rfl⟩, hbs, rfl⟩
      exact ⟨b, bs, hb, hbs, rfl⟩
    · rintro ⟨b, bs, hb, hbs, rfl⟩
      exact ⟨_, bs, ⟨b, hb, rfl⟩, hbs, rfl⟩

theorem toExcept_eq_ok {x : Validated α} {a : α} : x.toExcept = .ok a ↔ x = .valid a := by
  cases x <;> simp [toExcept]

end Validated

namespace Schema

open Validated

variable {α : Type} {path known : List String} {value : Json} {members : List (String × Json)}

/-! ### Readers -/

theorem boolean_eq_valid {b : Bool} : boolean path value = .valid b ↔ value = .bool b := by
  cases value <;> simp [boolean, reject]

theorem severity_eq_valid {s : Severity} :
    severity path value = .valid s ↔ value = .string s.name := by
  have hname : ∀ name, Severity.ofName? name = some s ↔ name = s.name := by
    intro name
    constructor
    · intro h
      simpa [eq_comm] using List.find?_some h
    · rintro rfl
      cases s <;> rfl
  cases value with
  | string name =>
    rw [severity, Json.string.injEq, ← hname]
    cases Severity.ofName? name <;> simp [reject]
  | _ => simp [severity, reject]

theorem number_eq_valid {complaints : Float → List Complaint} {x : Float} :
    number path complaints value = .valid x ↔ value = .number x ∧ complaints x = [] := by
  cases value with
  | number y =>
    rw [number, accept_eq_valid, Json.number.injEq]
    constructor
    · rintro ⟨hnone, rfl⟩
      exact ⟨rfl, hnone⟩
    · rintro ⟨rfl, hnone⟩
      exact ⟨hnone, rfl⟩
  | _ => simp [number, reject]

/-- Limits are the natural numbers other than zero. -/
theorem limit_eq_valid {n : ℕ} : limit path value = .valid n ↔
    n ≠ 0 ∧ ∃ x, value = .number x ∧ Decimal.nat? x = some n := by
  have hcomplaints : ∀ x : Float, (if Decimal.isInteger x then [] else [Complaint.notInteger]) ++
      (if 0.0 < x then [] else [.notPositive]) = [] ↔ ∃ n, Decimal.nat? x = some n ∧ n ≠ 0 := by
    intro x
    rw [← Decimal.isInteger_and_pos_iff]
    simp
  simp only [limit, map_eq_valid, number_eq_valid, hcomplaints]
  constructor
  · rintro ⟨x, ⟨hvalue, m, hm, hne⟩, rfl⟩
    simp only [hm, Option.getD_some]
    exact ⟨hne, x, hvalue, hm⟩
  · rintro ⟨hne, x, hvalue, hn⟩
    exact ⟨x, ⟨hvalue, n, hn, hne⟩, by rw [hn, Option.getD_some]⟩

theorem object_eq_valid {read : List (String × Json) → Validated α} {a : α} :
    object path known value read = .valid a ↔
      ∃ members, value = .object members ∧ read members = .valid a ∧
        ∀ m ∈ members, m.1 ∈ known := by
  have hknown : ∀ (members : List (String × Json)) (u : Unit),
      onlyKnown path members known = .valid u ↔ ∀ m ∈ members, m.1 ∈ known := by
    intro members u
    rw [onlyKnown, accept_eq_valid]
    simp only [List.isEmpty_iff, ite_eq_left_iff, List.filter_eq_nil_iff, List.mem_map]
    simp
  cases value with
  | object members =>
    rw [object, Schema.members]
    simp only [seq_eq_valid, map_eq_valid, hknown]
    constructor
    · rintro ⟨_, u, ⟨a, hread, rfl⟩, hmembers, rfl⟩
      exact ⟨members, rfl, hread, hmembers⟩
    · rintro ⟨_, ⟨⟩, hread, hmembers⟩
      exact ⟨_, (), ⟨a, hread, rfl⟩, hmembers, rfl⟩
  | _ => simp [object, Schema.members, reject]

theorem optional_eq_valid {name : String} {read : List String → Json → Validated α}
    {v : Option α} : optional path members name read = .valid v ↔
      Json.field? name (.object members) = none ∧ v = none ∨
        ∃ value a, Json.field? name (.object members) = some value ∧
          read (path ++ [name]) value = .valid a ∧ v = some a := by
  rw [optional, Json.field?]
  cases members.find? (·.1 = name) with
  | none => simp [eq_comm]
  | some m => simp [map_eq_valid, eq_comm]

theorem read_of_optional {name : String} {read : List String → Json → Validated α} {a : α}
    (h : optional path members name read = .valid (some a)) :
    ∃ value, read (path ++ [name]) value = .valid a := by
  rcases optional_eq_valid.1 h with ⟨-, hnone⟩ | ⟨value, a', -, hread, hsome⟩
  · cases hnone
  · exact ⟨value, Option.some.inj hsome ▸ hread⟩

/-- The value for a category is what the object has under the name of the category. -/
theorem perCategory_eq_valid {read : List String → Json → Validated α} {values : PerCategory α} :
    perCategory read path value = .valid values ↔
      ∃ members, value = .object members ∧
        (∀ category, optional path members category.id read = .valid (values.get category)) ∧
        ∀ m ∈ members, m.1 ∈ Category.all.map Category.id := by
  rw [perCategory, object_eq_valid]
  refine exists_congr fun members => and_congr_right fun _ => and_congr_left fun _ => ?_
  constructor
  · intro h
    simp only [seq_eq_valid, map_eq_valid] at h
    obtain ⟨_, bestPractices, ⟨_, maintainability, ⟨_, security, ⟨_, performance, ⟨_, errorHandling,
      ⟨structural, h₁, rfl⟩, h₂, rfl⟩, h₃, rfl⟩, h₄, rfl⟩, h₅, rfl⟩, h₆, rfl⟩ := h
    intro category
    cases category with
    | structural => exact h₁
    | errorHandling => exact h₂
    | performance => exact h₃
    | security => exact h₄
    | maintainability => exact h₅
    | bestPractices => exact h₆
  · intro h
    simp only [h]
    rfl

/-- The points for a severity are what the object has under the name of the severity. -/
theorem severityPoints_eq_valid {points : SeverityPoints} :
    severityPoints path members = .valid points ↔
      ∀ severity, optional path members severity.name Schema.points =
        .valid (points.get severity) := by
  constructor
  · intro h
    simp only [severityPoints, seq_eq_valid, map_eq_valid] at h
    obtain ⟨_, low, ⟨_, medium, ⟨_, high, ⟨critical, h₁, rfl⟩, h₂, rfl⟩, h₃, rfl⟩, h₄, rfl⟩ := h
    intro severity
    cases severity with
    | critical => exact h₁
    | high => exact h₂
    | medium => exact h₃
    | low => exact h₄
  · intro h
    simp only [severityPoints, h]
    rfl

/-- The points of single categories are members of the same object. -/
theorem deductions_eq_valid {o : DeductionOverrides} :
    deductions path value = .valid o ↔
      ∃ members, value = .object members ∧
        (severityPoints path members = .valid o.general ∧
          optional path members "categories" (perCategory categoryPoints) = .valid o.categories) ∧
        ∀ m ∈ members, m.1 ∈ Severity.all.map Severity.name ++ ["categories"] := by
  rw [deductions, object_eq_valid]
  refine exists_congr fun members => and_congr_right fun _ => and_congr_left fun _ => ?_
  constructor
  · intro h
    simp only [seq_eq_valid, map_eq_valid] at h
    obtain ⟨_, categories, ⟨general, h₁, rfl⟩, h₂, rfl⟩ := h
    exact ⟨h₁, h₂⟩
  · rintro ⟨h₁, h₂⟩
    simp only [h₁, h₂]
    rfl

/-- The limits are what the object has under their names. -/
theorem thresholds_eq_valid {o : ThresholdOverrides} :
    thresholds path value = .valid o ↔
      ∃ members, value = .object members ∧
        (optional path members "maxFunctionLength" limit = .valid o.maxFunctionLength ∧
          optional path members "warnFunctionLength" limit = .valid o.warnFunctionLength ∧
          optional path members "maxComplexity" limit = .valid o.maxComplexity ∧
          optional path members "maxNestingDepth" limit = .valid o.maxNestingDepth ∧
          optional path members "maxClassMethods" limit = .valid o.maxClassMethods ∧
          optional path members "maxLineLength" limit = .valid o.maxLineLength ∧
          optional path members "requireDocstrings" boolean = .valid o.requireDocstrings ∧
          optional path members "requireTypeHints" boolean = .valid o.requireTypeHints) ∧
        ∀ m ∈ members, m.1 ∈ thresholdNames := by
  rw [thresholds, object_eq_valid]
  refine exists_congr fun members => and_congr_right fun _ => and_congr_left fun _ => ?_
  constructor
  · intro h
    simp only [seq_eq_valid, map_eq_valid] at h
    obtain ⟨_, requireTypeHints, ⟨_, requireDocstrings, ⟨_, maxLineLength, ⟨_, maxClassMethods,
      ⟨_, maxNestingDepth, ⟨_, maxComplexity, ⟨_, warnFunctionLength, ⟨maxFunctionLength, h₁, rfl⟩,
      h₂, rfl⟩, h₃, rfl⟩, h₄, rfl⟩, h₅, rfl⟩, h₆, rfl⟩, h₇, rfl⟩, h₈, rfl⟩ := h
    exact ⟨h₁, h₂, h₃, h₄, h₅, h₆, h₇, h₈⟩
  · rintro ⟨h₁, h₂, h₃, h₄, h₅, h₆, h₇, h₈⟩
    simp only [h₁, h₂, h₃, h₄, h₅, h₆, h₇, h₈]
    rfl

theorem ruleOverride_eq_valid {o : RuleOverride} :
    ruleOverride path value = .valid o ↔
      ∃ members, value = .object members ∧
        (optional path members "enabled" boolean = .valid o.enabled ∧
          optional path members "severity" severity = .valid o.severity) ∧
        ∀ m ∈ members, m.1 ∈ ["enabled", "severity"] := by
  rw [ruleOverride, object_eq_valid]
  refine exists_congr fun members => and_congr_right fun _ => and_congr_left fun _ => ?_
  constructor
  · intro h
    simp only [seq_eq_valid, map_eq_valid] at h
    obtain ⟨_, severity, ⟨enabled, h₁, rfl⟩, h₂, rfl⟩ := h
    exact ⟨h₁, h₂⟩
  · rintro ⟨h₁, h₂⟩
    simp only [h₁, h₂]
    rfl

/-- Every member is read, and then the one that stands for no rule is left out. -/
theorem ruleOverrides_eq_valid {rules : List (String × RuleOverride)} :
    ruleOverrides path value = .valid rules ↔
      ∃ members overrides, value = .object members ∧
        List.Forall₂ (fun m o => m.1 = o.1 ∧ ruleOverride (path ++ [m.1]) m.2 = .valid o.2)
          members overrides ∧
        rules = overrides.filter (·.1 != "__proto__") := by
  have hmember : ∀ (m : String × Json) (o : String × RuleOverride),
      (m.1, ·) <$> ruleOverride (path ++ [m.1]) m.2 = .valid o ↔
        m.1 = o.1 ∧ ruleOverride (path ++ [m.1]) m.2 = .valid o.2 := by
    intro m o
    rw [map_eq_valid]
    constructor
    · rintro ⟨a, hread, rfl⟩
      exact ⟨rfl, hread⟩
    · rintro ⟨hname, hread⟩
      exact ⟨o.2, hread, by rw [hname]⟩
  cases value with
  | object members =>
    rw [ruleOverrides, Schema.members]
    simp only [map_eq_valid, forEach_eq_valid, hmember]
    constructor
    · rintro ⟨overrides, hread, rfl⟩
      exact ⟨members, overrides, rfl, hread, rfl⟩
    · rintro ⟨_, overrides, ⟨⟩, hread, rfl⟩
      exact ⟨overrides, hread, rfl⟩
  | _ => simp [ruleOverrides, Schema.members, reject]

/-- The parts of a configuration are what the object has under their names. -/
theorem configuration_eq_valid {c : Configuration} :
    configuration value = .valid c ↔
      ∃ members, value = .object members ∧
        (optional [] members "rules" ruleOverrides = .valid c.rules ∧
          optional [] members "thresholds" thresholds = .valid c.thresholds ∧
          optional [] members "weights" (perCategory weight) = .valid c.weights ∧
          optional [] members "deductions" deductions = .valid c.deductions) ∧
        ∀ m ∈ members, m.1 ∈ ["rules", "thresholds", "weights", "deductions"] := by
  rw [configuration, object_eq_valid]
  refine exists_congr fun members => and_congr_right fun _ => and_congr_left fun _ => ?_
  constructor
  · intro h
    simp only [seq_eq_valid, map_eq_valid] at h
    obtain ⟨_, deductions, ⟨_, weights, ⟨_, thresholds, ⟨rules, h₁, rfl⟩, h₂, rfl⟩, h₃, rfl⟩, h₄,
      rfl⟩ := h
    exact ⟨h₁, h₂, h₃, h₄⟩
  · rintro ⟨h₁, h₂, h₃, h₄⟩
    simp only [h₁, h₂, h₃, h₄]
    rfl

end Schema

end CodeGrade
