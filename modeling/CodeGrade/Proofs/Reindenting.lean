import CodeGrade.Proofs.Relabelling

/-!
# Indentation

How far statements are indented matters only for which of two is indented further. Two texts whose
statements differ in their indentations, but not in the order of them, are rejected for the same
fault, or have the same elements and the same statements in the same places. So it makes no
difference how many blanks a level has, or whether tabs are used.

## Main definitions

* `Reindented`: the statements are the same, with other indentations in the same order.
* `LogicalLine.unindented`: a logical line apart from its indentation.
-/

namespace CodeGrade

/-- The statements are the same, with other indentations in the same order. -/
structure Reindented (statements others : List Statement) : Prop where
  alike : List.Forall₂ (fun s t => s.code = t.code ∧ s.startLine = t.startLine ∧
    s.endLine = t.endLine) statements others
  order : ∀ p ∈ statements.zip others, ∀ q ∈ statements.zip others,
    (p.1.indent < q.1.indent ↔ p.2.indent < q.2.indent)

instance (statements others : List Statement) : Decidable (Reindented statements others) :=
  decidable_of_iff (_ ∧ _) ⟨fun h => ⟨h.1, h.2⟩, fun h => ⟨h.alike, h.order⟩⟩

/-- A logical line apart from its indentation. -/
def LogicalLine.unindented (line : LogicalLine) : LogicalLine := { line with indent := 0 }

/-! ### The relabelling between two lists of statements -/

/-- Other indentations, and all else as it was. -/
def Relabelling.ofIndent (indent : Nat → Nat) {levels : Set Nat}
    (strictMono : StrictMonoOn indent levels) : Relabelling :=
  ⟨id, indent, levels, strictMono, 0, 0⟩

section OfIndent

variable {indent : Nat → Nat} {levels : Set Nat} (h : StrictMonoOn indent levels)

theorem Fault.relabel_ofIndent (fault : Fault) : fault.relabel (.ofIndent indent h) = fault := rfl

theorem Element.relabel_ofIndent (e : Element) : e.relabel (.ofIndent indent h) = e := by
  simp [Element.relabel, Relabelling.ofIndent]

theorem LogicalLine.unindented_relabel (line : LogicalLine) :
    (line.relabel (.ofIndent indent h)).unindented = line.unindented := by
  simp [LogicalLine.unindented, LogicalLine.relabel, Relabelling.ofIndent]

end OfIndent

namespace Reindented

variable {statements others : List Statement} (h : Reindented statements others)

include h

/-- Equal indentations stay equal, so that each indentation has one that stands for it. -/
theorem exists_indent : ∃ indent : Nat → Nat, ∀ p ∈ statements.zip others,
    indent p.1.indent = p.2.indent := by
  have hfactor : Function.FactorsThrough
      (fun p : { p // p ∈ statements.zip others } => p.1.2.indent) (fun p => p.1.1.indent) := by
    -- If neither of two is indented further, neither of the others is.
    intro p q heq
    have hpq := h.order p.1 p.2 q.1 q.2
    have hqp := h.order q.1 q.2 p.1 p.2
    dsimp only at heq ⊢
    omega
  obtain ⟨indent, hindent⟩ := (Function.factorsThrough_iff _).1 hfactor
  exact ⟨indent, fun p hp => (congrFun hindent ⟨p, hp⟩).symm⟩

theorem exists_relabelling : ∃ (indent : Nat → Nat) (levels : Set Nat)
    (hindent : StrictMonoOn indent levels),
    (∀ statement ∈ statements, statement.indent ∈ levels) ∧
      others = statements.map (·.relabel (.ofIndent indent hindent)) := by
  obtain ⟨indent, hindent⟩ := h.exists_indent
  obtain ⟨hlength, halike⟩ := List.forall₂_iff_zip.1 h.alike
  have hmono : StrictMonoOn indent {i | ∃ p ∈ statements.zip others, p.1.indent = i} := by
    rintro _ ⟨p, hp, rfl⟩ _ ⟨q, hq, rfl⟩ hlt
    rw [hindent p hp, hindent q hq]
    exact (h.order p hp q hq).1 hlt
  refine ⟨indent, _, hmono, ?_, ?_⟩
  · intro statement hmem
    rw [← List.map_fst_zip hlength.le, List.mem_map] at hmem
    obtain ⟨p, hp, rfl⟩ := hmem
    exact ⟨p, hp, rfl⟩
  · have hrelabel : List.Forall₂ (fun s t => t = s.relabel (.ofIndent indent hmono))
        statements others := by
      refine List.forall₂_iff_zip.2 ⟨hlength, ?_⟩
      intro s t hp
      obtain ⟨hcode, hstart, hend⟩ := halike hp
      have ht := hindent (s, t) hp
      cases t
      simp_all [Statement.relabel, Relabelling.ofIndent]
    rw [← List.forall₂_eq_eq_eq, List.forall₂_map_right_iff]
    exact hrelabel.flip

end Reindented

/-! ### Units -/

/-- The outline of a text depends on indentations only through their order. -/
theorem outline_of_reindented {a b : SourceUnit} {masked masked' : List MaskedLine}
    (ha : mask a = .ok masked) (hb : mask b = .ok masked')
    (h : Reindented (joinLines masked) (joinLines masked')) :
    (∃ fault, Outline.ofUnit a = .error fault ∧ Outline.ofUnit b = .error fault) ∨
    ∃ first second, Outline.ofUnit a = .ok first ∧ Outline.ofUnit b = .ok second ∧
      second.elements = first.elements ∧
      second.lines.map (·.unindented) = first.lines.map (·.unindented) := by
  obtain ⟨indent, levels, hindent, hlevels, hothers⟩ := h.exists_relabelling
  cases hfirst : Outline.ofUnit a with
  | error fault =>
    left
    refine ⟨fault, rfl, ?_⟩
    rw [Outline.ofUnit_eq_error_of_mask ha] at hfirst
    rw [Outline.ofUnit_eq_error_of_mask hb, hothers, firstFault?_relabel hlevels, hfirst]
    rfl
  | ok first =>
    right
    obtain ⟨_, built, hmask, hbuilt, rfl⟩ := Outline.ofUnit_eq_ok.1 hfirst
    obtain rfl := Except.ok.inj (hmask.symm.trans ha)
    have hsteps := @Builder.steps_relabel (.ofIndent indent hindent) _ _ hbuilt ⟨rfl, rfl⟩ hlevels
    rw [← hothers] at hsteps
    refine ⟨_, _, rfl, Outline.ofUnit_eq_ok.2 ⟨_, _, hb, hsteps, rfl⟩, ?_, ?_⟩
    · simp [Builder.behind, Builder.empty, Element.relabel_ofIndent]
    · simp [Builder.behind, Builder.empty, Function.comp_def, LogicalLine.unindented_relabel]

/-- A method with a decorator, a docstring and a dedent to no earlier level, in blanks. -/
def indentedByBlanks : SourceUnit where
  name := "blanks"
  lines := ["class A:".toList, "  @cached".toList, "  def f(self,".toList, "  x):".toList,
    "       'doc'".toList, "     return x".toList]

/-- The same in tabs. -/
def indentedByTabs : SourceUnit where
  name := "tabs"
  lines := ["class A:".toList, "\t@cached".toList, "\tdef f(self,".toList, "\t\tx):".toList,
    "\t\t\t'doc'".toList, "\t\treturn x".toList]

theorem indentedByTabs_outline :
    ∃ masked masked' first second, mask indentedByBlanks = .ok masked ∧
      mask indentedByTabs = .ok masked' ∧ Reindented (joinLines masked) (joinLines masked') ∧
      Outline.ofUnit indentedByBlanks = .ok first ∧ Outline.ofUnit indentedByTabs = .ok second ∧
      first.lines.toList.map (·.indent) = [0, 2, 2, 7, 5] ∧
      second.elements = first.elements ∧
      second.lines.map (·.unindented) = first.lines.map (·.unindented) := by
  have hstatements : ((mask indentedByBlanks).bind fun masked =>
      (mask indentedByTabs).map fun masked' =>
        decide (Reindented (joinLines masked) (joinLines masked'))) = .ok true := by
    decide +kernel
  have hindents : (Outline.ofUnit indentedByBlanks).map (·.lines.toList.map (·.indent)) =
      .ok [0, 2, 2, 7, 5] := by decide +kernel
  obtain ⟨masked, hmask, hstatements⟩ := ok_bind_iff.1 hstatements
  obtain ⟨masked', hmask', hreindented⟩ := ok_map_iff.1 hstatements
  obtain ⟨first, hfirst, hindents⟩ := ok_map_iff.1 hindents
  have hreindented := of_decide_eq_true hreindented
  rcases outline_of_reindented hmask hmask' hreindented with
    ⟨fault, hfault, -⟩ | ⟨first', second, hfirst', hsecond, helements, hlines⟩
  · rw [hfirst] at hfault
    cases hfault
  · obtain rfl := Except.ok.inj (hfirst'.symm.trans hfirst)
    exact ⟨masked, masked', first', second, hmask, hmask', hreindented, hfirst', hsecond, hindents,
      helements, hlines⟩

end CodeGrade
