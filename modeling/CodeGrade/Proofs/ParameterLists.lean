import CodeGrade.Proofs.Offences

/-!
# Parameter lists

The brackets of a statement are balanced, so the parameter list of a function ends wherever it
begins, and it ends before the colon of the header. No text is rejected for a list that does not
end, although reading a list may fail in that way.

## Main definitions

* `Fault.Cause.isLexical`: the causes that masking finds.
* `ParametersClose`: a parameter list ends before the colon of its header.
-/

namespace CodeGrade

/-! ### Faults of masking -/

/-- Whether the cause is one that masking finds. -/
def Fault.Cause.isLexical : Fault.Cause → Bool
  | undecodable | unmatched _ | openString | neverClosed _ => true
  | missingBlock | missingColon _ | malformedHeader | openParameters => false

theorem isLexical_of_maskFrom_error {number : Nat} {carry : Carry} {lines : List (List Char)}
    {fault : Fault} (h : maskFrom number carry lines = .error fault) :
    fault.cause.isLexical = true := by
  cases fault with
  | mk line cause => cases lexical_of_maskFrom_error h <;> rfl

/-! ### Lists that end -/

/-- The parameter list of a function's header, as it is read for the element, ends with a round
bracket that stands before the colon of the header. -/
def ParametersClose (statement : Statement) (header : Header) (element : Element) : Prop :=
  ∃ list pieces rest closing,
    functionHeader? statement.code = some (element.name, list) ∧
    splitArguments 0 [] list = some (pieces, rest) ∧
    element.params = pieces.filterMap Parameter.read? ∧
    statement.code.drop closing = ')' :: rest ∧
    headerColon? statement.code = some header.colon ∧ closing < header.colon

theorem parametersClose_of_function {statement : Statement} {header : Header} {place : Placement}
    {element : Element} (hcode : openBrackets [] statement.code = some [])
    (hread : Header.read statement = .ok (some header))
    (helement : Element.ofHeader statement header place = .ok element)
    (hkind : element.kind = .function) : ParametersClose statement header element := by
  rw [Element.ofHeader_eq, Header.signature] at helement
  generalize (if header.keyword = .classKw then className? statement.code else none) = class?
    at helement
  cases class? with
  | some name =>
    rw [← Except.ok.inj helement] at hkind
    cases hkind
  | none =>
    cases hfunction : functionHeader? statement.code with
    | none => simp [hfunction] at helement
    | some definition =>
      have hform := functionHeader?_eq_some.1 hfunction
      obtain ⟨pieces, front, rest, hsplit, hclosing, hcolon⟩ := hform.exists_closing hcode
      simp only [hfunction, hsplit] at helement
      rw [← Except.ok.inj helement]
      obtain ⟨-, hheader, -⟩ := Header.read_eq_some.1 hread
      refine ⟨definition.2, pieces, rest, front.length, hfunction, hsplit, rfl, ?_,
        headerColon?_eq_some.2 hheader, hcolon _ hheader.1⟩
      rw [hclosing, List.drop_left]

/-- The brackets of each statement are properly nested, so reading parameters cannot fail: no unit
is rejected for a parameter list that does not end, and the list of each function that is built ends
before the colon of its header. -/
theorem statements_balanced (unit : SourceUnit) :
    (∀ fault, Outline.ofUnit unit = .error fault → fault.cause ≠ .openParameters) ∧
    ∀ masked, mask unit = .ok masked → ∀ statement ∈ joinLines masked,
      ProperlyNested (statement.code.filter isBracket) ∧
      ∀ header place element, Header.read statement = .ok (some header) →
        Element.ofHeader statement header place = .ok element → element.kind = .function →
        ParametersClose statement header element := by
  constructor
  · intro fault hfault hcause
    cases hmask : mask unit with
    | error own =>
      rw [Outline.ofUnit_eq_error.2 (.inl hmask)] at hfault
      obtain rfl := Except.error.inj hfault
      have hlexical := isLexical_of_maskFrom_error hmask
      rw [hcause] at hlexical
      cases hlexical
    | ok masked =>
      rw [Outline.ofUnit_eq_error_of_mask hmask,
        firstFault?_iff_firstOffence (openBrackets_joinLines hmask)] at hfault
      obtain ⟨i, ⟨statement, -, hblamed, -⟩, -⟩ := hfault
      -- No statement is blamed with this cause.
      rw [hcause] at hblamed
      cases hblamed
  · intro masked hmask statement hstatement
    have hcode := openBrackets_joinLines hmask statement hstatement
    refine ⟨properlyNested_iff.2 hcode, ?_⟩
    intro header place element hread helement hkind
    exact parametersClose_of_function hcode hread helement hkind

/-- A header over two lines whose first list in round brackets stands inside its type parameters. -/
def innerList : SourceUnit where
  name := "inner"
  lines := ["def f[K, g[K](a,".toList, "  b=(1, 2))](c):".toList, "    return a".toList]

theorem innerList_closes :
    ∃ masked statement header element, mask innerList = .ok masked ∧
      statement ∈ joinLines masked ∧ Header.read statement = .ok (some header) ∧
      Element.ofHeader statement header ⟨0, none, false, []⟩ = .ok element ∧
      element.kind = .function ∧ element.params.map (·.name) = [['a'], ['b']] ∧
      ProperlyNested (statement.code.filter isBracket) ∧
      ParametersClose statement header element := by
  have hbuilt : ((mask innerList).map fun masked =>
      (joinLines masked).head?.bind fun statement =>
        (Header.read statement).toOption.join.bind fun header =>
          (Element.ofHeader statement header ⟨0, none, false, []⟩).toOption.map fun element =>
            (element.kind, element.params.map (·.name))) =
      .ok (some (.function, [['a'], ['b']])) := by decide +kernel
  obtain ⟨masked, hmask, hbuilt⟩ := ok_map_iff.1 hbuilt
  obtain ⟨statement, hfirst, hbuilt⟩ := Option.bind_eq_some_iff.1 hbuilt
  obtain ⟨header, hheader, hbuilt⟩ := Option.bind_eq_some_iff.1 hbuilt
  obtain ⟨element, helement, hbuilt⟩ := Option.map_eq_some_iff.1 hbuilt
  obtain ⟨hkind, hparams⟩ := Prod.mk.inj hbuilt
  have hstatement := List.mem_of_head? hfirst
  have hread := toOption_eq_some.1 (Option.join_eq_some_iff.1 hheader)
  have helement := toOption_eq_some.1 helement
  obtain ⟨hnested, hclose⟩ := (statements_balanced innerList).2 masked hmask statement hstatement
  exact ⟨masked, statement, header, element, hmask, hstatement, hread, helement, hkind, hparams,
    hnested, hclose header _ element hread helement hkind⟩

end CodeGrade
