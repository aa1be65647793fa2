import CodeGrade.Proofs.Lexeme

/-!
# Masked lines

What a successful masking says about the lines it was given: one masked line for each of them,
numbered in order, and what is open between them.

## Main definitions

* `Carry.Quoted`: the open literal is written in quotation marks.
-/

namespace CodeGrade

theorem ok_bind_iff {ε α β : Type} {first : Except ε α} {next : α → Except ε β} {result : β} :
    first >>= next = .ok result ↔ ∃ value, first = .ok value ∧ next value = .ok result := by
  constructor
  · intro h
    cases first with
    | error e => cases h
    | ok value => exact ⟨value, rfl, h⟩
  · rintro ⟨value, rfl, h⟩
    exact h

theorem ok_map_iff {ε α β : Type} {first : Except ε α} {f : α → β} {result : β} :
    first.map f = .ok result ↔ ∃ value, first = .ok value ∧ f value = result := by
  cases first <;> simp [Except.map]

theorem toOption_eq_some {ε α : Type} {result : Except ε α} {value : α} :
    result.toOption = some value ↔ result = .ok value := by
  cases result <;> simp [Except.toOption]

/-- The masked line that a scan of line `number` gives. -/
def ScannedLine.masked (number : Nat) (raw : List Char) (scanned : ScannedLine) : MaskedLine where
  number
  raw
  code := scanned.code
  comment := scanned.comment
  continues :=
    scanned.carry.string.isSome || !scanned.carry.brackets.isEmpty || scanned.joined

/-- Whether the literal open after a scan may stay open: it is in three marks, or the line's end is
escaped. -/
def ScannedLine.MayEnd (scanned : ScannedLine) : Prop :=
  ∀ literal ∈ scanned.carry.string, literal.delimiter.triple = true ∨ scanned.escaped = true

theorem maskLine_eq_ok {number : Nat} {carry carry' : Carry} {raw : List Char} {line : MaskedLine} :
    maskLine number carry raw = .ok (line, carry') ↔
      raw.any isUndecodable = false ∧
        ∃ scanned, scanLine number carry.string carry.brackets raw = .ok scanned ∧
          scanned.MayEnd ∧ line = scanned.masked number raw ∧ carry' = scanned.carry := by
  unfold maskLine
  cases hraw : raw.any isUndecodable with
  | true => simp
  | false =>
    simp only [Bool.false_eq_true, ↓reduceIte, ok_bind_iff, true_and]
    refine exists_congr fun scanned => and_congr_right fun _ => ?_
    cases hstring : scanned.carry.string with
    | none =>
      simp only [ScannedLine.MayEnd, ScannedLine.masked, hstring]
      grind
    | some literal =>
      simp only [ScannedLine.MayEnd, ScannedLine.masked, hstring]
      grind

theorem maskFrom_cons_eq_ok {number : Nat} {carry : Carry} {raw : List Char}
    {rest : List (List Char)} {masked : List MaskedLine} :
    maskFrom number carry (raw :: rest) = .ok masked ↔
      ∃ line carry' lines, maskLine number carry raw = .ok (line, carry') ∧
        maskFrom (number + 1) carry' rest = .ok lines ∧ masked = line :: lines := by
  rw [maskFrom]
  simp only [ok_bind_iff, Prod.exists]
  simp [eq_comm]

theorem Carry.fault?_eq_none {carry : Carry} :
    carry.fault? = none ↔ carry.string = none ∧ carry.brackets = [] := by
  unfold Carry.fault?
  cases carry.string <;> simp

theorem maskFrom_nil_eq_ok {number : Nat} {carry : Carry} {masked : List MaskedLine} :
    maskFrom number carry [] = .ok masked ↔ carry.fault? = none ∧ masked = [] := by
  rw [maskFrom]
  cases carry.fault? <;> simp [eq_comm]

/-- There is one masked line for each line, in order. -/
theorem raw_maskFrom {number : Nat} {carry : Carry} {lines : List (List Char)}
    {masked : List MaskedLine} (h : maskFrom number carry lines = .ok masked) :
    masked.map (·.raw) = lines := by
  induction lines generalizing number carry masked with
  | nil => simp [(maskFrom_nil_eq_ok.1 h).2]
  | cons raw rest ih =>
    obtain ⟨line, carry', lines, hline, hrest, rfl⟩ := maskFrom_cons_eq_ok.1 h
    obtain ⟨-, scanned, -, -, rfl, -⟩ := maskLine_eq_ok.1 hline
    simp [ScannedLine.masked, ih hrest]

/-- Masked lines are numbered in order. -/
theorem number_maskFrom {number : Nat} {carry : Carry} {lines : List (List Char)}
    {masked : List MaskedLine} (h : maskFrom number carry lines = .ok masked) :
    masked.map (·.number) = List.range' number lines.length := by
  induction lines generalizing number carry masked with
  | nil => simp [(maskFrom_nil_eq_ok.1 h).2]
  | cons raw rest ih =>
    obtain ⟨line, carry', lines, hline, hrest, rfl⟩ := maskFrom_cons_eq_ok.1 h
    obtain ⟨-, scanned, -, -, rfl, -⟩ := maskLine_eq_ok.1 hline
    simp [ScannedLine.masked, ih hrest, List.range'_succ]

/-- The literal that is open, if any, is written in quotation marks. -/
def Carry.Quoted (carry : Carry) : Prop :=
  ∀ literal ∈ carry.string, isQuote literal.delimiter.mark = true

theorem Carry.quoted_empty : Carry.empty.Quoted := by simp [Carry.Quoted, Carry.empty]

theorem Carry.Quoted.delimiter {carry : Carry} (h : carry.Quoted) :
    ∀ d ∈ carry.string.map (·.delimiter), isQuote d.mark = true := by
  intro d hd
  obtain ⟨literal, hl, rfl⟩ := Option.mem_map.1 hd
  exact h literal hl

/-- A scan keeps the open literal in quotation marks. -/
theorem Carry.Quoted.scan {number : Nat} {carry : Carry} {raw : List Char} {scanned : ScannedLine}
    (hq : carry.Quoted) (hscan : scanLine number carry.string carry.brackets raw = .ok scanned) :
    scanned.carry.Quoted := by
  rw [scanLine_eq_interpret] at hscan
  intro literal hl
  rcases interpret_string hscan hl with hl | ⟨hopen, -⟩
  · exact hq literal hl
  · exact isQuote_of_opening_mem hopen

/-- Masking a line keeps the open literal in quotation marks. -/
theorem Carry.Quoted.maskLine {number : Nat} {carry carry' : Carry} {raw : List Char}
    {line : MaskedLine} (h : carry.Quoted)
    (hline : CodeGrade.maskLine number carry raw = .ok (line, carry')) : carry'.Quoted := by
  obtain ⟨-, scanned, hscan, -, -, rfl⟩ := maskLine_eq_ok.1 hline
  exact h.scan hscan

end CodeGrade
