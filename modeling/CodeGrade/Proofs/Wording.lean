import CodeGrade.Proofs.Cutting
import CodeGrade.Proofs.MatchLines
import CodeGrade.Proofs.Numerals
import CodeGrade.Proofs.Renaming

/-!
# Messages on one line

Rules quote from the source: the names of elements and parameters, comments, whole lines. All of it
was read from the lines of a text, and what a statement has from several lines is joined with
blanks, so no quotation has a line end in it. Neither has the message of any built-in rule, or the
reason why a text is rejected.

## Main definitions

* `OneLine`: a text without line ends.
* `Context.Unbroken`: what rules quote from has no line ends.
* `Rule.Worded`: a rule whose messages have no line ends.
-/

namespace CodeGrade

/-! ### Texts on one line -/

/-- No character of the text ends a line. -/
def OneLine (text : String) : Prop := Unbroken text.toList

instance (text : String) : Decidable (OneLine text) := inferInstanceAs (Decidable (Unbroken _))

theorem oneLine_append {a b : String} : OneLine (a ++ b) ↔ OneLine a ∧ OneLine b := by
  rw [OneLine, String.toList_append, unbroken_append]
  rfl

theorem oneLine_ofList {text : List Char} : OneLine (String.ofList text) ↔ Unbroken text := by
  rw [OneLine, String.toList_ofList]

theorem oneLine_literal {text : String} {chars : List Char} (h : text = String.ofList chars)
    (hchars : (chars.all fun c => !isLineEnd c) = true) : OneLine text := by
  intro c hc
  exact Bool.not_eq_true' _ ▸ forall_mem_literal h hchars c hc

theorem oneLine_toString {text : String} : OneLine (toString text) ↔ OneLine text := Iff.rfl

theorem oneLine_nat (n : ℕ) : OneLine (toString n) := (numeral_nat n).unbroken

theorem oneLine_natText (n : ℕ) : OneLine (Decimal.natText n) := (Decimal.numeral_natText n).unbroken

theorem unbroken_of_all {p : Char → Bool} (hreturn : p '\r' = false) (hfeed : p '\n' = false)
    {text : List Char} (h : ∀ c ∈ text, p c = true) : Unbroken text := by
  intro c hc
  apply isLineEnd_eq_false.2
  constructor
  · rintro rfl
    exact Bool.false_ne_true (hreturn.symm.trans (h _ hc))
  · rintro rfl
    exact Bool.false_ne_true (hfeed.symm.trans (h _ hc))

theorem unbroken_takeWhile {p : Char → Bool} (hreturn : p '\r' = false) (hfeed : p '\n' = false)
    (text : List Char) : Unbroken (text.takeWhile p) :=
  unbroken_of_all hreturn hfeed fun _ hc => List.mem_takeWhile_imp hc

theorem Text.trim_subset (text : List Char) : trim text ⊆ text := by
  intro c hc
  rw [trim, trimEnd] at hc
  have hstart := List.mem_reverse.1 ((List.dropWhile_sublist _).subset (List.mem_reverse.1 hc))
  exact (List.dropWhile_sublist _).subset hstart

/-! ### Masked lines and statements -/

theorem subset_of_interpret {number : ℕ} {string : Option OpenString} {brackets : List OpenBracket}
    {ls : List Lexeme} {scanned : ScannedLine}
    (h : interpret number string brackets ls = .ok scanned) :
    scanned.code ⊆ ls.flatMap Lexeme.text ∧
      ∀ text ∈ scanned.comment, text ⊆ ls.flatMap Lexeme.text := by
  fun_induction interpret number string brackets ls generalizing scanned <;>
    grind [emit_eq_ok, Lexeme.text]

theorem subset_of_maskLine {number : ℕ} {carry carry' : Carry} {raw : List Char} {line : MaskedLine}
    (h : maskLine number carry raw = .ok (line, carry')) :
    line.code ⊆ raw ∧ ∀ text ∈ line.comment, text ⊆ raw := by
  obtain ⟨-, scanned, hscan, -, rfl, -⟩ := maskLine_eq_ok.1 h
  rw [scanLine_eq_interpret] at hscan
  have hsubset := subset_of_interpret hscan
  rwa [text_lexemes] at hsubset

theorem unbroken_of_maskFrom {number : ℕ} {carry : Carry} {lines : List (List Char)}
    {masked : List MaskedLine} (h : maskFrom number carry lines = .ok masked)
    (hlines : ∀ line ∈ lines, Unbroken line) :
    ∀ line ∈ masked, Unbroken line.code ∧ ∀ text ∈ line.comment, Unbroken text := by
  induction lines generalizing number carry masked with
  | nil =>
    rw [(maskFrom_nil_eq_ok.1 h).2]
    exact List.forall_mem_nil _
  | cons raw rest ih =>
    rw [List.forall_mem_cons] at hlines
    obtain ⟨line, carry', masked', hline, hrest, rfl⟩ := maskFrom_cons_eq_ok.1 h
    obtain ⟨hcode, hcomment⟩ := subset_of_maskLine hline
    rw [List.forall_mem_cons]
    exact ⟨⟨hlines.1.of_subset hcode, fun text htext => hlines.1.of_subset (hcomment text htext)⟩,
      ih hrest hlines.2⟩

theorem unbroken_extend {current : Option Statement} {line : MaskedLine} {statement : Statement}
    (h : Statement.extend current line = some statement)
    (hcurrent : ∀ s ∈ current, Unbroken s.code) (hline : Unbroken line.code) :
    Unbroken statement.code := by
  have htrim := hline.of_subset (Text.trim_subset line.code)
  have hblank : isLineEnd ' ' = false := by decide
  unfold Statement.extend at h
  grind [unbroken_append, unbroken_cons]

theorem unbroken_joinFrom {current : Option Statement} {lines : List MaskedLine}
    (hcurrent : ∀ s ∈ current, Unbroken s.code) (hlines : ∀ line ∈ lines, Unbroken line.code) :
    ∀ s ∈ joinFrom current lines, Unbroken s.code := by
  induction current, lines using joining_induction with
  | nil current => exact List.forall_mem_nil _
  | blank line rest hblank hextend ih =>
    rw [joinFrom, hextend]
    exact ih hcurrent (List.forall_mem_cons.1 hlines).2
  | continued current line statement rest hextend hcontinues ih =>
    rw [List.forall_mem_cons] at hlines
    have hstatement := unbroken_extend hextend hcurrent hlines.1
    simp only [joinFrom, hextend, hcontinues, if_true]
    exact ih (by simpa using hstatement) hlines.2
  | finished current line statement rest hextend hcontinues ih =>
    rw [List.forall_mem_cons] at hlines
    have hstatement := unbroken_extend hextend hcurrent hlines.1
    simp only [joinFrom, hextend, hcontinues, Bool.false_eq_true, if_false]
    exact List.forall_mem_cons.2 ⟨hstatement, ih (by simp) hlines.2⟩

/-! ### Parameters -/

theorem unbroken_splitArguments {depth : ℕ} {current text : List Char}
    {result : List (List Char) × List Char} (h : splitArguments depth current text = some result)
    (hcurrent : Unbroken current) (htext : Unbroken text) : ∀ piece ∈ result.1, Unbroken piece := by
  fun_induction splitArguments depth current text generalizing result with
  | case1 => cases h
  | case2 _ _ _ _ _ ih | case4 _ _ _ _ _ _ ih | case6 _ _ _ _ _ _ _ ih =>
    -- The character joins the piece that is being read.
    rw [unbroken_cons] at htext
    exact ih h (unbroken_cons.2 ⟨htext.1, hcurrent⟩) htext.2
  | case3 current =>
    rw [← Option.some.inj h]
    exact List.forall_mem_singleton.2 (hcurrent.of_subset (by simp))
  | case5 depth current c rest hopener hcloser hcomma ih =>
    obtain ⟨found, hfound, rfl⟩ := Option.map_eq_some_iff.1 h
    rw [unbroken_cons] at htext
    exact List.forall_mem_cons.2
      ⟨hcurrent.of_subset (by simp), ih hfound unbroken_nil htext.2⟩

theorem splitTopFrom_subset {target : Char} {depth : ℤ} {text : List Char}
    {parts : List Char × List Char} (h : splitTopFrom target depth text = some parts) :
    parts.1 ⊆ text := by
  induction text generalizing depth parts with
  | nil => cases h
  | cons c rest ih =>
    have hstep : ∀ {depth found}, splitTopFrom target depth rest = some found →
        c :: found.1 ⊆ c :: rest := fun hfound => List.cons_subset_cons c (ih hfound)
    rw [splitTopFrom] at h
    grind [Option.map_eq_some_iff]

/-- The text before the first `target` outside all brackets, or all of it. -/
def beforeTop (target : Char) (text : List Char) : List Char :=
  ((splitTop target text).map Prod.fst).getD text

theorem beforeTop_subset (target : Char) (text : List Char) : beforeTop target text ⊆ text := by
  rw [beforeTop]
  cases hparts : splitTop target text with
  | none => exact List.Subset.refl text
  | some parts => exact splitTopFrom_subset hparts

theorem Parameter.name_eq {piece : List Char} {p : Parameter} (h : Parameter.read? piece = some p) :
    p.name = Text.trim (dropStars (beforeTop ':' (beforeTop '=' (Text.trim piece)))) := by
  simp only [Parameter.read?] at h
  split at h
  · cases h
  · rw [← Option.some.inj h, beforeTop, beforeTop]
    cases splitTop '=' (Text.trim piece) with
    | none => cases hcolon : splitTop ':' (Text.trim piece) <;> simp [hcolon]
    | some parts => cases hcolon : splitTop ':' parts.1 <;> simp [hcolon]

theorem dropStars_subset (text : List Char) : dropStars text ⊆ text := by
  unfold dropStars
  split <;> simp

theorem Parameter.unbroken_name {piece : List Char} {p : Parameter}
    (h : Parameter.read? piece = some p) (hpiece : Unbroken piece) : Unbroken p.name := by
  have htext := hpiece.of_subset (Text.trim_subset piece)
  have hleft := (htext.of_subset (beforeTop_subset '=' _)).of_subset (beforeTop_subset ':' _)
  rw [Parameter.name_eq h]
  exact (hleft.of_subset (dropStars_subset _)).of_subset (Text.trim_subset _)

theorem Header.unbroken_params {header : Header} {code : List Char} {signature : Signature}
    (h : header.signature code = .ok signature) (hcode : Unbroken code) :
    ∀ p ∈ signature.params, Unbroken p.name := by
  unfold Header.signature at h
  split at h
  · rw [← Except.ok.inj h]
    exact List.forall_mem_nil _
  · split at h
    · cases h
    · rename_i name list hfunction
      split at h
      · cases h
      · rename_i pieces rest hpieces
        obtain ⟨start, gap, blanks, params, blanks', -, -, -, -, -, -, rfl⟩ :=
          functionHeader?_eq_some.1 hfunction
        have hlist := (unbroken_cons.1 (unbroken_append.1 hcode).2).2
        rw [← Except.ok.inj h]
        intro p hp
        obtain ⟨piece, hpiece, hread⟩ := List.mem_filterMap.1 hp
        exact Parameter.unbroken_name hread
          (unbroken_splitArguments hpieces unbroken_nil hlist piece hpiece)

/-! ### What rules quote from -/

/-- Nothing that rules quote from has a line end in it. -/
structure Context.Unbroken (c : Context) : Prop where
  lines : ∀ line ∈ c.unit.lines, CodeGrade.Unbroken line
  comments : ∀ comment ∈ c.outline.comments, CodeGrade.Unbroken comment.text
  names : ∀ e ∈ c.outline.elements.toList, CodeGrade.Unbroken e.name
  params : ∀ e ∈ c.outline.elements.toList, ∀ p ∈ e.params, CodeGrade.Unbroken p.name

theorem Context.unbroken_of_ofUnit {unit : SourceUnit} {outline : Outline}
    (hlines : ∀ line ∈ unit.lines, CodeGrade.Unbroken line)
    (houtline : Outline.ofUnit unit = .ok outline) (thresholds : Thresholds) :
    Context.Unbroken ⟨unit, outline, thresholds⟩ := by
  obtain ⟨masked, b, hmask, -, hfields⟩ := Outline.ofUnit_eq_ok.1 houtline
  have hmasked := unbroken_of_maskFrom hmask hlines
  have hcode : ∀ statement ∈ joinLines masked, CodeGrade.Unbroken statement.code :=
    unbroken_joinFrom (by simp) fun line hline => (hmasked line hline).1
  refine ⟨hlines, ?_, ?_, ?_⟩
  · intro comment hcomment
    rw [hfields] at hcomment
    obtain ⟨line, hline, hsome⟩ := List.mem_filterMap.1 hcomment
    obtain ⟨text, htext, rfl⟩ := Option.map_eq_some_iff.1 hsome
    exact (hmasked line hline).2 text htext
  · intro e he
    have hname := isName_of_mem_elements houtline (Array.mem_toList_iff.1 he)
    exact unbroken_of_all (p := Text.isWordChar) (by decide) (by decide)
      (List.all_eq_true.1 hname.all_isWordChar)
  · intro e he
    obtain ⟨statement, hstatement, header, hheader⟩ :=
      Outline.exists_header hmask houtline (Array.mem_toList_iff.1 he)
    exact Header.unbroken_params hheader (hcode statement hstatement)

/-! ### The messages of rules -/

/-- The messages of the rule have no line ends, if what it quotes from has none. -/
def Rule.Worded (rule : Rule) : Prop :=
  ∀ c : Context, c.Unbroken → ∀ matched, rule.check c = .ok matched → ∀ m ∈ matched, OneLine m.message

section Checks

variable {c : Context} {id title description : String} {category : Category} {severity : Severity}

theorem Rule.worded_ofCheck {check : Context → List Match}
    (h : ∀ c : Context, c.Unbroken → ∀ m ∈ check c, OneLine m.message) :
    (Rule.ofCheck id title category severity description check).Worded := by
  intro c hc matched hmatched
  rw [← Except.ok.inj hmatched]
  exact h c hc

theorem oneLine_filterMap {α : Type} {xs : List α} {f : α → Option Match}
    (h : ∀ x ∈ xs, ∀ m, f x = some m → OneLine m.message) :
    ∀ m ∈ xs.filterMap f, OneLine m.message := by
  intro m hm
  obtain ⟨x, hx, hsome⟩ := List.mem_filterMap.1 hm
  exact h x hx m hsome

/-- A rule that always says the same. -/
theorem oneLine_filterMap_const {α : Type} {xs : List α} {p : α → Prop} [DecidablePred p]
    {g : α → Match} {message : String} (hg : ∀ x, (g x).message = message)
    (hmessage : OneLine message) :
    ∀ m ∈ xs.filterMap fun x => if p x then some (g x) else none, OneLine m.message := by
  refine oneLine_filterMap fun x _ m hm => ?_
  obtain ⟨-, hm⟩ := Option.ite_none_right_eq_some.1 hm
  rw [← Option.some.inj hm, hg x]
  exact hmessage

theorem oneLine_filter_map {α : Type} {xs : List α} {p : α → Bool} {g : α → Match}
    (h : ∀ x ∈ xs, OneLine (g x).message) : ∀ m ∈ (xs.filter p).map g, OneLine m.message := by
  intro m hm
  obtain ⟨x, hx, rfl⟩ := List.mem_map.1 hm
  exact h x (List.mem_of_mem_filter hx)

theorem Context.Unbroken.name (h : c.Unbroken) {e : Element} (he : e ∈ c.outline.elements.toList) :
    OneLine (String.ofList e.name) :=
  oneLine_ofList.2 (h.names e he)

theorem Context.Unbroken.numbered (h : c.Unbroken) {e : Element} {i : ℕ}
    (he : (e, i) ∈ c.outline.elements.toList.zipIdx) : OneLine (String.ofList e.name) :=
  h.name (List.fst_mem_of_mem_zipIdx he)

theorem Context.Unbroken.function (h : c.Unbroken) {e : Element} {i : ℕ}
    (he : (e, i) ∈ c.outline.functions) : OneLine (String.ofList e.name) :=
  h.numbered (List.mem_of_mem_filter he)

theorem oneLine_ite {p : Prop} [Decidable p] {ms : List Match}
    (h : ∀ m ∈ ms, OneLine m.message) : ∀ m ∈ if p then ms else [], OneLine m.message := by
  intro m hm
  split at hm
  · exact h m hm
  · cases hm

end Checks

/-! ### Names that rules look for -/

theorem searchFrom?_eq_some {α : Type} {reader : Option Char → List Char → Option α}
    {before : Option Char} {text : List Char} {found : α}
    (h : Text.searchFrom? reader before text = some found) :
    ∃ before rest, reader before rest = some found := by
  fun_induction Text.searchFrom? reader before text with
  | case1 before => exact ⟨before, [], h⟩
  | case2 before c rest result hresult => exact ⟨before, c :: rest, hresult.trans h⟩
  | case3 before c rest hnone ih => exact ih h

/-- The name that a search for calls starts from. -/
def Callee.name : Callee → String
  | free name => name
  | dotted name => name
  | member owner => owner

theorem callAt?_eq_some {name : String} {text : List Char} {found : List Char × List Char}
    (h : callAt? name text = some found) : found.1 = name.toList := by
  obtain ⟨rest, -, h⟩ := Option.bind_eq_some_iff.1 h
  obtain ⟨rest', -, h⟩ := Option.bind_eq_some_iff.1 h
  rw [← Option.some.inj h]

theorem Callee.unbroken_read {callee : Callee} (hcallee : OneLine callee.name) {before : Option Char}
    {text : List Char} {found : List Char × List Char} (h : callee.read? before text = some found) :
    Unbroken found.1 := by
  cases callee with
  | free name | dotted name =>
    obtain ⟨-, h⟩ := Option.ite_none_right_eq_some.1 h
    rw [callAt?_eq_some h]
    exact hcallee
  | member owner =>
    obtain ⟨-, h⟩ := Option.ite_none_right_eq_some.1 h
    obtain ⟨rest, -, h⟩ := Option.bind_eq_some_iff.1 h
    have hword : Unbroken (Text.wordAt rest).1 := unbroken_takeWhile (by decide) (by decide) rest
    cases hname : (Text.wordAt rest).1.isEmpty with
    | true => simp [List.isEmpty_iff.1 hname] at h
    | false =>
      simp only [hname, Bool.false_eq_true, if_false] at h
      obtain ⟨more', -, h⟩ := Option.bind_eq_some_iff.1 h
      rw [← Option.some.inj h]
      exact unbroken_append.2 ⟨oneLine_append.2 ⟨hcallee, by decide⟩, hword⟩

theorem unbroken_findCall {callees : List Callee} (hcallees : ∀ callee ∈ callees, OneLine callee.name)
    {code : List Char} {found : List Char × List Char} (h : findCall? callees code = some found) :
    OneLine (String.ofList found.1) := by
  obtain ⟨before, rest, hread⟩ := searchFrom?_eq_some h
  obtain ⟨callee, hcallee, hread⟩ := List.exists_of_findSome?_eq_some hread
  exact oneLine_ofList.2 (callee.unbroken_read (hcallees callee hcallee) hread)

theorem oneLine_methodCall {method : String} {text owner : List Char}
    (h : methodCallAt? method text = some owner) : OneLine (String.ofList owner) := by
  unfold methodCallAt? at h
  obtain ⟨first, -, h⟩ := Option.bind_eq_some_iff.1 h
  obtain ⟨rest, -, h⟩ := Option.bind_eq_some_iff.1 h
  obtain ⟨-, h⟩ := Option.ite_none_right_eq_some.1 h
  have hname : Unbroken (text.takeWhile Text.isDottedChar) :=
    unbroken_takeWhile (by decide) (by decide) text
  rw [← Option.some.inj h, oneLine_ofList]
  exact hname.of_subset (List.take_subset _ _)

theorem oneLine_acquisition {code : List Char} {found : List Char × List Char}
    (h : acquisition? code = some found) :
    OneLine (String.ofList found.1) ∧ OneLine (String.ofList found.2) := by
  have hcallees : ∀ callee ∈ acquiringCalls, OneLine callee := by decide
  unfold acquisition? at h
  obtain ⟨first, -, h⟩ := Option.bind_eq_some_iff.1 h
  obtain ⟨-, h⟩ := Option.ite_none_right_eq_some.1 h
  obtain ⟨rest, -, h⟩ := Option.bind_eq_some_iff.1 h
  obtain ⟨call, hcall, h⟩ := Option.bind_eq_some_iff.1 h
  obtain ⟨callee, hcallee, hcall⟩ := List.exists_of_findSome?_eq_some hcall
  rw [← Option.some.inj h, oneLine_ofList, oneLine_ofList]
  refine ⟨unbroken_takeWhile (by decide) (by decide) code, ?_⟩
  rw [callAt?_eq_some hcall]
  exact hcallees callee hcallee

theorem oneLine_secretName {line name : List Char} (h : secretName? line = some name) :
    OneLine (String.ofList name) := by
  obtain ⟨before, rest, hread⟩ := searchFrom?_eq_some h
  obtain ⟨-, hread⟩ := Option.ite_none_right_eq_some.1 hread
  rw [← Option.some.inj hread, oneLine_ofList]
  exact unbroken_takeWhile (by decide) (by decide) rest

theorem oneLine_iterable {line : LogicalLine} {collection : List Char}
    (h : line.iterable? = some collection) : OneLine (String.ofList collection) := by
  unfold LogicalLine.iterable? at h
  obtain ⟨rest, -, h⟩ := Option.bind_eq_some_iff.1 h
  obtain ⟨text, -, h⟩ := Option.bind_eq_some_iff.1 h
  rw [← Option.some.inj h, oneLine_ofList, Text.dropBlanks]
  exact unbroken_of_all (by decide) (by decide) fun c hc => (List.mem_filter.1 hc).2

open Context Rule

theorem worded_sizeRules : ∀ rule ∈ sizeRules, rule.Worded := by
  simp only [sizeRules, List.forall_mem_cons]
  refine ⟨?_, ?_, ?_, ?_, ?_, List.forall_mem_nil _⟩
  all_goals
    refine worded_ofCheck fun c hc => oneLine_filterMap ?_
    rintro ⟨element, index⟩ hx m hm
    have hname : OneLine (String.ofList element.name) := by
      first
        | exact hc.function hx
        | exact hc.numbered hx
    obtain ⟨-, hm⟩ := Option.ite_none_right_eq_some.1 hm
    obtain rfl := Option.some.inj hm
    simp only [oneLine_append, oneLine_toString, hname, oneLine_nat, oneLine_natText, and_true]
    and_intros <;> exact oneLine_literal rfl rfl

theorem worded_duplicationRules : ∀ rule ∈ duplicationRules, rule.Worded := by
  simp only [duplicationRules, List.forall_mem_singleton]
  refine worded_ofCheck fun c hc m hm => ?_
  simp only [duplicateLines] at hm
  split at hm
  · cases hm
  · rename_i entry rest hrepeated
    rw [List.mem_singleton.1 hm]
    have hentry : entry ∈ repetitionsFrom 1 [] c.unit.lines :=
      List.mem_of_mem_filter (hrepeated ▸ List.mem_cons_self)
    have hbears := ((tabulates_repetitions c.unit.lines).first entry hentry).1
    obtain ⟨line, hline, htext⟩ := List.mem_map.1 hbears.mem
    have hshown : OneLine (String.ofList entry.text) := by
      rw [oneLine_ofList, ← htext]
      exact (hc.lines line hline).of_subset (Text.trim_subset line)
    simp only [oneLine_append, oneLine_toString, hshown, oneLine_nat, and_true, true_and]
    and_intros <;> exact oneLine_literal rfl rfl

theorem worded_bareExceptRule : bareExceptRule.Worded :=
  worded_ofCheck fun _ _ => oneLine_filterMap_const (fun _ => rfl) (oneLine_literal rfl rfl)

theorem worded_unguardedIoRule : unguardedIoRule.Worded := by
  refine worded_ofCheck fun c _ => oneLine_filterMap fun line _ m hm => ?_
  have hcallees : ∀ callee ∈ ioCallees, OneLine callee.name := by decide +kernel
  cases hcall : findCall? ioCallees line.code with
  | none => simp [hcall] at hm
  | some call =>
    have hname := unbroken_findCall hcallees hcall
    simp only [hcall, Option.ite_none_left_eq_some] at hm
    obtain rfl := Option.some.inj hm.2
    simp only [oneLine_append, oneLine_toString, hname, and_true]
    and_intros <;> exact oneLine_literal rfl rfl

theorem worded_missingCleanupRule : missingCleanupRule.Worded := by
  refine worded_ofCheck fun c _ => oneLine_filterMap fun line _ m hm => ?_
  simp only [leak?, Option.ite_none_left_eq_some] at hm
  replace hm := hm.2
  split at hm
  · rename_i name callee hfile
    obtain ⟨hname, hcallee⟩ := oneLine_acquisition (Option.filter_eq_some_iff.1 hfile).1
    obtain rfl := Option.some.inj hm
    simp only [unclosed, oneLine_append, oneLine_toString, hname, hcallee, and_true]
    and_intros <;> exact oneLine_literal rfl rfl
  · obtain ⟨lock, hlock, rfl⟩ := Option.map_eq_some_iff.1 hm
    obtain ⟨before, rest, hcall⟩ := searchFrom?_eq_some (Option.filter_eq_some_iff.1 hlock).1
    have hname := oneLine_methodCall hcall
    simp only [unreleased, oneLine_append, oneLine_toString, hname, and_true]
    and_intros <;> exact oneLine_literal rfl rfl

theorem worded_noHandlingRule : noHandlingRule.Worded := by
  refine worded_ofCheck fun c _ m hm => ?_
  simp only [noHandling] at hm
  split at hm
  · cases hm
  · rw [List.mem_singleton.1 hm]
    simp only [oneLine_append, oneLine_nat, and_true]
    and_intros <;> exact oneLine_literal rfl rfl

theorem worded_loopRules : ∀ rule ∈ loopRules, rule.Worded := by
  simp only [loopRules, List.forall_mem_cons]
  refine ⟨?_, ?_, List.forall_mem_nil _⟩
  · exact worded_ofCheck fun _ _ => oneLine_filterMap_const (fun _ => rfl) (oneLine_literal rfl rfl)
  · refine worded_ofCheck fun _ _ => oneLine_filterMap fun inner _ m hm => ?_
    obtain ⟨-, hm⟩ := Option.ite_none_right_eq_some.1 hm
    obtain ⟨collection, hcollection, hm⟩ := Option.bind_eq_some_iff.1 hm
    obtain ⟨outer, -, hm⟩ := Option.bind_eq_some_iff.1 hm
    have hshown := oneLine_iterable hcollection
    obtain rfl := Option.some.inj hm
    simp only [oneLine_append, oneLine_toString, hshown, oneLine_nat, and_true]
    and_intros <;> exact oneLine_literal rfl rfl

theorem worded_hardcodedSecretRule : hardcodedSecretRule.Worded := by
  refine worded_ofCheck fun _ _ => oneLine_filterMap ?_
  rintro ⟨raw, number⟩ _ m hm
  obtain ⟨-, hm⟩ := Option.ite_none_left_eq_some.1 hm
  obtain ⟨finding, hfinding, rfl⟩ := Option.map_eq_some_iff.1 hm
  have hshown : OneLine finding := by
    unfold secretFinding? at hfinding
    split at hfinding
    · rename_i name hname
      have hname := oneLine_secretName hname
      obtain rfl := Option.some.inj hfinding
      simp only [oneLine_append, oneLine_toString, hname, and_true]
      and_intros <;> exact oneLine_literal rfl rfl
    · split_ifs at hfinding <;> obtain rfl := Option.some.inj hfinding <;> exact oneLine_literal rfl rfl
  simp only [oneLine_append, oneLine_toString, hshown, and_true]
  exact oneLine_literal rfl rfl

theorem worded_injectionRules : ∀ rule ∈ injectionRules, rule.Worded := by
  have hcallees : ∀ callee ∈ executingCallees, OneLine callee.name := by decide
  simp only [injectionRules, List.forall_mem_cons]
  refine ⟨?_, ?_, ?_, List.forall_mem_nil _⟩
  · refine worded_ofCheck fun _ _ => oneLine_filterMap fun line _ m hm => ?_
    obtain ⟨call, hcall, rfl⟩ := Option.map_eq_some_iff.1 hm
    have hname := unbroken_findCall hcallees hcall
    simp only [oneLine_append, oneLine_toString, hname, and_true]
    and_intros <;> exact oneLine_literal rfl rfl
  · exact worded_ofCheck fun _ _ => oneLine_filterMap_const (fun _ => rfl) (oneLine_literal rfl rfl)
  · exact worded_ofCheck fun _ _ => oneLine_filterMap_const (fun _ => rfl) (oneLine_literal rfl rfl)

theorem oneLine_undocumented {sort advice : String} (hsort : OneLine sort) {e : Element}
    (hname : OneLine (String.ofList e.name)) : OneLine (undocumented sort advice e).message := by
  simp only [undocumented, oneLine_append, oneLine_toString, hsort, hname, and_true, true_and]
  and_intros <;> exact oneLine_literal rfl rfl

theorem worded_documentationRules : ∀ rule ∈ documentationRules, rule.Worded := by
  simp only [documentationRules, List.forall_mem_cons]
  refine ⟨?_, ?_, ?_, List.forall_mem_nil _⟩
  · exact worded_ofCheck fun _ hc => oneLine_ite (oneLine_filter_map fun e he =>
      oneLine_undocumented (oneLine_literal rfl rfl) (hc.name he))
  · exact worded_ofCheck fun _ hc => oneLine_ite (oneLine_filter_map fun e he =>
      oneLine_undocumented (oneLine_literal rfl rfl) (hc.name he))
  · refine worded_ofCheck fun _ hc => oneLine_ite (oneLine_filter_map fun e he => ?_)
    simp only [oneLine_append, oneLine_toString, hc.name he, and_true]
    and_intros <;> exact oneLine_literal rfl rfl

theorem worded_namingRule : namingRule.Worded := by
  refine worded_ofCheck fun _ hc => oneLine_filterMap fun e he m hm => ?_
  have hname := hc.name he
  cases hkind : e.kind with
  | function =>
    simp only [hkind, Option.ite_none_left_eq_some] at hm
    obtain rfl := Option.some.inj hm.2
    simp only [oneLine_append, oneLine_toString, hname, and_true]
    and_intros <;> exact oneLine_literal rfl rfl
  | classDef =>
    simp only [hkind, Option.ite_none_left_eq_some] at hm
    obtain rfl := Option.some.inj hm.2
    simp only [oneLine_append, oneLine_toString, hname, and_true]
    and_intros <;> exact oneLine_literal rfl rfl

theorem commentBody_subset (text : List Char) : commentBody text ⊆ text := by
  unfold commentBody
  split
  · exact List.Subset.trans (Text.trim_subset _) (List.subset_cons_self _ _)
  · exact Text.trim_subset _

theorem worded_todoRule : todoRule.Worded := by
  refine worded_ofCheck fun _ hc => oneLine_filter_map fun comment hcomment => ?_
  have hbody := oneLine_ofList.2 ((hc.comments comment hcomment).of_subset (commentBody_subset _))
  simp only [oneLine_append, oneLine_toString, hbody, and_true]
  exact oneLine_literal rfl rfl

theorem worded_practiceRules : ∀ rule ∈ practiceRules, rule.Worded := by
  have hprint : OneLine "Consider using logging instead of print()" := oneLine_literal rfl rfl
  have hwildcard : OneLine "Wildcard import hides where names come from" := oneLine_literal rfl rfl
  simp only [practiceRules, List.forall_mem_cons]
  refine ⟨?_, ?_, ?_, ?_, List.forall_mem_nil _⟩
  · exact worded_ofCheck fun _ _ => oneLine_filter_map fun _ _ => hprint
  · refine worded_ofCheck fun _ _ => oneLine_filterMap ?_
    rintro ⟨raw, number⟩ _ m hm
    obtain ⟨-, hm⟩ := Option.ite_none_right_eq_some.1 hm
    obtain rfl := Option.some.inj hm
    simp only [oneLine_append, oneLine_toString, oneLine_nat, oneLine_natText, and_true]
    and_intros <;> exact oneLine_literal rfl rfl
  · exact worded_ofCheck fun _ _ => oneLine_filter_map fun _ _ => hwildcard
  · refine worded_ofCheck fun c hc m hm => ?_
    obtain ⟨e, he, hm⟩ := List.mem_flatMap.1 hm
    obtain ⟨p, hp, rfl⟩ := List.mem_map.1 hm
    have hparameter := oneLine_ofList.2 (hc.params e he p (List.mem_of_mem_filter hp))
    simp only [oneLine_append, oneLine_toString, hparameter, hc.name he, and_true]
    and_intros <;> exact oneLine_literal rfl rfl

theorem worded_builtinRules : ∀ rule ∈ builtinRules, rule.Worded := by
  simp only [builtinRules, List.forall_mem_append, List.forall_mem_cons, List.not_mem_nil,
    IsEmpty.forall_iff, implies_true, and_true]
  exact ⟨⟨⟨⟨⟨⟨⟨⟨worded_sizeRules, worded_duplicationRules⟩, worded_bareExceptRule,
    worded_unguardedIoRule, worded_missingCleanupRule, worded_noHandlingRule⟩, worded_loopRules⟩,
    worded_hardcodedSecretRule⟩, worded_injectionRules⟩, worded_documentationRules⟩,
    worded_namingRule, worded_todoRule⟩, worded_practiceRules⟩

/-! ### Reasons for rejecting a text -/

/-- The only characters of the text that a reason names are brackets. -/
theorem oneLine_of_lexical {cause : Fault.Cause} (h : cause.Lexical) : OneLine cause.reason := by
  cases h with
  | undecodable | openString => exact oneLine_literal rfl rfl
  | unmatched b | neverClosed b => cases b <;> decide

theorem oneLine_of_read {statement : Statement} {fault : Fault}
    (h : Header.read statement = .error fault) : OneLine fault.reason := by
  have hcolon : ∀ keyword, OneLine (Fault.Cause.missingColon keyword).reason := by
    intro keyword
    cases keyword <;> decide +kernel
  unfold Header.read at h
  grind [Fault.reason]

theorem oneLine_of_signature {header : Header} {code : List Char} {cause : Fault.Cause}
    (h : header.signature code = .error cause) : OneLine cause.reason := by
  have hheader : OneLine Fault.Cause.malformedHeader.reason := oneLine_literal rfl rfl
  have hparameters : OneLine Fault.Cause.openParameters.reason := oneLine_literal rfl rfl
  unfold Header.signature at h
  grind

theorem oneLine_of_faultBefore {statement : Statement} {next : Option Statement} {fault : Fault}
    (h : statement.faultBefore? next = some fault) : OneLine fault.reason := by
  rcases Option.or_eq_some_iff.1 h with hown | ⟨-, hblock⟩
  · unfold Statement.fault? at hown
    split at hown
    · obtain ⟨header, -, hdefinition⟩ := Option.bind_eq_some_iff.1 hown
      split at hdefinition
      · cases hdefinition
      · rename_i cause hcause
        rw [← Option.some.inj hdefinition]
        exact oneLine_of_signature hcause
    · rename_i own hread
      rw [← Option.some.inj hown]
      exact oneLine_of_read hread
  · obtain ⟨-, hblock⟩ := Option.ite_none_right_eq_some.1 hblock
    rw [← Option.some.inj hblock]
    exact oneLine_literal rfl rfl

theorem oneLine_of_ofUnit_error {unit : SourceUnit} {fault : Fault}
    (h : Outline.ofUnit unit = .error fault) : OneLine fault.reason := by
  cases hmask : mask unit with
  | error own =>
    rw [Outline.ofUnit_eq_error.2 (.inl hmask)] at h
    obtain rfl := Except.error.inj h
    exact oneLine_of_lexical (lexical_of_maskFrom_error hmask)
  | ok masked =>
    rw [Outline.ofUnit_eq_error_of_mask hmask] at h
    obtain ⟨i, statement, -, hfault, -⟩ := firstFault?_eq_some.1 h
    exact oneLine_of_faultBefore hfault

/-- With the built-in rules, no message of a report has a line end. -/
theorem oneLine_message {config : Option Json} {catalog : Catalog}
    (hcatalog : Catalog.build config = .ok catalog) {unit : SourceUnit}
    (hlines : ∀ line ∈ unit.lines, Unbroken line) :
    ∀ issue ∈ (analyze unit catalog).issues, OneLine issue.message := by
  intro issue hissue
  cases houtline : Outline.ofUnit unit with
  | error fault =>
    obtain ⟨only, honly, -, -, -, -, hmessage⟩ := (degraded_of_error catalog houtline).issues
    rw [honly] at hissue
    rw [List.mem_singleton.1 hissue, hmessage]
    exact oneLine_append.2 ⟨oneLine_literal rfl rfl, oneLine_of_ofUnit_error houtline⟩
  | ok outline =>
    have hrules := Catalog.rule_mem_of_build hcatalog
    obtain ⟨entry, hentry, matched, hcheck, m, hm, rfl⟩ :=
      exists_match_of_issue hrules houtline issue hissue
    exact worded_builtinRules entry.rule (hrules entry hentry) _
      (Context.unbroken_of_ofUnit hlines houtline _) matched hcheck m hm

end CodeGrade
