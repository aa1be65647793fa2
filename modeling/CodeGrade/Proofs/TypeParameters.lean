import CodeGrade.Proofs.Cutting
import CodeGrade.Proofs.Nesting
import CodeGrade.Proofs.Splicing

/-!
# Type parameters

The header of a function is given type parameters in square brackets, before its parameter list.
The list of type parameters is taken to end at the first square bracket that closes. If it holds no
such bracket itself, the function is read as before, and so is everything else; if it does, what
follows that bracket is taken for the parameter list, and the text is rejected if it is none.

## Main definitions

* `DefinitionLine`: a line on which the definition of a function starts, up to its name.
* `TypeParameters`: the text between the square brackets.
* `DefinitionLine.unit`: a text with the definition in it.
-/

namespace CodeGrade

open Text (IsGap IsName allBlank endsWord)

/-- A line on which the definition of a function starts, up to the name of the function. -/
structure DefinitionLine where
  indent : List Char
  async : List Char
  gap : List Char
  name : List Char
  indent_blank : allBlank indent = true
  isAsync : IsAsync async
  isGap : IsGap gap
  isName : IsName name

/-- Plain text with properly nested brackets. -/
structure TypeParameters where
  text : List Char
  plain : text.all isPlain = true
  decodable : text.any isUndecodable = false
  nested : ProperlyNested (text.filter isBracket)

/-- The type parameters in their square brackets. -/
def TypeParameters.list (params : TypeParameters) : List Char := '[' :: (params.text ++ [']'])

namespace DefinitionLine

variable (d : DefinitionLine)

/-- The code of the line, up to the name. -/
def code : List Char := d.async ++ "def".toList ++ d.gap ++ d.name

/-- The keyword of the definition. -/
def keyword : Keyword := if d.async = [] then .defKw else .asyncDefKw

theorem opens (rest : List Char) : d.keyword.Opens (d.code ++ rest) := by
  have hends : endsWord (d.gap ++ (d.name ++ rest)) = true := d.isGap.endsWord _
  rcases d.isAsync with hasync | ⟨gap, hgap, hasync⟩
  · have hopens : Keyword.defKw.Opens ("def".toList ++ (d.gap ++ (d.name ++ rest))) :=
      .word (by decide) hends
    simpa [keyword, code, hasync] using hopens
  · have hopens : Keyword.asyncDefKw.Opens
        ("async".toList ++ gap ++ "def".toList ++ (d.gap ++ (d.name ++ rest))) :=
      .async rfl hgap hends
    simpa [keyword, code, hasync] using hopens

theorem keyword_ne_class : d.keyword ≠ .classKw := by
  unfold keyword
  split <;> decide

theorem isDefinition_keyword : d.keyword.isDefinition = true := by
  unfold keyword
  split <;> rfl

/-- What follows the name decides whether the code is the header of a function. -/
theorem functionHeader?_append {rest : List Char} (hrest : endsWord rest = true) :
    functionHeader? (d.code ++ rest) =
      (afterTypeParameters? (Text.trimStart rest)).bind fun rest =>
        (Text.after? ['('] rest).bind fun list => some (d.name, list) := by
  have hdef : afterAsync? (d.code ++ rest) = some ("def".toList ++ (d.gap ++ (d.name ++ rest))) :=
    afterAsync?_eq_some.2 ⟨d.async, d.isAsync, by simp [code]⟩
  have hgap : afterBlanks? (d.gap ++ (d.name ++ rest)) = some (d.name ++ rest) :=
    afterBlanks?_eq_some.2 ⟨d.gap, d.isGap, rfl, d.isName.head?_all rest⟩
  have hname : Text.nameAt? (d.name ++ rest) = some (d.name, rest) :=
    Text.nameAt?_eq_some.2 ⟨d.isName, rfl, hrest⟩
  have hafter : Text.after? "def".toList ("def".toList ++ (d.gap ++ (d.name ++ rest))) = some _ :=
    Text.after?_eq_some.2 rfl
  rw [functionHeader?_eq, hdef, Option.bind_some, Text.afterString?, hafter, Option.bind_some, hgap,
    Option.bind_some, hname, Option.bind_some]

theorem isWordChar_or_isBlank : ∀ c ∈ d.code, Text.isWordChar c = true ∨ Text.isBlank c = true :=
  fun c hc => @isWordChar_or_isBlank_of_mem _ _ _ [] d.isAsync d.isGap d.isName rfl c
    (by simpa [code] using hc)

theorem isSealed_code : Sealed [':'] d.code := by
  have hcolon : ¬ (Text.isWordChar ':' = true ∨ Text.isBlank ':' = true) := by decide
  refine .of_plain (fun c hc => ?_) fun c hc hmark => ?_
  · rcases d.isWordChar_or_isBlank c hc with hword | hblank
    · exact not_isBracket_of_isWordChar hword
    · exact not_isBracket_of_isBlank hblank
  · obtain rfl := List.mem_singleton.1 hmark
    exact hcolon (d.isWordChar_or_isBlank ':' hc)

end DefinitionLine

/-! ### The colon -/

/-- A text whose colons stand inside brackets is passed over. -/
theorem headerColonFrom_append {text : List Char} (depth : Int) (index : Nat)
    (hcolon : ∀ i, text[i]? = some ':' → depth + bracketDepth (text.take i) ≠ 0)
    (rest : List Char) :
    headerColonFrom depth index (text ++ rest) =
      headerColonFrom (depth + bracketDepth text) (index + text.length) rest := by
  induction text generalizing depth index with
  | nil => simp
  | cons c text ih =>
    have htake (i : Nat) : depth + bracketDepth ((c :: text).take (i + 1)) =
        depth + bracketDepth [c] + bracketDepth (text.take i) := by
      rw [List.take_succ_cons, bracketDepth_cons, add_assoc]
    rcases headerColonFrom_cons depth index c (text ++ rest) with ⟨htop, -⟩ | ⟨-, hfound⟩
    · exact absurd htop.2.2 (hcolon 0 (by simpa using htop.1))
    · rw [List.cons_append, hfound, ih, bracketDepth_cons c text, add_assoc, List.length_cons]
      · congr 1
        omega
      · exact fun i hi => htake i ▸ hcolon (i + 1) (by simpa using hi)

theorem Sealed.headerColon?_append {text : List Char} (h : Sealed [':'] text) (rest : List Char) :
    headerColon? (text ++ rest) = (headerColon? rest).map (· + text.length) := by
  have hcolon (i : Nat) (hi : text[i]? = some ':') : 0 + bracketDepth (text.take i) ≠ 0 := by
    have := h.depth_pos (by simp) hi
    omega
  rw [headerColon?, headerColonFrom_append 0 0 hcolon, h.closed, add_zero, headerColonFrom_add]
  rfl

theorem bracketDepth_of_openBrackets {text : List Char} {stack : List Bracket}
    (h : openBrackets [] text = some stack) : bracketDepth text = stack.length := by
  have hlength := length_openBrackets h
  simp only [List.length_nil, Nat.zero_add] at hlength
  rw [bracketDepth]
  omega

namespace TypeParameters

variable (params : TypeParameters)

theorem openBrackets_text : openBrackets [] params.text = some [] :=
  properlyNested_iff.1 params.nested

theorem bracketDepth_take_nonneg (i : Nat) : 0 ≤ bracketDepth (params.text.take i) := by
  have hread := params.openBrackets_text
  rw [← List.take_append_drop i params.text, openBrackets_append, Option.bind_eq_some_iff] at hread
  obtain ⟨stack, hstack, -⟩ := hread
  rw [bracketDepth_of_openBrackets hstack]
  omega

theorem bracketDepth_list : bracketDepth params.list = 0 := by
  have htext := bracketDepth_of_openBrackets params.openBrackets_text
  rw [list, bracketDepth_cons, bracketDepth_append, htext]
  rfl

/-- Everything inside the square brackets is inside brackets. -/
theorem bracketDepth_take_pos {i : Nat} (hi : i < params.text.length + 1) :
    0 < bracketDepth (params.list.take (i + 1)) := by
  have hnonneg := params.bracketDepth_take_nonneg i
  have hopener : bracketDepth ['['] = 1 := rfl
  rw [list, List.take_succ_cons, List.take_append_of_le_length (by omega), bracketDepth_cons,
    hopener]
  omega

theorem isSealed_list : Sealed [':'] params.list := by
  have hlength : params.list.length = params.text.length + 2 := by simp [list]
  refine .intro params.bracketDepth_list ?_ ?_
  · rintro (_ | i) hi
    · simp
    · exact (params.bracketDepth_take_pos (by omega)).le
  · rintro mark hmark (_ | i) hi hget
    · obtain rfl := List.mem_singleton.1 hmark
      simp [list] at hget
    · exact params.bracketDepth_take_pos (by omega)

end TypeParameters

/-! ### The header -/

/-- The part of a line that is read as type parameters ends at the first square bracket that
closes. -/
theorem afterTypeParameters?_list {body rest : List Char} (hbody : ']' ∉ body) :
    afterTypeParameters? (Text.trimStart ('[' :: (body ++ ']' :: rest))) =
      some (Text.trimStart rest) := by
  have hbracket : Text.trimStart ('[' :: (body ++ ']' :: rest)) = '[' :: (body ++ ']' :: rest) :=
    rfl
  have hdrop := dropWhile_bracket_eq_cons.2 ⟨body, hbody, rfl, (rfl : body ++ ']' :: rest = _)⟩
  rw [hbracket, afterTypeParameters?]
  simp only [hdrop]

theorem length_of_splitArguments {depth : Nat} {current text rest : List Char}
    {pieces : List (List Char)} (h : splitArguments depth current text = some (pieces, rest)) :
    rest.length < text.length := by
  fun_induction splitArguments depth current text generalizing pieces <;>
    grind [Option.map_eq_some_iff]

/-- A list is read to its closing bracket, whatever follows. -/
theorem splitArguments_of_append {depth : Nat} {current text rest : List Char}
    {pieces : List (List Char)} (h : splitArguments depth current text = some (pieces, rest))
    (more : List Char) :
    splitArguments depth current (text ++ more) = some (pieces, rest ++ more) := by
  fun_induction splitArguments depth current text generalizing pieces with
  | case1 => cases h
  | case5 depth current c text hopener hcloser hcomma ih =>
    obtain ⟨⟨pieces, rest⟩, hsplit, heq⟩ := Option.map_eq_some_iff.1 h
    obtain ⟨rfl, rfl⟩ := Prod.mk.inj heq
    obtain ⟨rfl, rfl⟩ := hcomma
    simp [splitArguments, hopener, hcloser, ih hsplit]
  | _ => simp_all [splitArguments]

/-- A list in round brackets among the type parameters has an end there. -/
theorem TypeParameters.splitArguments_inner (params : TypeParameters)
    {front after inner : List Char} (htext : params.text = front ++ after) (hafter : Text.trimStart after = '(' :: inner) :
    ∃ pieces rest, splitArguments 0 [] inner = some (pieces, rest) := by
  obtain ⟨blanks, -, hblanks⟩ := Text.exists_trimStart after
  have hread := params.openBrackets_text
  rw [htext, hblanks, hafter, ← List.append_assoc, openBrackets_append,
    Option.bind_eq_some_iff] at hread
  obtain ⟨outer, -, hinner⟩ := hread
  rw [show '(' = Bracket.round.opener from rfl, openBrackets_opener] at hinner
  obtain ⟨pieces, -, rest, hsplit, -⟩ := @splitArguments_of_closed .round [] outer inner hinner []
  exact ⟨pieces, rest, hsplit⟩

/-- The signature of a function is that of its name and of its list of parameters. -/
theorem Header.signature_function {header : Header} {code name list : List Char}
    {signature : Signature} (hkeyword : header.keyword ≠ .classKw)
    (hfunction : functionHeader? code = some (name, list))
    (h : header.signature code = .ok signature) :
    ∃ pieces rest, splitArguments 0 [] list = some (pieces, rest) ∧ signature.name = name ∧
      signature.kind = .function ∧ signature.params = pieces.filterMap Parameter.read? := by
  simp only [Header.signature, hkeyword, ↓reduceIte, hfunction] at h
  cases hsplit : splitArguments 0 [] list with
  | none => simp [hsplit] at h
  | some parts =>
    rw [hsplit] at h
    obtain rfl := Except.ok.inj h
    exact ⟨parts.1, parts.2, rfl, rfl, rfl, rfl⟩

namespace DefinitionLine

variable {d : DefinitionLine} {params : TypeParameters} {statement statement' : Statement}
  {rest list : List Char}

/-- The header of the definition ends at the first colon outside all brackets after its name. -/
theorem read_eq (hcode : statement.code = d.code ++ rest) :
    Header.read statement =
      match headerColon? rest with
      | some i => .ok (some ⟨d.keyword, i + d.code.length, Text.trim (rest.drop (i + 1))⟩)
      | none => .error ⟨statement.startLine, .missingColon d.keyword⟩ := by
  rw [Header.read, hcode, Keyword.read?_eq_some.2 (d.opens rest),
    d.isSealed_code.headerColon?_append]
  cases headerColon? rest with
  | none => simp [d.isDefinition_keyword]
  | some i =>
    have hdrop : (d.code ++ rest).drop (i + d.code.length + 1) = rest.drop (i + 1) := by
      rw [show i + d.code.length + 1 = d.code.length + (i + 1) by omega,
        List.drop_length_add_append]
    simp [hdrop]

/-- The parameter list is looked for behind the first square bracket that closes. -/
theorem functionHeader?_list {body after : List Char} (hbody : ']' ∉ body)
    (htext : params.text ++ ']' :: rest = body ++ ']' :: after) :
    functionHeader? (d.code ++ (params.list ++ rest)) =
      (Text.after? ['('] (Text.trimStart after)).bind fun list => some (d.name, list) := by
  have hcons : params.list ++ rest = '[' :: (body ++ ']' :: after) := by
    rw [← htext]
    simp [TypeParameters.list]
  rw [hcons, d.functionHeader?_append rfl, afterTypeParameters?_list hbody, Option.bind_some]

theorem functionHeader?_code : functionHeader? (d.code ++ '(' :: list) = some (d.name, list) := by
  rw [d.functionHeader?_append rfl]
  rfl

/-- Type parameters without a square bracket that closes are passed over. -/
theorem signature_list (hparams : ']' ∉ params.text) (colon : Nat) (body : List Char) :
    Header.signature ⟨d.keyword, colon + params.list.length, body⟩
        (d.code ++ (params.list ++ '(' :: list)) =
      Header.signature ⟨d.keyword, colon, body⟩ (d.code ++ '(' :: list) := by
  have hlist : functionHeader? (d.code ++ (params.list ++ '(' :: list)) = some (d.name, list) :=
    functionHeader?_list hparams rfl
  simp only [Header.signature, d.keyword_ne_class, ↓reduceIte, functionHeader?_code, hlist]
  cases hsplit : splitArguments 0 [] list with
  | none => rfl
  | some parts =>
    have hlength := length_of_splitArguments hsplit
    have htake : colon + params.list.length -
          ((d.code ++ (params.list ++ '(' :: list)).length - parts.2.length) =
        colon - ((d.code ++ '(' :: list).length - parts.2.length) := by
      simp only [List.length_append, List.length_cons]
      omega
    simp only [htake]

/-- The header with type parameters, if that without them is a header. -/
theorem read_list (hcode : statement.code = d.code ++ '(' :: list)
    (hcode' : statement'.code = d.code ++ (params.list ++ '(' :: list)) {header : Option Header}
    (hread : Header.read statement = .ok header) :
    ∃ colon body, header = some ⟨d.keyword, colon, body⟩ ∧
      Header.read statement' = .ok (some ⟨d.keyword, colon + params.list.length, body⟩) := by
  rw [d.read_eq hcode] at hread
  rw [d.read_eq hcode', params.isSealed_list.headerColon?_append]
  cases hcolon : headerColon? ('(' :: list) with
  | none => simp [hcolon] at hread
  | some i =>
    have hdrop : (params.list ++ '(' :: list).drop (i + params.list.length + 1) =
        ('(' :: list).drop (i + 1) := by
      rw [show i + params.list.length + 1 = params.list.length + (i + 1) by omega,
        List.drop_length_add_append]
    rw [hcolon] at hread
    refine ⟨_, _, (Except.ok.inj hread).symm, ?_⟩
    simp only [Option.map_some, hdrop, Nat.add_right_comm i params.list.length d.code.length]

/-- What the definition says without type parameters and with them, if it is complete without. -/
theorem exists_read (hcode : statement.code = d.code ++ '(' :: list)
    (hcode' : statement'.code = d.code ++ (params.list ++ '(' :: list))
    (hfault : statement.fault? = none) :
    ∃ colon body, Header.read statement = .ok (some ⟨d.keyword, colon, body⟩) ∧
      Header.read statement' = .ok (some ⟨d.keyword, colon + params.list.length, body⟩) := by
  cases hread : Header.read statement with
  | error fault => simp [Statement.fault?, hread] at hfault
  | ok header =>
    obtain ⟨colon, body, rfl, hread'⟩ := read_list hcode hcode' hread
    exact ⟨colon, body, rfl, hread'⟩

/-- The definition is nested as before, if it is complete with and without type parameters. -/
theorem alike (hcode : statement.code = d.code ++ '(' :: list)
    (hcode' : statement'.code = d.code ++ (params.list ++ '(' :: list))
    (hindent : statement'.indent = statement.indent) (hfault : statement.fault? = none)
    (hfault' : statement'.fault? = none) : statement.Alike statement' := by
  obtain ⟨colon, body, hread, hread'⟩ := exists_read hcode hcode' hfault
  refine ⟨hindent, ?_, ?_, fun _ => hfault'⟩
  · rw [Statement.keyword?, Statement.keyword?, hread, hread']
    rfl
  · rw [Statement.opensBlock, Statement.opensBlock, hread, hread']
    rfl

/-- A definition with type parameters that hold no closing square bracket says the same. -/
theorem signature?_list (hparams : ']' ∉ params.text)
    (hcode : statement.code = d.code ++ '(' :: list)
    (hcode' : statement'.code = d.code ++ (params.list ++ '(' :: list))
    (hfault : statement.fault? = none) :
    statement'.fault? = none ∧ ∃ signature, statement.signature? = some signature ∧
      statement'.signature? = some signature ∧ signature.name = d.name ∧
      signature.kind = .function := by
  obtain ⟨colon, body, hread, hread'⟩ := exists_read hcode hcode' hfault
  have hsame := @signature_list d params list hparams colon body
  rw [← hcode, ← hcode'] at hsame
  cases hsignature : Header.signature ⟨d.keyword, colon, body⟩ statement.code with
  | error cause =>
    rw [Statement.fault?_of_read hread d.isDefinition_keyword hsignature] at hfault
    cases hfault
  | ok signature =>
    have h := Statement.signature?_of_read hread d.isDefinition_keyword hsignature
    have h' := Statement.signature?_of_read hread' d.isDefinition_keyword (hsame.trans hsignature)
    obtain ⟨-, -, -, hname, hkind, -⟩ := Header.signature_function d.keyword_ne_class
      (@functionHeader?_code d list) (hcode ▸ hsignature)
    exact ⟨h'.1, signature, h.2, h'.2, hname, hkind⟩

/-- A definition whose type parameters hold a closing square bracket is malformed, unless a list in
round brackets follows that bracket. -/
theorem fault?_list {body after : List Char} (htext : params.text = body ++ ']' :: after)
    (hbody : ']' ∉ body) (hafter : (Text.trimStart after).head? ≠ some '(')
    (hcode : statement.code = d.code ++ '(' :: list)
    (hcode' : statement'.code = d.code ++ (params.list ++ '(' :: list))
    (hfault : statement.fault? = none) :
    statement'.fault? = some ⟨statement'.startLine, .malformedHeader⟩ := by
  obtain ⟨colon, inline, -, hread'⟩ := exists_read hcode hcode' hfault
  have hopener : Text.after? ['('] (Text.trimStart (after ++ ']' :: '(' :: list)) = none := by
    rw [Text.trimStart_append_cons (by decide), Option.eq_none_iff_forall_ne_some]
    intro rest hrest
    have hlist := Text.after?_eq_some.1 hrest
    cases htrim : Text.trimStart after with
    | nil => simp [htrim] at hlist
    | cons c more =>
      rw [htrim] at hafter hlist
      exact hafter (congrArg List.head? hlist)
  have hfirst : params.text ++ ']' :: '(' :: list =
      body ++ ']' :: (after ++ ']' :: '(' :: list) := by simp [htext]
  have hnone : functionHeader? statement'.code = none := by
    rw [hcode', functionHeader?_list hbody hfirst, hopener]
    rfl
  refine Statement.fault?_of_read hread' d.isDefinition_keyword ?_
  simp [Header.signature, d.keyword_ne_class, hnone]

/-- If a list in round brackets follows that bracket, it is taken for the list of parameters. -/
theorem signature?_inner {body after inner : List Char} (htext : params.text = body ++ ']' :: after)
    (hbody : ']' ∉ body) (hafter : Text.trimStart after = '(' :: inner)
    (hcode : statement.code = d.code ++ '(' :: list)
    (hcode' : statement'.code = d.code ++ (params.list ++ '(' :: list))
    (hfault : statement.fault? = none) :
    statement'.fault? = none ∧ ∃ signature pieces rest, statement'.signature? = some signature ∧
      splitArguments 0 [] inner = some (pieces, rest) ∧ signature.name = d.name ∧
      signature.params = pieces.filterMap Parameter.read? := by
  obtain ⟨colon, inline, -, hread'⟩ := exists_read hcode hcode' hfault
  obtain ⟨pieces, rest, hsplit⟩ :=
    @params.splitArguments_inner (body ++ [']']) after inner (by simp [htext]) hafter
  have hfirst : params.text ++ ']' :: '(' :: list =
      body ++ ']' :: (after ++ ']' :: '(' :: list) := by simp [htext]
  have hheader : functionHeader? statement'.code =
      some (d.name, inner ++ ']' :: '(' :: list) := by
    rw [hcode', functionHeader?_list hbody hfirst,
      Text.trimStart_append_cons (by decide), hafter]
    rfl
  cases hsignature : Header.signature ⟨d.keyword, colon + params.list.length, inline⟩
      statement'.code with
  | error cause =>
    simp [Header.signature, d.keyword_ne_class, hheader, splitArguments_of_append hsplit]
      at hsignature
  | ok signature =>
    have h := Statement.signature?_of_read hread' d.isDefinition_keyword hsignature
    obtain ⟨pieces', rest', hsplit', hname, -, hparams⟩ :=
      Header.signature_function d.keyword_ne_class hheader hsignature
    rw [splitArguments_of_append hsplit, Option.some.injEq, Prod.mk.injEq] at hsplit'
    exact ⟨h.1, signature, pieces, rest, h.2, hsplit, hname, hsplit'.1 ▸ hparams⟩

end DefinitionLine

/-! ### The line -/

namespace TypeParameters

variable (params : TypeParameters)

theorem plain_list : params.list.all isPlain = true := by
  have hopener : isPlain '[' = true := rfl
  have hcloser : isPlain ']' = true := rfl
  simp [list, params.plain, hopener, hcloser]

theorem openBrackets_list : openBrackets [] params.list = some [] := by
  have hfilter : params.list.filter isBracket =
      Bracket.square.opener :: (params.text.filter isBracket ++ Bracket.square.closer :: []) := by
    simp [list, isBracket, isOpener, isCloser, Bracket.ofOpener?, Bracket.ofCloser?,
      Bracket.opener, Bracket.closer]
  rw [← properlyNested_iff, hfilter]
  exact .pair .square params.nested .nil

theorem decodable_list : params.list.any isUndecodable = false := by
  have hbrackets : isUndecodable '[' = false ∧ isUndecodable ']' = false := by decide
  rw [list, List.any_cons, List.any_append, params.decodable]
  simp [hbrackets]

end TypeParameters

namespace DefinitionLine

variable {d : DefinitionLine} {params : TypeParameters}

/-- The line up to the name of the function. -/
def text (d : DefinitionLine) : List Char := d.indent ++ d.code

theorem exists_code_cons (d : DefinitionLine) :
    ∃ c more, d.code = c :: more ∧ Text.isBlank c = false := by
  rcases d.isAsync with hasync | ⟨gap, -, hasync⟩
  · exact ⟨'d', _, by rw [code, hasync]; rfl, rfl⟩
  · exact ⟨'a', _, by rw [code, hasync]; rfl, rfl⟩

theorem trimStart_text (rest : List Char) : Text.trimStart (d.text ++ rest) = d.code ++ rest := by
  obtain ⟨c, more, hcode, hc⟩ := d.exists_code_cons
  rw [text, List.append_assoc, Text.trimStart_append_of_blank d.indent_blank, hcode,
    List.cons_append]
  exact Text.trimStart_append_cons hc [] (more ++ rest)

theorem indentWidth_text (rest rest' : List Char) :
    indentWidth (d.text ++ rest) = indentWidth (d.text ++ rest') := by
  obtain ⟨c, more, hcode, hc⟩ := d.exists_code_cons
  rw [indentWidth, indentWidth, text, hcode, List.append_assoc, List.append_assoc,
    List.cons_append, List.cons_append, indentFrom_append_cons hc,
    indentFrom_append_cons hc _ _ (more ++ rest')]

theorem word_or_blank_text :
    ∀ c ∈ d.text, Text.isWordChar c = true ∨ Text.isBlank c = true := by
  intro c hc
  rcases List.mem_append.1 hc with hc | hc
  · exact .inr (List.all_eq_true.1 d.indent_blank c hc)
  · exact d.isWordChar_or_isBlank c hc

theorem plain_text : d.text.all isPlain = true := by
  refine List.all_eq_true.2 fun c hc => ?_
  rcases d.word_or_blank_text c hc with hword | hblank
  · exact isPlain_of_class (by decide) hword
  · exact isPlain_of_class (by decide) hblank

/-- The line with type parameters is masked as without them. -/
theorem maskLine_list {number : Nat} {tail : List Char} {line : MaskedLine} {carry : Carry}
    (h : maskLine number .empty (d.text ++ '(' :: tail) = .ok (line, carry)) :
    ∃ (code : List Char) (line' : MaskedLine), line.code = d.text ++ '(' :: code ∧
      maskLine number .empty (d.text ++ (params.list ++ '(' :: tail)) = .ok (line', carry) ∧
      line'.code = d.text ++ (params.list ++ '(' :: code) ∧ line'.number = line.number ∧
      line'.continues = line.continues ∧ indentWidth line'.raw = indentWidth line.raw := by
  have htext (rest : List Char) : scanLine number none [] (d.text ++ rest) =
      emit d.text (scanLine number none [] rest) :=
    scanLine_nested d.plain_text (plain_of_words d.word_or_blank_text []).1 number [] rest
  have hlist (rest : List Char) : scanLine number none [] (params.list ++ rest) =
      emit params.list (scanLine number none [] rest) :=
    scanLine_nested params.plain_list params.openBrackets_list number [] rest
  have hopener : scanLine number none [] ('(' :: tail) =
      emit ['('] (scanLine number none [⟨.round, number⟩] tail) :=
    @scanLine_nested ['('] rfl [] [.round] rfl number [] tail
  obtain ⟨hdecodable, scanned, hscan, hend, rfl, rfl⟩ := maskLine_eq_ok.1 h
  rw [Carry.empty, htext, hopener, emit_emit] at hscan
  obtain ⟨inner, hinner, rfl⟩ := emit_eq_ok hscan
  refine ⟨inner.code, { inner with code := d.text ++ (params.list ++ '(' :: inner.code) }.masked
    number (d.text ++ (params.list ++ '(' :: tail)), by simp [ScannedLine.masked], ?_, rfl, rfl,
    rfl, d.indentWidth_text _ _⟩
  refine maskLine_eq_ok.2 ⟨?_, { inner with code := d.text ++ (params.list ++ '(' :: inner.code) },
    ?_, hend, rfl, rfl⟩
  · simp only [List.any_append, Bool.or_eq_false_iff] at hdecodable ⊢
    exact ⟨hdecodable.1, params.decodable_list, hdecodable.2⟩
  · rw [Carry.empty, htext, hlist, hopener, hinner]
    simp

/-- The text with the definition in it; `tail` follows the name of the function. -/
def unit (d : DefinitionLine) (name : String) (above below : List (List Char)) (tail : List Char) :
    SourceUnit :=
  ⟨name, above ++ (d.text ++ tail) :: below⟩

variable {name : String} {above below : List (List Char)} {tail : List Char}
  {masked : List MaskedLine} {s : Statement}

/-- Type parameters change the code of the definition, and nothing else in the statements. -/
theorem joinLines_list (hmask : mask (d.unit name above below ('(' :: tail)) = .ok masked)
    (hs : s ∈ joinLines masked) (hstart : s.startLine = above.length + 1) :
    ∃ masked' before after list,
      s.code = d.code ++ '(' :: list ∧ joinLines masked = before ++ s :: after ∧
      mask (d.unit name above below (params.list ++ '(' :: tail)) = .ok masked' ∧
      joinLines masked' =
        before ++ { s with code := d.code ++ (params.list ++ '(' :: list) } :: after := by
  obtain ⟨first, carry, second, hfirst, hsecond, rfl⟩ := maskFrom_append_eq_ok.1 hmask
  obtain ⟨line, carry', rest, hline, hrest, rfl⟩ := maskFrom_cons_eq_ok.1 hsecond
  have hnumbered := numbered_maskFrom hmask
  have hnumber : line.number = above.length + 1 := by
    obtain ⟨-, scanned, -, -, rfl, -⟩ := maskLine_eq_ok.1 hline
    exact Nat.add_comm 1 above.length
  rw [← hnumber] at hstart
  -- Nothing is open where a statement starts.
  have hopen := openAfter_eq_none_of_start hnumbered hs hstart
  obtain rfl : carry = .empty := (hopen ▸ hfirst.holds holds_empty).eq_empty
  obtain ⟨code, line', hcode, hline', hcode', hnumber', hcontinues, hindent⟩ :=
    @maskLine_list d params _ _ _ _ hline
  obtain ⟨before, endLine, suffix, after, rfl, hjoin⟩ := joinFrom_start hnumbered hs hstart
  have hblank (left : List Char) : allBlank (left ++ '(' :: code) = false := by
    simp [allBlank, Text.isBlank]
  have htrim (left : List Char) : Text.trim (d.text ++ (left ++ '(' :: code)) =
      d.code ++ (left ++ '(' :: Text.trimEnd code) := by
    rw [← List.append_assoc, Text.trim_append_cons (by decide), trimStart_text, List.append_assoc]
  have hbefore := hjoin line rfl rfl (hcode ▸ hblank d.text)
  have hafter := hjoin line' hnumber' hcontinues
    (by rw [hcode', ← List.append_assoc]; exact hblank _)
  refine ⟨first ++ line' :: rest, before, after, Text.trimEnd code ++ suffix, ?_, hbefore, ?_, ?_⟩
  · have hplain := htrim []
    rw [List.nil_append, List.nil_append] at hplain
    simp only [hcode, hplain, List.append_assoc, List.cons_append]
  · exact maskFrom_append_eq_ok.2 ⟨first, .empty, line' :: rest, hfirst,
      maskFrom_cons_eq_ok.2 ⟨line', carry', rest, hline', hrest, rfl⟩, rfl⟩
  · rw [joinLines, hafter, hindent, hcode', htrim]
    simp only [List.append_assoc, List.cons_append]

/-! ### The outline -/

/-- Type parameters before the list of parameters of a function leave everything as it is, if they
hold no square bracket that closes. If they do, what follows the first of these is taken for the
list of parameters, and the text is rejected if that is no list. -/
theorem outline_with_typeParameters (d : DefinitionLine) (params : TypeParameters) {name : String}
    {above below : List (List Char)} {tail : List Char} {outline : Outline}
    (houtline : Outline.ofUnit (d.unit name above below ('(' :: tail)) = .ok outline)
    (hstart : ∃ line ∈ outline.lines, line.startLine = above.length + 1) :
    (']' ∉ params.text →
      ∃ outline', Outline.ofUnit (d.unit name above below (params.list ++ '(' :: tail)) =
          .ok outline' ∧
        outline'.elements.toList.map Element.declaration =
          outline.elements.toList.map Element.declaration ∧
        ∃ e ∈ outline'.elements, e.startLine = above.length + 1 ∧ e.name = d.name ∧
          e.isFunction = true) ∧
    ∀ body after, params.text = body ++ ']' :: after → ']' ∉ body →
      ((Text.trimStart after).head? ≠ some '(' →
        Outline.ofUnit (d.unit name above below (params.list ++ '(' :: tail)) =
          .error ⟨above.length + 1, .malformedHeader⟩) ∧
      ∀ inner, Text.trimStart after = '(' :: inner →
        ∃ outline' pieces rest,
          Outline.ofUnit (d.unit name above below (params.list ++ '(' :: tail)) = .ok outline' ∧
          splitArguments 0 [] inner = some (pieces, rest) ∧
          ∃ e ∈ outline'.elements, e.startLine = above.length + 1 ∧ e.name = d.name ∧
            e.params = pieces.filterMap Parameter.read? := by
  obtain ⟨masked, b, hmask, -⟩ := Outline.ofUnit_eq_ok.1 houtline
  obtain ⟨s, hs, hstart⟩ : ∃ s ∈ joinLines masked, s.startLine = above.length + 1 := by
    obtain ⟨line, hline, hstart⟩ := hstart
    refine ⟨line.statement, ?_, hstart⟩
    rw [← statement_outline hmask houtline]
    exact List.mem_map_of_mem (Array.mem_toList_iff.2 hline)
  obtain ⟨masked', before, after, list, hcode, hjoin, hmask', hjoin'⟩ :=
    @joinLines_list d params _ _ _ _ _ _ hmask hs hstart
  have hfirst := Outline.firstFault?_eq_none hmask houtline
  have hfault := fault?_of_mem hfirst hs
  obtain ⟨s', hs'⟩ : ∃ s', s' = { s with code := d.code ++ (params.list ++ '(' :: list) } :=
    ⟨_, rfl⟩
  have hcode' : s'.code = d.code ++ (params.list ++ '(' :: list) := by rw [hs']
  have hindent : s'.indent = s.indent := by rw [hs']
  have hstart' : s'.startLine = s.startLine := by rw [hs']
  have hend : s'.endLine = s.endLine := by rw [hs']
  rw [← hs'] at hjoin'
  have hplace : s'.startLine = above.length + 1 := hstart'.trans hstart
  refine ⟨fun hparams => ?_, fun body after' htext hbody =>
    ⟨fun hafter => ?_, fun inner hafter => ?_⟩⟩
  · obtain ⟨hfault', signature, hsignature, hsignature', hname, hkind⟩ :=
      signature?_list hparams hcode hcode' hfault
    obtain ⟨outline', houtline', hbare, e, he, hestart, rfl⟩ := Outline.ofUnit_replace hmask
      houtline hmask' hjoin hjoin' (alike hcode hcode' hindent hfault hfault') hsignature'
    refine ⟨outline', houtline', ?_, e, he, hestart.trans hplace, hname, decide_eq_true hkind⟩
    refine Outline.declarations_eq hmask houtline hmask' houtline' hbare ?_
    simp [hjoin, hjoin', hstart', hend, hsignature, hsignature']
  · have hfault' := fault?_list htext hbody hafter hcode hcode' hfault
    rw [hjoin] at hfirst
    rw [Outline.ofUnit_eq_error_of_mask hmask', hjoin', firstFault?_of_fault hfirst hindent hfault',
      hplace]
  · obtain ⟨hfault', signature, pieces, rest, hsignature', hsplit, hname, hparams⟩ :=
      signature?_inner htext hbody hafter hcode hcode' hfault
    obtain ⟨outline', houtline', -, e, he, hestart, rfl⟩ := Outline.ofUnit_replace hmask houtline
      hmask' hjoin hjoin' (alike hcode hcode' hindent hfault hfault') hsignature'
    exact ⟨outline', pieces, rest, houtline', hsplit, e, he, hestart.trans hplace, hname, hparams⟩

end DefinitionLine

/-- The definition of a function `f`. -/
def functionLine : DefinitionLine where
  indent := []
  async := []
  gap := [' ']
  name := ['f']
  indent_blank := rfl
  isAsync := .inl rfl
  isGap := ⟨by decide, rfl⟩
  isName := ⟨'f', [], rfl, rfl, rfl⟩

/-- A type parameter. -/
def freeParameter : TypeParameters where
  text := "T".toList
  plain := by decide
  decodable := by decide
  nested := properlyNested_iff.2 rfl

/-- A type parameter whose bound has a type parameter itself. -/
def boundParameter : TypeParameters where
  text := "T: list[int]".toList
  plain := by decide
  decodable := by decide
  nested := properlyNested_iff.2 rfl

theorem bound_of_typeParameter_rejected :
    ∃ outline, Outline.ofUnit (functionLine.unit "f" [] ["    return x".toList] "(x):".toList) =
        .ok outline ∧
      (∃ line ∈ outline.lines, line.startLine = 1) ∧
      (∃ outline', Outline.ofUnit
          (functionLine.unit "f" [] ["    return x".toList] "[T](x):".toList) = .ok outline' ∧
        outline'.elements.toList.map Element.declaration =
          outline.elements.toList.map Element.declaration) ∧
      Outline.ofUnit
        (functionLine.unit "f" [] ["    return x".toList] "[T: list[int]](x):".toList) =
          .error ⟨1, .malformedHeader⟩ := by
  have hread : (Outline.ofUnit
      (functionLine.unit "f" [] ["    return x".toList] "(x):".toList)).map
        (·.lines.any (·.startLine = 1)) = .ok true := by decide +kernel
  obtain ⟨outline, houtline, hany⟩ := ok_map_iff.1 hread
  have hstart : ∃ line ∈ outline.lines, line.startLine = 1 := by
    simpa only [decide_eq_true_eq] using Array.any_eq_true'.1 hany
  obtain ⟨outline', houtline', hsame, -⟩ :=
    (functionLine.outline_with_typeParameters freeParameter houtline hstart).1 (by decide)
  have hrejected := ((functionLine.outline_with_typeParameters boundParameter houtline hstart).2
    "T: list[int".toList [] rfl (by decide)).1 (by decide)
  exact ⟨outline, houtline, hstart, ⟨outline', houtline', hsame⟩, hrejected⟩

end CodeGrade
