import CodeGrade.Proofs.Cutting

/-!
# Writing parameter lists

A signature is written parameter by parameter, with commas between and blanks wherever they may
stand. Reading the list gives back the parameters that were written, whatever their annotations and
defaults hold, and finds the bracket that closes the list. The list is cut at its commas first and
each piece at its first `=` and `:` then; all three cuts are made outside brackets, and an
annotation or default is *sealed* against those that could be mistaken.

## Main definitions

* `WrittenParameter`: a parameter as it is written, with its annotation and default.
* `SignatureItem`: what may stand between two commas of a signature.
* `SpelledSignature`: a text is a signature as it may be written.
-/

namespace CodeGrade

open Text (allBlank)

/-! ### Parameters as they are written -/

/-- The stars in front of a parameter's name. -/
inductive Stars where
  | none
  | one
  | two
  deriving DecidableEq

def Stars.text : Stars → List Char
  | none => []
  | one => ['*']
  | two => ['*', '*']

/-- Whether a character may stand in a parameter's name. All characters may but the blank ones and
those that give a signature its structure. -/
def isParameterChar (c : Char) : Bool :=
  !Text.isBlank c && !isBracket c && c ∉ ['*', '/', ',', ':', '=']

/-- A parameter as it is written. -/
structure WrittenParameter where
  stars : Stars
  name : List Char
  hint : Option (List Char)
  default : Option (List Char)
  name_ne_nil : name ≠ []
  name_chars : name.all isParameterChar = true
  hint_sealed : ∀ text ∈ hint, Sealed [',', '='] text
  default_sealed : ∀ text ∈ default, Sealed [','] text

/-- A part of a parameter that may be left out, after the mark that announces it. -/
def Announced (mark : Char) : Option (List Char) → List Char → Prop
  | none, text => text = []
  | some part, text => ∃ spaced, Text.Spaced part spaced ∧ text = mark :: spaced

theorem Sealed.announced {marks text : List Char} {mark : Char} {part : Option (List Char)}
    (h : Announced mark part text) (hmark : Sealed marks [mark])
    (hmarks : marks.all (!Text.isBlank ·) = true) (hpart : ∀ core ∈ part, Sealed marks core) :
    Sealed marks text := by
  cases part with
  | none =>
    obtain rfl := h
    exact of_blank rfl hmarks
  | some core =>
    obtain ⟨spaced, hspaced, rfl⟩ := h
    exact hmark.append ((hpart core rfl).spaced hspaced hmarks)

/-- Stars are taken off a text that goes on without one. -/
theorem dropStars_of_head? {text : List Char} (h : text.head? ≠ some '*') :
    dropStars text = text ∧ dropStars ('*' :: text) = text := by
  cases text with
  | nil => exact ⟨rfl, rfl⟩
  | cons c rest =>
    have hc : c ≠ '*' := by simpa using h
    constructor <;> unfold dropStars <;> split <;> simp_all

namespace WrittenParameter

/-- What is known of the parameter when it has been read. -/
def parameter (p : WrittenParameter) : Parameter :=
  ⟨p.name, p.hint.isSome, p.default.map Text.trim⟩

/-- The text is the parameter with blanks around its pieces. -/
def Spelled (p : WrittenParameter) (text : List Char) : Prop :=
  ∃ stars name hint default, Text.Spaced p.stars.text stars ∧ Text.Spaced p.name name ∧
    Announced ':' p.hint hint ∧ Announced '=' p.default default ∧
    text = stars ++ name ++ hint ++ default

variable {p : WrittenParameter} {text : List Char}

theorem name_char {c : Char} (h : c ∈ p.name) :
    Text.isBlank c = false ∧ isBracket c = false ∧ c ∉ ['*', '/', ',', ':', '='] := by
  simpa [isParameterChar, and_assoc] using List.all_eq_true.1 p.name_chars c h

theorem name_visible (p : WrittenParameter) : ∀ c ∈ p.name, Text.isBlank c = false :=
  fun _ hc => (name_char hc).1

/-- The text is the stars and the name of the parameter, with no blanks before the stars. -/
def Heads (p : WrittenParameter) (text : List Char) : Prop :=
  ∃ named, Text.Spaced p.name named ∧ text = p.stars.text ++ named

theorem heads_trimStart {stars name : List Char} (hstars : Text.Spaced p.stars.text stars)
    (hname : Text.Spaced p.name name) : p.Heads (Text.trimStart (stars ++ name)) := by
  obtain ⟨before, between, hbefore, hbetween, rfl⟩ := hstars
  have hnamed := hname.append_left hbetween
  rw [List.append_assoc, List.append_assoc, Text.trimStart_append_of_blank hbefore]
  cases hp : p.stars with
  | none => exact ⟨_, hnamed.trimStart p.name_ne_nil p.name_visible, by rw [hp]; rfl⟩
  | one | two => exact ⟨_, hnamed, by rw [hp]; rfl⟩

namespace Heads

theorem trimEnd (h : p.Heads text) : p.Heads (Text.trimEnd text) := by
  obtain ⟨named, ⟨before, after, hbefore, hafter, rfl⟩, rfl⟩ := h
  refine ⟨_, ⟨before, [], hbefore, rfl, rfl⟩, ?_⟩
  obtain ⟨first, more, hname⟩ := List.exists_cons_of_ne_nil p.name_ne_nil
  rw [← List.append_assoc, Text.trimEnd_append_of_blank hafter, ← List.append_assoc, hname,
    Text.trimEnd_append_cons (p.name_visible first (by simp [hname])),
    Text.trimEnd_word fun c hc => p.name_visible c (by simp [hname, hc])]
  simp

/-- The only stars before the name are those of the parameter. -/
theorem trim_dropStars (h : p.Heads text) : Text.trim (dropStars text) = p.name := by
  obtain ⟨named, hnamed, rfl⟩ := h
  have hhead : named.head? ≠ some '*' := by
    obtain ⟨before, after, hbefore, -, rfl⟩ := hnamed
    obtain ⟨first, more, hname⟩ := List.exists_cons_of_ne_nil p.name_ne_nil
    cases before with
    | nil =>
      have hfirst := (name_char (p := p) (c := first) (by simp [hname])).2.2
      rintro hstar
      simp_all
    | cons c before =>
      rintro hstar
      obtain rfl : c = '*' := by simpa using hstar
      exact absurd (List.all_eq_true.1 hbefore '*' (by simp)) (by decide)
  have hdrop : dropStars (p.stars.text ++ named) = named := by
    cases p.stars with
    | none => exact (dropStars_of_head? hhead).1
    | one => exact (dropStars_of_head? hhead).2
    | two => rfl
  rw [hdrop, hnamed.trim_word p.name_visible]

theorem isSealed (h : p.Heads text) : Sealed [',', '=', ':'] text := by
  obtain ⟨named, ⟨before, after, hbefore, hafter, rfl⟩, rfl⟩ := h
  have hblank (blanks : List Char) (h : allBlank blanks = true) : Sealed [',', '=', ':'] blanks :=
    .of_blank h (by decide)
  have hname : Sealed [',', '=', ':'] p.name :=
    .of_plain (fun c hc => (name_char hc).2.1) fun c hc hmark => (name_char hc).2.2 (by
      fin_cases hmark <;> simp)
  have hstars : Sealed [',', '=', ':'] p.stars.text := by
    cases p.stars <;> decide
  exact hstars.append (((hblank before hbefore).append hname).append (hblank after hafter))

end Heads

end WrittenParameter

/-! ### Reading a piece -/

/-- The parameter described by what stands before the default. -/
def Parameter.ofLeft (left : List Char) (default : Option (List Char)) : Parameter :=
  match splitTop ':' left with
  | some (name, _) => ⟨Text.trim (dropStars name), true, default⟩
  | none => ⟨Text.trim (dropStars left), false, default⟩

namespace Parameter

theorem ofLeft_annotated {named : List Char} (h : Sealed [':'] named) (hint : List Char)
    (default : Option (List Char)) :
    ofLeft (named ++ ':' :: hint) default = ⟨Text.trim (dropStars named), true, default⟩ := by
  rw [ofLeft, h.splitTop_eq_some (by decide)]

theorem ofLeft_plain {named : List Char} (h : Sealed [':'] named) (default : Option (List Char)) :
    ofLeft named default = ⟨Text.trim (dropStars named), false, default⟩ := by
  rw [ofLeft, h.splitTop_eq_none]

/-- A piece with an `=` outside all brackets has a default. -/
theorem read?_default {left : List Char} (h : Sealed ['='] left) (right : List Char) :
    read? (left ++ '=' :: right) =
      some (ofLeft (Text.trimStart left) (some (Text.trim right))) := by
  have hmarker : ∀ marker ∈ [[], ['*'], ['/']],
      Text.trimStart left ++ '=' :: Text.trimEnd right ≠ marker := by
    intro marker hmarker heq
    have hmem : '=' ∈ marker := heq ▸ by simp
    fin_cases hmarker <;> simp at hmem
  rw [read?, Text.trim_append_cons (by decide), if_neg (by simpa using hmarker),
    h.trimStart.splitTop_eq_some (by decide)]
  simp only [ofLeft, Text.trim_trimEnd]
  cases splitTop ':' (Text.trimStart left) with
  | none => rfl
  | some _ => rfl

theorem read?_no_default {left : List Char} (h : Sealed ['='] left)
    (hmarker : ∀ marker ∈ [[], ['*'], ['/']], Text.trim left ≠ marker) :
    read? left = some (ofLeft (Text.trim left) none) := by
  rw [read?, if_neg (by simpa using hmarker), h.trim.splitTop_eq_none]
  simp only [ofLeft]
  cases splitTop ':' (Text.trim left) with
  | none => rfl
  | some _ => rfl

end Parameter

namespace WrittenParameter

variable {p : WrittenParameter} {text : List Char}

theorem isSealed_named {stars name : List Char} (hstars : Text.Spaced p.stars.text stars)
    (hname : Text.Spaced p.name name) : Sealed [',', '=', ':'] (stars ++ name) := by
  obtain ⟨blanks, hblanks, htext⟩ := Text.exists_trimStart (stars ++ name)
  rw [htext]
  exact (Sealed.of_blank hblanks (by decide)).append (heads_trimStart hstars hname).isSealed

/-- A written parameter is no marker. -/
theorem trim_ne_marker {left : List Char} (h : p.name ⊆ left) :
    ∀ marker ∈ [[], ['*'], ['/']], Text.trim left ≠ marker := by
  intro marker hmarker heq
  obtain ⟨c, hc⟩ := List.exists_mem_of_ne_nil _ p.name_ne_nil
  have hmem : c ∈ Text.dropBlanks (Text.trim left) := by
    rw [Text.dropBlanks_trim]
    exact List.mem_filter.2 ⟨h hc, by simp [p.name_visible c hc]⟩
  have hstructure := (name_char hc).2.2
  rw [heq] at hmem
  have hcmem := List.mem_of_mem_filter hmem
  fin_cases hmarker <;> simp_all

theorem isSealed (h : p.Spelled text) : Sealed [','] text := by
  obtain ⟨stars, name, hint, default, hstars, hname, hhint, hdefault, rfl⟩ := h
  have hnamed : Sealed [','] (stars ++ name) := (isSealed_named hstars hname).of_subset (by simp)
  exact (hnamed.append (.announced hhint (by decide) (by decide) fun part hpart =>
    (p.hint_sealed part hpart).of_subset (by simp))).append
      (.announced hdefault (by decide) (by decide) p.default_sealed)

/-- The name and the annotation of a parameter are read, also if the blanks after them are taken
off. -/
theorem ofLeft_eq {stars name hint : List Char} (hstars : Text.Spaced p.stars.text stars)
    (hname : Text.Spaced p.name name) (hhint : Announced ':' p.hint hint)
    (default : Option (List Char)) :
    Parameter.ofLeft (Text.trimStart (stars ++ name ++ hint)) default =
        ⟨p.name, p.hint.isSome, default⟩ ∧
      Parameter.ofLeft (Text.trim (stars ++ name ++ hint)) default =
        ⟨p.name, p.hint.isSome, default⟩ := by
  have hheads := heads_trimStart hstars hname
  have hcolon {text : List Char} (h : p.Heads text) : Sealed [':'] text :=
    h.isSealed.of_subset (by simp)
  cases hpart : p.hint with
  | none =>
    rw [hpart] at hhint
    obtain rfl := hhint
    rw [List.append_nil, Text.trim, Parameter.ofLeft_plain (hcolon hheads), hheads.trim_dropStars,
      Parameter.ofLeft_plain (hcolon hheads.trimEnd), hheads.trimEnd.trim_dropStars]
    exact ⟨rfl, rfl⟩
  | some part =>
    rw [hpart] at hhint
    obtain ⟨spaced, -, rfl⟩ := hhint
    rw [Text.trimStart_append_cons (by decide), Text.trim_append_cons (by decide),
      Parameter.ofLeft_annotated (hcolon hheads), Parameter.ofLeft_annotated (hcolon hheads),
      hheads.trim_dropStars]
    exact ⟨rfl, rfl⟩

/-- A written parameter is read back. -/
theorem read?_eq (h : p.Spelled text) : Parameter.read? text = some p.parameter := by
  obtain ⟨stars, name, hint, default, hstars, hname, hhint, hdefault, rfl⟩ := h
  have hnamed : Sealed ['='] (stars ++ name) := (isSealed_named hstars hname).of_subset (by simp)
  have hleft : Sealed ['='] (stars ++ name ++ hint) :=
    hnamed.append (.announced hhint (by decide) (by decide) fun part hpart =>
      (p.hint_sealed part hpart).of_subset (by simp))
  cases hpart : p.default with
  | none =>
    rw [hpart] at hdefault
    obtain rfl := hdefault
    have hmem : p.name ⊆ stars ++ name ++ hint := by
      obtain ⟨before, after, -, -, rfl⟩ := hname
      exact fun c hc => by simp [hc]
    rw [List.append_nil, Parameter.read?_no_default hleft (trim_ne_marker hmem),
      (ofLeft_eq hstars hname hhint _).2, parameter, hpart]
    rfl
  | some part =>
    rw [hpart] at hdefault
    obtain ⟨spaced, hspaced, rfl⟩ := hdefault
    rw [Parameter.read?_default hleft, hspaced.trim_eq, (ofLeft_eq hstars hname hhint _).1,
      parameter, hpart]
    rfl

end WrittenParameter

/-! ### Signatures -/

/-- What may stand between two commas of a signature: a parameter, a marker, or nothing, as in an
empty list and after a comma at the end. -/
inductive SignatureItem where
  | parameter (written : WrittenParameter)
  | star
  | slash
  | nothing

namespace SignatureItem

def parameter? : SignatureItem → Option Parameter
  | parameter written => some written.parameter
  | _ => none

/-- The text is the item with blanks around its pieces. -/
def Spelled : SignatureItem → List Char → Prop
  | parameter written, text => written.Spelled text
  | star, text => Text.Spaced ['*'] text
  | slash, text => Text.Spaced ['/'] text
  | nothing, text => allBlank text = true

variable {item : SignatureItem} {text : List Char}

theorem Spelled.isSealed (h : item.Spelled text) : Sealed [','] text := by
  cases item with
  | parameter written => exact WrittenParameter.isSealed h
  | star | slash => exact .spaced (by decide) h (by decide)
  | nothing => exact .of_blank h (by decide)

theorem Spelled.read?_eq (h : item.Spelled text) : Parameter.read? text = item.parameter? := by
  cases item with
  | parameter written => exact WrittenParameter.read?_eq h
  | star =>
    have htrim : Text.trim text = ['*'] := (Text.Spaced.trim_eq h).trans (by decide)
    simp [Parameter.read?, htrim, parameter?]
  | slash =>
    have htrim : Text.trim text = ['/'] := (Text.Spaced.trim_eq h).trans (by decide)
    simp [Parameter.read?, htrim, parameter?]
  | nothing => simp [Parameter.read?, Text.trim_eq_nil.2 h, parameter?]

/-- Item by item, no piece is cut further and each is read back. -/
theorem pieces_of_spelled {items : List SignatureItem} {pieces : List (List Char)}
    (h : List.Forall₂ Spelled items pieces) :
    (∀ piece ∈ pieces, Sealed [','] piece) ∧
      pieces.filterMap Parameter.read? = items.filterMap parameter? := by
  induction h with
  | nil => simp
  | cons hitem _ ih =>
    obtain ⟨hsealed, hread⟩ := ih
    refine ⟨List.forall_mem_cons.2 ⟨hitem.isSealed, hsealed⟩, ?_⟩
    rw [List.filterMap_cons, List.filterMap_cons, hitem.read?_eq, hread]

end SignatureItem

/-- The text is the items with commas between them, with blanks around the pieces of each. -/
def SpelledSignature (items : List SignatureItem) (text : List Char) : Prop :=
  ∃ pieces, List.Forall₂ SignatureItem.Spelled items pieces ∧ text = [','].intercalate pieces

/-- Reading a signature undoes writing it. The list ends at the bracket that was written after it,
whatever follows, and its parameters are those that were written, in their order. -/
theorem parameters_of_spelledSignature {items : List SignatureItem} {text : List Char}
    (h : SpelledSignature items text) (after : List Char) :
    ∃ pieces, splitArguments 0 [] (text ++ ')' :: after) = some (pieces, after) ∧
      pieces.filterMap Parameter.read? = items.filterMap SignatureItem.parameter? := by
  obtain ⟨pieces, hpieces, rfl⟩ := h
  obtain ⟨hsealed, hread⟩ := SignatureItem.pieces_of_spelled hpieces
  cases pieces with
  | nil =>
    obtain rfl := List.forall₂_nil_right_iff.1 hpieces
    exact ⟨[[]], rfl, rfl⟩
  | cons piece pieces => exact ⟨_, splitArguments_intercalate hsealed after, hread⟩

/-- An annotation with a comma in brackets, and a default with commas, a colon and an `=` in
brackets. -/
def tableParameter : WrittenParameter where
  stars := .none
  name := "table".toList
  hint := some "dict[str, int]".toList
  default := some "make(1, key={2: 3})".toList
  name_ne_nil := by decide
  name_chars := by decide
  hint_sealed := by rintro _ ⟨⟩; decide
  default_sealed := by rintro _ ⟨⟩; decide

def restParameter : WrittenParameter where
  stars := .two
  name := "rest".toList
  hint := none
  default := none
  name_ne_nil := by decide
  name_chars := by decide
  hint_sealed := by rintro _ ⟨⟩
  default_sealed := by rintro _ ⟨⟩

theorem parameters_of_table_signature :
    let items := [.slash, .parameter tableParameter, .star, .parameter restParameter, .nothing]
    let text := "/, table : dict[str, int]= make(1, key={2: 3}) ,*, ** rest,".toList
    SpelledSignature items text ∧
      ∃ pieces, splitArguments 0 [] (text ++ ')' :: " -> (int):".toList) =
          some (pieces, " -> (int):".toList) ∧
        pieces.filterMap Parameter.read? =
          [⟨"table".toList, true, some "make(1, key={2: 3})".toList⟩,
            ⟨"rest".toList, false, none⟩] := by
  intro items text
  have htable : tableParameter.Spelled " table : dict[str, int]= make(1, key={2: 3}) ".toList :=
    ⟨" ".toList, "table ".toList, ": dict[str, int]".toList, "= make(1, key={2: 3}) ".toList,
      ⟨" ".toList, [], rfl, rfl, rfl⟩, ⟨[], " ".toList, rfl, rfl, rfl⟩,
      ⟨_, ⟨" ".toList, [], rfl, rfl, rfl⟩, rfl⟩,
      ⟨_, ⟨" ".toList, " ".toList, rfl, rfl, rfl⟩, rfl⟩, rfl⟩
  have hrest : restParameter.Spelled " ** rest".toList :=
    ⟨" ** ".toList, "rest".toList, [], [], ⟨" ".toList, " ".toList, rfl, rfl, rfl⟩,
      ⟨[], [], rfl, rfl, rfl⟩, rfl, rfl, rfl⟩
  have hspelled : SpelledSignature items text :=
    ⟨["/".toList, " table : dict[str, int]= make(1, key={2: 3}) ".toList, "*".toList,
        " ** rest".toList, []],
      .cons ⟨[], [], rfl, rfl, rfl⟩ (.cons htable (.cons ⟨[], [], rfl, rfl, rfl⟩
        (.cons hrest (.cons rfl .nil)))), by decide⟩
  exact ⟨hspelled, parameters_of_spelledSignature hspelled _⟩

end CodeGrade
