import CodeGrade.CommandLine.Options
import Mathlib

/-!
# Lists of formats

The formats of a report are given as a list of names with commas between them. The name `all` ends
the reading of the list, so the names after it are not looked at: a list is accepted if the names
before the first `all` are those of formats, and otherwise the first other name is reported. An
accepted list stands for each format that it names, or for all of them, once.

## Main definitions

* `Format.listedNames`: the names in a list.
* `Format.IsListable`: the names that may stand in a list.
* `Format.Selects`: the formats that names stand for, each once.
-/

namespace CodeGrade.Format

/-- The names in a list with commas, in lower case and without the blanks around them. -/
def listedNames (text : String) : List String :=
  (Text.splitOn ',' text.toList).map fun part => String.ofList (Text.toLower (Text.trim part))

/-- The names that may stand in a list. -/
def IsListable (name : String) : Prop := name ∈ "all" :: all.map Format.name

instance : DecidablePred IsListable := fun name => List.instDecidableMemOfLawfulBEq name _

/-- The formats are those that the names stand for, each once. -/
structure Selects (names : List String) (formats : List Format) : Prop where
  nodup : formats.Nodup
  mem_iff : ∀ format, format ∈ formats ↔ format.name ∈ names ∨ "all" ∈ names

/-! ### Names -/

@[simp] theorem mem_all (format : Format) : format ∈ all := by
  cases format <;> decide

theorem name_ne_all (format : Format) : format.name ≠ "all" := by
  cases format <;> decide

theorem name_inj {a b : Format} : a.name = b.name ↔ a = b := by
  cases a <;> cases b <;> decide

theorem ofName?_eq_some {name : String} {format : Format} (h : ofName? name = some format) :
    format.name = name := by
  simpa using List.find?_some h

theorem isListable_name (format : Format) : IsListable format.name :=
  List.mem_cons_of_mem _ (List.mem_map_of_mem (mem_all format))

theorem not_isListable {name : String} (hall : name ≠ "all") (h : ofName? name = none) :
    ¬IsListable name := by
  rw [IsListable, List.mem_cons, List.mem_map, not_or]
  refine ⟨hall, ?_⟩
  rintro ⟨format, hmem, hname⟩
  exact List.find?_eq_none.1 h format hmem (decide_eq_true hname)

/-! ### Reading names -/

variable {names names' : List String} {formats formats' : List Format}

theorem Selects.perm (h : Selects names formats) (h' : Selects names' formats')
    (hnames : names'.Perm names) : formats'.Perm formats := by
  rw [List.perm_ext_iff_of_nodup h'.nodup h.nodup]
  intro format
  rw [h'.mem_iff, h.mem_iff, hnames.mem_iff, hnames.mem_iff]

theorem selects_nil : Selects [] [] := ⟨List.nodup_nil, by simp⟩

theorem selects_all (h : "all" ∈ names) : Selects names all := ⟨by decide, by simp [h]⟩

/-- A format is added to those of the names before it, if it is not among them. -/
theorem Selects.add (h : Selects names formats) (format : Format) :
    Selects (names ++ [format.name])
      (if formats.contains format then formats else formats ++ [format]) := by
  have hall : "all" ≠ format.name := (name_ne_all format).symm
  have hmem : ∀ other : Format, other ∈ formats ∨ other = format ↔
      other.name ∈ names ++ [format.name] ∨ "all" ∈ names ++ [format.name] := by
    intro other
    rw [h.mem_iff, List.mem_append, List.mem_append, List.mem_singleton, List.mem_singleton, name_inj]
    tauto
  by_cases hformat : format ∈ formats
  · rw [if_pos (List.contains_iff_mem.2 hformat)]
    refine ⟨h.nodup, fun other => ?_⟩
    rw [← hmem, or_iff_left_of_imp]
    rintro rfl
    exact hformat
  · rw [if_neg (mt List.contains_iff_mem.1 hformat)]
    refine ⟨List.nodup_append.2 ⟨h.nodup, List.nodup_singleton _, by grind⟩,
      fun other => ?_⟩
    rw [← hmem, List.mem_append, List.mem_singleton]

section ReadNames

variable {found : List Format} {part : List Char} {parts : List (List Char)}

theorem readNames_cons_all (h : String.ofList part = "all") :
    readNames found (part :: parts) = .ok all :=
  if_pos h

theorem readNames_cons_format (h : String.ofList part ≠ "all") {format : Format}
    (hformat : ofName? (String.ofList part) = some format) :
    readNames found (part :: parts) =
      readNames (if found.contains format then found else found ++ [format]) parts := by
  rw [readNames, if_neg h, hformat]

theorem readNames_cons_unknown (h : String.ofList part ≠ "all")
    (hformat : ofName? (String.ofList part) = none) :
    readNames found (part :: parts) = .error (.format (String.ofList part)) := by
  rw [readNames, if_neg h, hformat]

/-- What is read selects the formats of all names, also of those that are not looked at. -/
theorem Selects.readNames (h : Selects names found) (hread : readNames found parts = .ok formats) :
    Selects (names ++ parts.map String.ofList) formats := by
  induction parts generalizing found names with
  | nil =>
    cases hread
    rwa [List.map_nil, List.append_nil]
  | cons part parts ih =>
    by_cases hall : String.ofList part = "all"
    · rw [readNames_cons_all hall, Except.ok.injEq] at hread
      rw [← hread, List.map_cons, hall]
      exact selects_all (List.mem_append_right _ List.mem_cons_self)
    · cases hformat : ofName? (String.ofList part) with
      | none =>
        rw [readNames_cons_unknown hall hformat] at hread
        cases hread
      | some format =>
        rw [readNames_cons_format hall hformat] at hread
        have hstep := ih (h.add format) hread
        rwa [ofName?_eq_some hformat, List.append_assoc] at hstep

/-- The first name that may not stand in a list is reported, unless `all` precedes it. -/
theorem readNames_eq_error {fault : OptionFault} :
    readNames found parts = .error fault ↔
      ∃ name, ((parts.map String.ofList).takeWhile (· ≠ "all")).find? (¬IsListable ·) = some name ∧
        fault = .format name := by
  induction parts generalizing found with
  | nil => simp [readNames]
  | cons part parts ih =>
    by_cases hall : String.ofList part = "all"
    · simp [readNames_cons_all hall, hall]
    · cases hformat : ofName? (String.ofList part) with
      | none =>
        have hname := not_isListable hall hformat
        simp [readNames_cons_unknown hall hformat, hall, hname, eq_comm]
      | some format =>
        have hname : IsListable (String.ofList part) :=
          ofName?_eq_some hformat ▸ isListable_name format
        rw [readNames_cons_format hall hformat, ih]
        simp [hall, hname]

end ReadNames

/-! ### Reading a list -/

theorem map_ofList_parts (text : String) :
    ((Text.splitOn ',' text.toList).map fun part => Text.toLower (Text.trim part)).map
      String.ofList = listedNames text :=
  List.map_map

theorem selects_readList {text : String} (h : readList text = .ok formats) :
    Selects (listedNames text) formats := by
  rw [← map_ofList_parts]
  exact selects_nil.readNames h

theorem readList_eq_error {text : String} {fault : OptionFault} :
    readList text = .error fault ↔
      ∃ name, ((listedNames text).takeWhile (· ≠ "all")).find? (¬IsListable ·) = some name ∧
        fault = .format name := by
  rw [← map_ofList_parts]
  exact readNames_eq_error

theorem exists_readList_iff {text : String} :
    (∃ formats, readList text = .ok formats) ↔
      ∀ name ∈ (listedNames text).takeWhile (· ≠ "all"), IsListable name := by
  constructor
  · rintro ⟨formats, hread⟩ name hname
    by_contra hunknown
    have hfound : ((listedNames text).takeWhile (· ≠ "all")).find? (¬IsListable ·) ≠ none := by
      rw [ne_eq, List.find?_eq_none]
      exact fun h => h name hname (decide_eq_true hunknown)
    obtain ⟨first, hfirst⟩ := Option.ne_none_iff_exists'.1 hfound
    have herror := readList_eq_error.2 ⟨first, hfirst, rfl⟩
    rw [hread] at herror
    cases herror
  · intro hnames
    cases hread : readList text with
    | ok formats => exact ⟨formats, rfl⟩
    | error fault =>
      obtain ⟨name, hname, -⟩ := readList_eq_error.1 hread
      have hunknown : ¬IsListable name := by simpa using List.find?_some hname
      exact absurd (hnames name (List.mem_of_find?_eq_some hname)) hunknown

/-- A list is accepted exactly if the names before the first `all` may stand in it, so an unknown
name is not noticed after an `all`; otherwise the first unknown name is reported. An accepted list
selects the formats of its names, once each, so lists with the same names in another order select
the same formats if both are accepted, which they are if all their names are known. -/
theorem readList_stops_at_all (text : String) :
    ((∃ formats, readList text = .ok formats) ↔
        ∀ name ∈ (listedNames text).takeWhile (· ≠ "all"), IsListable name) ∧
      (∀ fault, readList text = .error fault ↔
        ∃ name, ((listedNames text).takeWhile (· ≠ "all")).find? (¬IsListable ·) = some name ∧
          fault = .format name) ∧
      (∀ formats, readList text = .ok formats → formats.Nodup ∧
        ∀ format, format ∈ formats ↔ format.name ∈ listedNames text ∨ "all" ∈ listedNames text) ∧
      ∀ text', (listedNames text').Perm (listedNames text) →
        ((∀ name ∈ listedNames text, IsListable name) → ∃ formats, readList text' = .ok formats) ∧
        ∀ formats formats', readList text = .ok formats → readList text' = .ok formats' →
          formats'.Perm formats := by
  refine ⟨exists_readList_iff, fun fault => readList_eq_error, fun formats h => ?_,
    fun text' hperm => ⟨fun hnames => ?_, fun formats formats' h h' => ?_⟩⟩
  · exact ⟨(selects_readList h).nodup, (selects_readList h).mem_iff⟩
  · rw [exists_readList_iff]
    intro name hname
    exact hnames name (hperm.mem_iff.1 ((List.takeWhile_sublist _).subset hname))
  · exact (selects_readList h).perm (selects_readList h') hperm

/-- An unknown name is noticed before an `all` and not after it. -/
theorem unknown_after_all_unnoticed :
    listedNames "JSON, all,xml" = ["json", "all", "xml"] ∧ ¬IsListable "xml" ∧
      (∃ formats formats', readList "JSON, all,xml" = .ok formats ∧
        readList "all,xml,json" = .ok formats' ∧ formats'.Perm formats) ∧
      readList "xml,all,json" = .error (.format "xml") ∧
      ∃ formats, readList "all,json" = .ok formats := by
  have hknown : listedNames "json,all" = ["json", "all"] := by decide +kernel
  have hknown' : listedNames "all,json" = ["all", "json"] := by decide +kernel
  have hlast : listedNames "JSON, all,xml" = ["json", "all", "xml"] := by decide +kernel
  have hmiddle : listedNames "all,xml,json" = ["all", "xml", "json"] := by decide +kernel
  have hfirst : listedNames "xml,all,json" = ["xml", "all", "json"] := by decide +kernel
  obtain ⟨formats, hread⟩ := (readList_stops_at_all "JSON, all,xml").1.2 (by rw [hlast]; decide)
  obtain ⟨formats', hread'⟩ := (readList_stops_at_all "all,xml,json").1.2 (by rw [hmiddle]; decide)
  have hperm : (listedNames "all,xml,json").Perm (listedNames "JSON, all,xml") := by
    rw [hmiddle, hlast]
    decide
  have hperm' : (listedNames "all,json").Perm (listedNames "json,all") := by
    rw [hknown, hknown']
    decide
  refine ⟨hlast, by decide, ⟨formats, formats', hread, hread', ?_⟩, ?_, ?_⟩
  · exact ((readList_stops_at_all "JSON, all,xml").2.2.2 _ hperm).2 _ _ hread hread'
  · exact ((readList_stops_at_all "xml,all,json").2.1 _).2 ⟨"xml", by rw [hfirst]; decide, rfl⟩
  · exact ((readList_stops_at_all "json,all").2.2.2 _ hperm').1 (by rw [hknown]; decide)

end CodeGrade.Format
