import CodeGrade.Proofs.Blocks
import CodeGrade.Proofs.Forest
import CodeGrade.Proofs.HeaderForm
import Mathlib

/-!
# The lines beside a header

An element takes two things from the lines beside its header: its decorators from the lines above
it, and its docstring from the line below it, or from the header's own line if the body stands
there. While the statements are read, both are carried from one statement to the next: the
decorators until a statement that is none, the element that may be documented for one statement.

## Main definitions

* `LogicalLine.decorator?`: the decorator that a line is.
* `EndsDecorated`: the decorators at the end of some lines.
* `Outline.Adorns`: the lines beside a header say what its element has.
-/

namespace CodeGrade

/-- The decorator that a line is: the text after the sign, without the blanks around it. -/
def LogicalLine.decorator? (line : LogicalLine) : Option (List Char) :=
  match line.code with
  | '@' :: rest => some (Text.trim rest)
  | _ => none

/-- The decorators are those of the longest run of decorators that the lines end with. -/
def EndsDecorated (lines : List LogicalLine) (decorators : List (List Char)) : Prop :=
  ∃ before run, lines = before ++ run ∧ run.map (·.decorator?) = decorators.map some ∧
    ∀ line ∈ before.getLast?, line.decorator? = none

/-- The element has the decorators above its header, and the docstring of its body: the first line
of the block below the header, or what stands after the header's colon. -/
structure Outline.Adorns (outline : Outline) (header : LogicalLine) (e : Element) : Prop where
  startLine : e.startLine = header.startLine
  line : outline.lines[header.index]? = some header
  block : header.opensBlock = true → ∃ next, outline.lines[header.index + 1]? = some next ∧
    e.hasDocstring = isStringStatement next.code
  inline : header.opensBlock = false → ∃ colon, IsHeaderColon header.code colon ∧
    e.hasDocstring = isStringStatement (Text.trim (header.code.drop (colon + 1)))
  decorators : EndsDecorated (outline.lines.toList.take header.index) e.decorators

/-! ### One statement -/

theorem endsDecorated_nil : EndsDecorated [] [] := ⟨[], [], by simp⟩

theorem nextDecorators_eq (decorators : List (List Char)) (line : LogicalLine) :
    Builder.nextDecorators decorators line.code =
      line.decorator?.elim [] fun decorator => decorators ++ [decorator] := by
  unfold Builder.nextDecorators LogicalLine.decorator?
  grind

/-- A decorator prolongs the run, and any other statement ends it. -/
theorem EndsDecorated.append {lines : List LogicalLine} {decorators : List (List Char)}
    (h : EndsDecorated lines decorators) (line : LogicalLine) :
    EndsDecorated (lines ++ [line]) (Builder.nextDecorators decorators line.code) := by
  obtain ⟨before, run, rfl, hrun, hbefore⟩ := h
  rw [nextDecorators_eq]
  cases hline : line.decorator? with
  | none =>
    refine ⟨before ++ run ++ [line], [], by simp, by simp, ?_⟩
    intro last hlast
    obtain rfl : line = last := by simpa using hlast
    exact hline
  | some decorator =>
    refine ⟨before, run ++ [line], by simp, ?_, hbefore⟩
    simp [hrun, hline]

theorem Element.adornment_of_ofHeader {statement : Statement} {header : Header}
    {place : Placement} {e : Element} (h : Element.ofHeader statement header place = .ok e) :
    e.decorators = place.decorators ∧ e.hasDocstring = isStringStatement header.inlineBody := by
  simp only [Element.ofHeader] at h
  grind

namespace Builder

variable {b b' : Builder} {statement : Statement} {header : Option Header} {element : Option Nat}

/-- What is known of the element of line `i` when some of the lines below it may still be to
come. -/
structure Adorns (lines : Array LogicalLine) (i : Nat) (line : LogicalLine) (e : Element) :
    Prop where
  block : line.opensBlock = true → ∀ next, lines[i + 1]? = some next →
    e.hasDocstring = isStringStatement next.code
  inline : line.opensBlock = false → ∃ colon, IsHeaderColon line.code colon ∧
    e.hasDocstring = isStringStatement (Text.trim (line.code.drop (colon + 1)))
  decorators : EndsDecorated (lines.toList.take i) e.decorators

/-- The decorators that are carried on are those at the end of the lines, the element that may be
documented is that of the last line if a block is to come, and the other elements are as the lines
beside their headers say. -/
structure Adorned (b : Builder) : Prop where
  placed : b.Placed
  decorators : EndsDecorated b.lines.toList b.decorators
  documenting : ∀ {i : Nat} {line : LogicalLine}, b.lines[i]? = some line → i + 1 = b.lines.size →
    b.documenting = if line.opensBlock then place? b.lines i else none
  element : ∀ {i k : Nat} {line : LogicalLine}, b.lines[i]? = some line →
    place? b.lines i = some k → ∃ e, b.elements[k]? = some e ∧ Adorns b.lines i line e

namespace Adorned

/-- An element may be documented right after its header, if a block is to come. -/
theorem documenting_eq_some (h : b.Adorned) {i k : Nat} {line : LogicalLine}
    (hline : b.lines[i]? = some line) (hk : place? b.lines i = some k) :
    b.documenting = some k ↔ i + 1 = b.lines.size ∧ line.opensBlock = true := by
  have hi := (Array.getElem?_eq_some_iff.1 hline).1
  constructor
  · intro hdocumenting
    obtain ⟨last, hlast⟩ : ∃ last, b.lines[b.lines.size - 1]? = some last := by
      exact ⟨_, Array.getElem?_eq_getElem (by omega)⟩
    rw [h.documenting hlast (by omega)] at hdocumenting
    split at hdocumenting
    · rename_i hopens
      obtain rfl := place?_inj hk hdocumenting
      obtain rfl := Option.some.inj (hline.symm.trans hlast)
      exact ⟨by omega, hopens⟩
    · simp at hdocumenting
  · rintro ⟨hsize, hopens⟩
    rw [h.documenting hline hsize, if_pos hopens, hk]

/-- The element of a definition that was read before. -/
theorem old (h : b.Adorned) (added : Added b statement b' header element) {i k : Nat}
    {line : LogicalLine} (hline : b.lines[i]? = some line) (hk : place? b.lines i = some k) :
    ∃ e, b'.elements[k]? = some e ∧ Adorns b'.lines i line e := by
  obtain ⟨e, he, hadorns⟩ := h.element hline hk
  have hi := (Array.getElem?_eq_some_iff.1 hline).1
  have hdocumenting := h.documenting_eq_some hline hk
  refine ⟨_, added.getElem?_elements he, ⟨fun hopens next hnext => ?_, fun hopens => ?_, ?_⟩⟩
  · rw [added.lines] at hnext
    rcases line_of_push hnext with ⟨hnext, hlt⟩ | ⟨rfl, hsize⟩
    · have hother : b.documenting ≠ some k := by
        rw [ne_eq, hdocumenting]
        omega
      simpa [afterStatement, hother] using hadorns.block hopens next hnext
    · have hnow : b.documenting = some k := hdocumenting.2 ⟨hsize, hopens⟩
      simp [afterStatement, hnow, nextLine, logicalLine]
  · have hother : b.documenting ≠ some k := by simp [hdocumenting, hopens]
    simpa [afterStatement, hother] using hadorns.inline hopens
  · have htake : b'.lines.toList.take i = b.lines.toList.take i := by
      rw [added.lines, Array.toList_push, List.take_append_of_le_length (by simpa using hi.le)]
    rw [htake]
    exact hadorns.decorators

/-- The element of a definition that was just read. -/
theorem new (h : b.Adorned) (added : Added b statement b' header element) {k : Nat}
    (hk : place? b'.lines b.lines.size = some k) :
    ∃ e, b'.elements[k]? = some e ∧
      Adorns b'.lines b.lines.size (b.nextLine statement header) e := by
  rw [← (h.placed.element_eq added).1] at hk
  rcases define_eq_ok added.defined with ⟨-, -, rfl⟩ | ⟨header, e, rfl, -, he, helements, rfl⟩
  · simp at hk
  · obtain rfl : (b.touched statement).size = k := Option.some.inj hk
    obtain ⟨hdecorators, hdocstring⟩ := Element.adornment_of_ofHeader he
    obtain ⟨-, hcolon, hbody⟩ := Header.read_eq_some.1 added.read
    refine ⟨e, helements ▸ Array.getElem?_push_size, ⟨fun _ next hnext => ?_, fun _ => ?_, ?_⟩⟩
    · simp [added.lines] at hnext
    · exact ⟨header.colon, hcolon, by rw [hdocstring, hbody]; rfl⟩
    · have htake : b'.lines.toList.take b.lines.size = b.lines.toList := by
        simp [added.lines]
      rw [htake, hdecorators]
      exact h.decorators

theorem step (h : b.Adorned) (added : Added b statement b' header element) : b'.Adorned := by
  refine ⟨h.placed.step added, ?_, fun {i line} hline hi => ?_, fun {i k line} hline hk => ?_⟩
  · rw [added.lines, added.decorators, Array.toList_push]
    exact h.decorators.append _
  · rw [added.lines, Array.size_push, add_left_inj] at hi
    obtain rfl := hi
    obtain rfl : b.nextLine statement header = line := by simpa [added.lines] using hline
    rw [added.documenting, (h.placed.element_eq added).1]
  · rcases line_of_push (added.lines ▸ hline) with ⟨hline, hi⟩ | ⟨rfl, rfl⟩
    · rw [added.lines, place?_push hi] at hk
      exact h.old added hline hk
    · exact h.new added hk

end Adorned

theorem adorned_of_steps {statements : List Statement} (h : empty.steps statements = .ok b) :
    b.Adorned := by
  refine invariant h ⟨placed_empty, endsDecorated_nil, fun hline => ?_, fun hline => ?_⟩
    fun _ _ _ _ _ hb added => hb.step added
  all_goals simp [empty] at hline

end Builder

/-! ### Whole outlines -/

/-- Each element of an outline has the decorators and the docstring that stand beside its
header. -/
theorem elements_adorned_by_neighbours {unit : SourceUnit} {outline : Outline}
    (houtline : Outline.ofUnit unit = .ok outline) :
    List.Forall₂ outline.Adorns (outline.lines.toList.filter (·.isElementHeader))
      outline.elements.toList := by
  have hnested := Outline.wellNested houtline
  obtain ⟨masked, b, -, hsteps, rfl⟩ := Outline.ofUnit_eq_ok.1 houtline
  refine hnested.forall₂_of_heads fun {i k header e} hheads => ?_
  have hindex := hnested.offSide.index hheads.line
  obtain ⟨e', he', hadorns⟩ :=
    (Builder.adorned_of_steps hsteps).element hheads.line hheads.place
  obtain rfl : e = e' := Option.some.inj (hheads.element.symm.trans he')
  obtain rfl := hindex.symm
  refine ⟨hheads.describes.startLine, hheads.line, fun hopens => ?_, hadorns.inline,
    hadorns.decorators⟩
  obtain ⟨next, hnext, -⟩ := Builder.exists_body_of_steps hsteps hheads.line hopens
  exact ⟨next, hnext, hadorns.block hopens next hnext⟩

/-- A class with two decorators and a docstring, a method with its docstring beside the header, and
a decorated method whose body begins with another definition. -/
def adornedDefinitions : SourceUnit where
  name := "adorned"
  lines := ["@first".toList, "@ second".toList, "class A:".toList, "  'Documented.'".toList,
    "  def f(): 'Documented.'".toList, "  @third".toList, "  def g():".toList,
    "    def h():".toList, "      x".toList]

theorem adornedDefinitions_neighbours :
    ∃ outline, Outline.ofUnit adornedDefinitions = .ok outline ∧
      (outline.elements.map fun e => (e.decorators, e.hasDocstring)) =
        #[(["first".toList, "second".toList], true), ([], true), (["third".toList], false),
          ([], false)] ∧
      List.Forall₂ outline.Adorns (outline.lines.toList.filter (·.isElementHeader))
        outline.elements.toList := by
  have hread : (Outline.ofUnit adornedDefinitions).map
      (·.elements.map fun e => (e.decorators, e.hasDocstring)) =
        .ok #[(["first".toList, "second".toList], true), ([], true), (["third".toList], false),
          ([], false)] := by decide +kernel
  obtain ⟨outline, houtline, hadornment⟩ := ok_map_iff.1 hread
  exact ⟨outline, houtline, hadornment, elements_adorned_by_neighbours houtline⟩

end CodeGrade
