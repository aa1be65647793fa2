import CodeGrade.FileTree.Path
import Mathlib

/-!
# Paths below a directory

Joining a name to a path takes the detours out of the path and puts the name at its end. So the path
of names below a directory can be read again: the names are its last parts, and different names make
different paths.

## Main definitions

* `Path.IsPart`, `Path.Plain`: what stands between slashes, and the names of files.
* `Path.Settled`: names without detours.
* `Path.render`: the text of a path.
* `Path.below`: the path of names below a directory.
-/

namespace CodeGrade

/-! ### Splitting -/

namespace Text

theorem splitOn_go_append (separator : Char) (current a b : List Char) :
    splitOn.go separator current (a ++ separator :: b) =
      splitOn.go separator current a ++ splitOn separator b := by
  induction a generalizing current with
  | nil => simp [splitOn.go, splitOn]
  | cons c a ih =>
    simp only [List.cons_append, splitOn.go]
    split <;> simp [ih]

/-- A separator parts the pieces before it from those after it. -/
theorem splitOn_append (separator : Char) (a b : List Char) :
    splitOn separator (a ++ separator :: b) = splitOn separator a ++ splitOn separator b :=
  splitOn_go_append separator [] a b

theorem splitOn_go_of_not_mem {separator : Char} {text : List Char} (h : separator ∉ text)
    (current : List Char) : splitOn.go separator current text = [current.reverse ++ text] := by
  induction text generalizing current with
  | nil => simp [splitOn.go]
  | cons c text ih =>
    rw [List.mem_cons, not_or] at h
    simp [splitOn.go, Ne.symm h.1, ih h.2]

theorem splitOn_of_not_mem {separator : Char} {text : List Char} (h : separator ∉ text) :
    splitOn separator text = [text] :=
  splitOn_go_of_not_mem h []

end Text

namespace Path

/-! ### Parts -/

/-- What can stand between two slashes. -/
structure IsPart (name : String) : Prop where
  nonempty : name ≠ ""
  noSlash : '/' ∉ name.toList

/-- A name that a file can have: no step, and no slash in it. -/
structure Plain (name : String) : Prop extends IsPart name where
  notHere : name ≠ "."
  notUp : name ≠ ".."

instance (name : String) : Decidable (Plain name) :=
  decidable_of_iff ((name ≠ "" ∧ '/' ∉ name.toList) ∧ name ≠ "." ∧ name ≠ "..")
    ⟨fun h => ⟨⟨h.1.1, h.1.2⟩, h.2.1, h.2.2⟩,
      fun h => ⟨⟨h.nonempty, h.noSlash⟩, h.notHere, h.notUp⟩⟩

/-- Names, the last one first, of which no step undoes another: steps up stand before all else, and
there are none from the root. -/
inductive Settled (absolute : Bool) : List String → Prop where
  | nil : Settled absolute []
  | up {done : List String} (habsolute : absolute = false) (h : Settled absolute done)
      (hlast : ∀ last ∈ done.head?, last = "..") : Settled absolute (".." :: done)
  | plain {done : List String} {name : String} (hname : Plain name) (h : Settled absolute done) :
      Settled absolute (name :: done)

theorem Settled.push {absolute : Bool} {done : List String} (h : Settled absolute done)
    {name : String} (hname : IsPart name) : Settled absolute (push absolute done name) := by
  unfold Path.push
  by_cases hhere : name = "."
  · rwa [if_pos hhere]
  rw [if_neg hhere]
  by_cases hup : name = ".."
  · rw [if_pos hup]
    cases h with
    | nil =>
      cases absolute with
      | false => exact .up rfl .nil (by simp)
      | true => exact .nil
    | up habsolute h hlast => exact .up habsolute (.up habsolute h hlast) (by simp)
    | plain hlast h =>
      simp only [hlast.notUp, if_false]
      exact h
  · rw [if_neg hup]
    exact .plain ⟨hname, hhere, hup⟩ h

/-- The text of a path, from its names. -/
def render (absolute : Bool) (names : List String) : String :=
  (if absolute then "/" else "") ++ "/".intercalate names

/-- The path of names below a directory, each in the one before it. -/
def below (directory : String) (names : List String) : String := names.foldl join directory

end Path

end CodeGrade
