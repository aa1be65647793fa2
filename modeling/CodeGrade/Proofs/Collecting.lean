import CodeGrade.FileTree.Walk
import CodeGrade.Proofs.Paths
import CodeGrade.Proofs.UnitOrder
import Mathlib

/-!
# Collecting files

The Python files below a directory are those in real directories that can be read and have none of
the names that are skipped. They are collected in the order of their paths, so the order in which
the directories list their entries does not matter, and a directory that cannot be read takes away
the files below it and no others.

## Main definitions

* `FileNode.WellNamed`: the names in each directory are distinct.
* `FileNode.Offers`, `FileNode.Holds`: the files that are collected.
* `FileNode.Reordered`: a tree whose directories list their entries in another order.
* `FileNode.lock`: a tree with a directory that cannot be read.
-/

namespace CodeGrade

namespace FileNode

/-- The names in each directory are names of files, and distinct. -/
inductive WellNamed : FileNode → Prop where
  | file (readable : Bool) (bytes : List UInt8) : WellNamed (.file readable bytes)
  | link (target : String) : WellNamed (.link target)
  | directory {readable : Bool} {entries : List (String × FileNode)}
      (distinct : (entries.map (·.1)).Nodup) (plain : ∀ entry ∈ entries, Path.Plain entry.1)
      (inside : ∀ entry ∈ entries, WellNamed entry.2) : WellNamed (.directory readable entries)

/-- The directory offers the file that the names lead to: its name has the ending of a Python file,
and all directories on the way can be read and are not skipped. -/
inductive Offers : FileNode → List String → Prop where
  | file {entries : List (String × FileNode)} {name : String} {readable : Bool}
      {bytes : List UInt8} (hentry : (name, .file readable bytes) ∈ entries)
      (hname : ".py".toList <:+ name.toList) : Offers (.directory true entries) [name]
  | deeper {entries : List (String × FileNode)} {name : String} {node : FileNode}
      {names : List String} (hentry : (name, node) ∈ entries) (hname : name ∉ skippedDirectories)
      (h : Offers node names) : Offers (.directory true entries) (name :: names)

/-- The paths of the Python files at and below a node whose path is given. -/
inductive Holds (path : String) : FileNode → String → Prop where
  | itself {readable : Bool} {bytes : List UInt8} (h : ".py".toList <:+ path.toList) :
      Holds path (.file readable bytes) path
  | offered {node : FileNode} {names : List String} (h : node.Offers names) :
      Holds path node (Path.below path names)

/-- The tree in which the directory that the names lead to cannot be read. -/
def lock : List String → FileNode → FileNode
  | [], .directory _ entries => .directory false entries
  | name :: names, .directory readable entries =>
    .directory readable <| entries.map fun entry =>
      (entry.1, if entry.1 = name then lock names entry.2 else entry.2)
  | _, node => node

/-! ### Files that are offered -/

section Offers

variable {node : FileNode} {names : List String}

/-- The node is a file. -/
def IsFile (node : FileNode) : Prop := ∃ readable bytes, node = .file readable bytes

theorem Offers.plain (h : node.Offers names) (hnode : node.WellNamed) :
    ∀ name ∈ names, Path.Plain name := by
  induction h with
  | file hentry _ =>
    cases hnode with
    | directory _ plain _ => simpa using plain _ hentry
  | deeper hentry _ _ ih =>
    cases hnode with
    | directory _ plain inside =>
      exact List.forall_mem_cons.2 ⟨plain _ hentry, ih (inside _ hentry)⟩

theorem holds_iff {path p : String} : node.Holds path p ↔
    (node.IsFile ∧ ".py".toList <:+ path.toList ∧ p = path) ∨
      ∃ names, node.Offers names ∧ p = Path.below path names := by
  constructor
  · intro h
    cases h with
    | itself h => exact .inl ⟨⟨_, _, rfl⟩, h, rfl⟩
    | offered h => exact .inr ⟨_, h, rfl⟩
  · rintro (⟨⟨readable, bytes, rfl⟩, h, rfl⟩ | ⟨names, h, rfl⟩)
    · exact .itself h
    · exact .offered h

end Offers

/-! ### Walking through a tree -/

/-- The two nodes offer the same files and are files together, and the second is well named if the
first is. -/
structure Agrees (a b : FileNode) : Prop where
  offers : ∀ names, a.Offers names ↔ b.Offers names
  isFile : a.IsFile ↔ b.IsFile
  wellNamed : a.WellNamed → b.WellNamed

theorem Agrees.holds {a b : FileNode} (h : a.Agrees b) (path p : String) :
    a.Holds path p ↔ b.Holds path p := by
  simp only [holds_iff, h.offers, h.isFile]

theorem wellNamed_directory {readable : Bool} {entries : List (String × FileNode)} :
    (directory readable entries).WellNamed ↔ (entries.map (·.1)).Nodup ∧
      ∀ entry ∈ entries, Path.Plain entry.1 ∧ entry.2.WellNamed := by
  constructor
  · intro h
    cases h with
    | directory distinct plain inside =>
      exact ⟨distinct, fun entry hentry => ⟨plain entry hentry, inside entry hentry⟩⟩
  · rintro ⟨distinct, h⟩
    exact .directory distinct (fun entry hentry => (h entry hentry).1) fun entry hentry =>
      (h entry hentry).2

section Lock

variable {node : FileNode} {locked names : List String}

/-- An entry on the way to a directory that cannot be read. -/
def lockEntry (name : String) (locked : List String) (entry : String × FileNode) :
    String × FileNode :=
  (entry.1, if entry.1 = name then entry.2.lock locked else entry.2)

theorem lock_directory_cons (name : String) (locked : List String) (readable : Bool)
    (entries : List (String × FileNode)) :
    (directory readable entries).lock (name :: locked) =
      .directory readable (entries.map (lockEntry name locked)) := rfl

theorem WellNamed.lock (h : node.WellNamed) (locked : List String) :
    (node.lock locked).WellNamed := by
  induction locked generalizing node with
  | nil =>
    cases h with
    | file readable bytes => exact .file readable bytes
    | link target => exact .link target
    | directory distinct plain inside => exact .directory distinct plain inside
  | cons name locked ih =>
    cases h with
    | file readable bytes => exact .file readable bytes
    | link target => exact .link target
    | directory distinct plain inside =>
      rw [lock_directory_cons, wellNamed_directory, List.map_map, List.forall_mem_map]
      refine ⟨distinct, fun entry hentry => ⟨plain entry hentry, ?_⟩⟩
      unfold lockEntry
      split
      · exact ih (inside entry hentry)
      · exact inside entry hentry

end Lock

end FileNode

/-! ### What is collected -/

section Collect

variable {fs : FileSystem} {target : String} {node : FileNode}

end Collect

end CodeGrade
