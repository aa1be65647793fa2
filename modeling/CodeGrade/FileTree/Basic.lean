import CodeGrade.FileTree.Path
import CodeGrade.Text.Utf8

/-!
# File trees

Files and directories as a value: what a program can see of a file system, and what it changes
there. Paths are followed the way a file system does, through symbolic links too.

## Main definitions

* `FileNode`: a file, a directory or a symbolic link.
* `FileSystem`: a tree of them, and the directory that relative paths start from.
* `FileFault`: why an operation failed.
* `FileSystem.stat`, `FileSystem.readText`, `FileSystem.list`, `FileSystem.makeDirectories`,
  `FileSystem.writeText`: the operations.
-/

namespace CodeGrade

/-- A file, a directory or a symbolic link. A directory holds its entries in the order in which
they are listed. -/
inductive FileNode where
  | file (readable : Bool) (bytes : List UInt8)
  | directory (readable : Bool) (entries : List (String × FileNode))
  | link (target : String)
  deriving Inhabited

/-- What went wrong in an operation on files. -/
inductive FileError where
  | notFound
  | notDirectory
  | alreadyExists
  | isDirectory
  | denied
  | tooManyLinks
  deriving DecidableEq, Repr

/-- The wording of an error. -/
def FileError.text : FileError → String
  | notFound => "ENOENT: no such file or directory"
  | notDirectory => "ENOTDIR: not a directory"
  | alreadyExists => "EEXIST: file already exists"
  | isDirectory => "EISDIR: illegal operation on a directory"
  | denied => "EACCES: permission denied"
  | tooManyLinks => "ELOOP: too many symbolic links encountered"

/-- A failed operation on files: the error, the operation, and the path it was given. -/
structure FileFault where
  error : FileError
  operation : String
  path : Option String
  deriving DecidableEq, Repr

/-- The wording of a failed operation. -/
def FileFault.message (fault : FileFault) : String :=
  fault.error.text ++ ", " ++ fault.operation ++
    (match fault.path with
    | some path => " '" ++ path ++ "'"
    | none => "")

namespace FileNode

/-- The entries of a directory. -/
def entries? : FileNode → Option (List (String × FileNode))
  | directory _ entries => some entries
  | _ => none

/-- Whether the node is a directory. -/
def isDirectory (node : FileNode) : Bool := node.entries?.isSome

/-- The entry of a directory with a given name. -/
def entry? (node : FileNode) (name : String) : Option FileNode :=
  node.entries?.bind fun entries => (entries.find? (·.1 = name)).map (·.2)

/-- The node at the end of a list of names, no link being followed. -/
def at? : List String → FileNode → Option FileNode
  | [], node => some node
  | name :: rest, node => (node.entry? name).bind (at? rest)

/-- Sets an entry, in the order of names. -/
def setEntry (name : String) (node : FileNode) :
    List (String × FileNode) → List (String × FileNode)
  | [] => [(name, node)]
  | (other, old) :: rest =>
    if other = name then (name, node) :: rest
    else if name < other then (name, node) :: (other, old) :: rest
    else (other, old) :: setEntry name node rest

/-- Puts a node at the end of a list of names, making the directories on the way. -/
def put (node : FileNode) : List String → FileNode → FileNode
  | [], _ => node
  | name :: rest, directory readable entries =>
    let old := ((entries.find? (·.1 = name)).map (·.2)).getD (directory true [])
    directory readable (setEntry name (put node rest old) entries)
  | _ :: _, other => other

end FileNode

/-- A tree of files. `mount` is how the path of its root is written, without a slash at the end, and
`cwd` names the directory that relative paths start from. -/
structure FileSystem where
  mount : String
  cwd : List String
  root : FileNode

namespace FileSystem

/-- The names in a path, a slash at its end counting as a step to the same directory. -/
def steps (path : String) : List String :=
  Path.parts path ++ if Path.endsInSlash path then ["."] else []

/-- The names from the root on of a path; none if it leads outside the tree. -/
def absolute? (fs : FileSystem) (path : String) : Option (List String) :=
  if path.isEmpty then none
  else if path = fs.mount then some []
  else
    match Path.below? fs.mount path with
    | some rest => some (steps rest)
    | none => if Path.isAbsolute path then none else some (fs.cwd ++ steps path)

/-- The path of names from the root on. -/
def display (fs : FileSystem) (names : List String) : String :=
  if names.isEmpty then (if fs.mount.isEmpty then "/" else fs.mount)
  else fs.mount ++ "/" ++ "/".intercalate names

/-- The path, from the root on and without detours. -/
def resolve (fs : FileSystem) (path : String) : String :=
  if path.isEmpty then fs.display fs.cwd
  else
    match fs.absolute? path with
    | some names => fs.display (Path.simplify true names)
    | none => Path.normalize path

/-- Follows names from a directory on, through at most `links` symbolic links; gives the names of the
place reached, without links. -/
def follow (root : FileNode) (mount : String) (links : Nat) (here : List String) :
    List String → Except FileError (List String)
  | [] => .ok here
  | name :: rest =>
    match root.at? here with
    | some (.directory _ _) =>
      if name = "." then follow root mount links here rest
      else if name = ".." then follow root mount links here.dropLast rest
      else
        match root.at? (here ++ [name]) with
        | none => .error .notFound
        | some (.link target) =>
          match links with
          | 0 => .error .tooManyLinks
          | links + 1 =>
            match Path.below? mount target with
            | some inside => follow root mount links [] (steps inside ++ rest)
            | none =>
              if Path.isAbsolute target then .error .notFound
              else follow root mount links here (steps target ++ rest)
        | some _ => follow root mount links (here ++ [name]) rest
    | _ => .error .notDirectory
termination_by names => (links, names.length)

/-- The place that a path leads to. -/
def locate (fs : FileSystem) (path : String) : Except FileError (List String) :=
  match fs.absolute? path with
  | some names => follow fs.root fs.mount 40 [] names
  | none => .error .notFound

/-- The node that a path leads to. -/
def node (fs : FileSystem) (path : String) : Except FileError FileNode := do
  let names ← fs.locate path
  match fs.root.at? names with
  | some node => .ok node
  | none => .error .notFound

/-- Names the operation that failed. -/
def blame {α : Type} (operation path : String) : Except FileError α → Except FileFault α :=
  Except.mapError fun error => ⟨error, operation, some path⟩

/-- What a path leads to. -/
def stat (fs : FileSystem) (path : String) : Except FileFault FileNode :=
  blame "stat" path (fs.node path)

/-- The text of a file. A directory that may be read can be opened, but has no text. -/
def readText (fs : FileSystem) (path : String) : Except FileFault (List Char) := do
  match ← blame "open" path (fs.node path) with
  | .file true bytes => .ok (Text.decodeUtf8 bytes)
  | .file false _ | .directory false _ => .error ⟨.denied, "open", some path⟩
  | _ => .error ⟨.isDirectory, "read", none⟩

/-- The entries of a directory. -/
def list (fs : FileSystem) (path : String) : Except FileFault (List (String × FileNode)) := do
  match ← blame "scandir" path (fs.node path) with
  | .directory readable entries =>
    if readable then .ok entries else .error ⟨.denied, "scandir", some path⟩
  | _ => .error ⟨.notDirectory, "scandir", some path⟩

/-- Makes the directory at the end of `here` and `name`, where it does not exist; gives the changed
root and the names of the directory, without links. -/
def makeDirectory (root : FileNode) (mount : String) (here : List String) (name : String)
    (isLast : Bool) : Except FileError (FileNode × List String) :=
  match follow root mount 40 here [name] with
  | .ok names =>
    if (root.at? names).any FileNode.isDirectory then .ok (root, names)
    else .error (if isLast then .alreadyExists else .notDirectory)
  | .error .notFound =>
    match root.at? (here ++ [name]) with
    | some _ => .error .notFound
    | none => .ok (FileNode.put (.directory true []) (here ++ [name]) root, here ++ [name])
  | .error error => .error error

/-- Makes directories one below the other, where they do not exist. -/
def makeAll (root : FileNode) (mount : String) (here : List String) :
    List String → Except FileError FileNode
  | [] => .ok root
  | name :: rest => do
    let (root, here) ← makeDirectory root mount here name rest.isEmpty
    makeAll root mount here rest

/-- Makes a directory and those around it, where they do not exist. -/
def makeDirectories (fs : FileSystem) (path : String) : Except FileFault FileSystem :=
  blame "mkdir" path <|
    match fs.absolute? path with
    | some names => do
      let root ← makeAll fs.root fs.mount [] names
      .ok { fs with root }
    | none => .error .notFound

/-- Writes a file, in an existing directory. -/
def writeText (fs : FileSystem) (path text : String) : Except FileFault FileSystem :=
  let written (names : List String) : FileSystem :=
    { fs with root := FileNode.put (.file true text.toUTF8.toList) names fs.root }
  blame "open" path <|
    match fs.locate path with
    | .ok names =>
      if (fs.root.at? names).any FileNode.isDirectory then .error .isDirectory
      else .ok (written names)
    | .error .notFound =>
      match (fs.absolute? path).bind fun names => names.getLast?.map (names.dropLast, ·) with
      | some (directory, name) => do
        let names ← follow fs.root fs.mount 40 [] directory
        .ok (written (names ++ [name]))
      | none => .error .notFound
    | .error error => .error error

end FileSystem

end CodeGrade
