import FlatSyntax.Text.Quoted

/-!
File systems, seen as what each path leads to, and file trees: the files and directories below a
working directory, looked up by following the components of a path.
-/

namespace FlatSyntax

namespace FilePath

/-- Split a path at its slashes. Empty components stand for repeated, leading and final slashes. -/
def components : List Char → List (List Char)
  | [] => [[]]
  | c :: rest =>
      if c = '/' then [] :: components rest
      else
        match components rest with
        | [] => [[c]]
        | component :: more => (c :: component) :: more

/-- How a path that starts at the root of the file system is introduced. Exactly two slashes are
kept apart from one. -/
def root (path : List Char) : List Char :=
  match path with
  | ['/', '/'] => ['/', '/']
  | '/' :: '/' :: c :: _ => if c = '/' then ['/'] else ['/', '/']
  | '/' :: _ => ['/']
  | _ => []

/-- The form in which a path is shown: without empty components and without those that stay in
place. A path of nothing else is the working directory. -/
def normalize (path : String) : String :=
  let text := path.toList
  let kept := (components text).filter fun component => component ≠ [] ∧ component ≠ ['.']
  let shown := root text ++ ['/'].intercalate kept
  if shown.isEmpty then "." else String.ofList shown

end FilePath

inductive FileEntry where
  | file (bytes : List UInt8)
  | directory
deriving DecidableEq, Repr

/-- Why a path leads to no file. -/
inductive FileFault where
  | notFound
  | isDirectory
  /-- A component that is not the last one is no directory. -/
  | notDirectory
deriving DecidableEq, Repr

namespace FileFault

/-- The number and wording of the fault. -/
def reason : FileFault → String
  | notFound => "[Errno 2] No such file or directory"
  | isDirectory => "[Errno 21] Is a directory"
  | notDirectory => "[Errno 20] Not a directory"

def message (fault : FileFault) (path : String) : String :=
  fault.reason ++ ": " ++ Text.quoted path

end FileFault

/-- What each path leads to. -/
abbrev FileSystem := String → Except FileFault FileEntry

/-- The bytes of the file that a path leads to. -/
def FileSystem.read (files : FileSystem) (path : String) : Except FileFault (List UInt8) :=
  match files path with
  | .ok (.file bytes) => .ok bytes
  | .ok .directory => .error .isDirectory
  | .error fault => .error fault

/-- The entries of a tree with their paths from the working directory. A directory is there as soon
as anything is in it. -/
structure FileTree where
  entries : List (List (List Char) × FileEntry) := []
deriving DecidableEq, Repr

namespace FileTree

/-- Add an entry at a path. -/
def add (tree : FileTree) (path : String) (entry : FileEntry) : FileTree :=
  { entries := tree.entries ++
      [((FilePath.components path.toList).filter
          fun component => component ≠ [] ∧ component ≠ ['.'], entry)] }

/-- What is at a place, given as the names that lead there from the working directory. -/
def entryAt? (tree : FileTree) (place : List (List Char)) : Option FileEntry :=
  match tree.entries.find? (·.1 = place) with
  | some (_, entry) => some entry
  | none =>
      if place = [] ∨ tree.entries.any (fun (names, _) => place.isPrefixOf names) then
        some .directory
      else none

/-- Follow the components of a path from a directory, which is `none` outside the tree. Outside the
tree only the directories above it are known. -/
def follow (tree : FileTree) :
    (directory : Option (List (List Char))) → List (List Char) → Except FileFault FileEntry
  | _, [] => .ok .directory
  | directory, component :: more =>
      if component = [] ∨ component = ['.'] then follow tree directory more
      else if component = ['.', '.'] then
        match directory with
        | some (name :: names) => follow tree (some (name :: names).dropLast) more
        | _ => follow tree none more
      else
        match directory with
        | none => .error .notFound
        | some names =>
            match tree.entryAt? (names ++ [component]) with
            | none => .error .notFound
            | some .directory => follow tree (some (names ++ [component])) more
            | some (.file bytes) =>
                if more.isEmpty then .ok (.file bytes) else .error .notDirectory

/-- The file system of a tree. A path that starts at the root leaves the tree, and the empty path
leads nowhere. -/
def fileSystem (tree : FileTree) : FileSystem := fun path =>
  let text := path.toList
  if text.isEmpty then .error .notFound
  else tree.follow (if text.head? = some '/' then none else some []) (FilePath.components text)

end FileTree

end FlatSyntax
