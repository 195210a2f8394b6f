import ClassFormat.Bytes
import ClassFormat.Source.Path

namespace ClassFormat

structure ArchiveEntry where
  name : String
  isDirectory : Bool
  bytes : Bytes

/-- What a file holds. The inside of an archive is given by its entries. -/
inductive Content where
  | plain (bytes : Bytes)
  | archive (entries : List ArchiveEntry)

/-- What reading a file gives. Of an archive that is the signature of its first record, which
already tells that it is no class file. -/
def Content.bytes : Content → Bytes
  | .plain bytes => bytes
  | .archive [] => [0x50, 0x4b, 0x05, 0x06]
  | .archive (_ :: _) => [0x50, 0x4b, 0x03, 0x04]

inductive FileError where
  | missing
  | occupied
  | notADirectory
  | isADirectory
  | nameTooLong
  | nulInName
  deriving DecidableEq

def FileError.message : FileError → String
  | .missing => "No such file or directory (os error 2)"
  | .occupied => "File exists (os error 17)"
  | .notADirectory => "Not a directory (os error 20)"
  | .isADirectory => "Is a directory (os error 21)"
  | .nameTooLong => "File name too long (os error 36)"
  | .nulInName => "file name contained an unexpected NUL byte"

/-- A path that could not be walked, and the place at or below it where that was found. -/
structure WalkFailure where
  path : Path
  place : Path
  error : FileError
  deriving DecidableEq

/-- Files by the names on the way to them from the root, and directories that may be empty.
Directories on the way to something exist without being listed. Paths that do not start at the root
start at the working directory. -/
structure FileTree where
  files : List (List Bytes × Content) := []
  directories : List (List Bytes) := []
  workingDirectory : List Bytes := []

namespace FileTree

def file? (tree : FileTree) (names : List Bytes) : Option Content :=
  (tree.files.find? (·.1 == names)).map (·.2)

def isDirectory (tree : FileTree) (names : List Bytes) : Bool :=
  names.isPrefixOf tree.workingDirectory || tree.directories.any names.isPrefixOf ||
    tree.files.any fun f => f.1 != names && names.isPrefixOf f.1

/-- The names of something in a directory, whether it is there or not. -/
def enter (tree : FileTree) (names : List Bytes) (name : Bytes) :
    Except FileError (List Bytes) :=
  if (tree.file? names).isSome then .error .notADirectory
  else if name.contains 0 then .error .nulInName
  else if 255 < name.length then .error .nameTooLong
  else .ok (names ++ [name])

/-- Follows components from the directory `names`. The root is its own parent. -/
def followFrom (tree : FileTree) : (names : List Bytes) → List PathComponent →
    Except FileError (List Bytes)
  | names, [] => .ok names
  | _, .root :: components => tree.followFrom [] components
  | names, .current :: components => tree.followFrom names components
  | names, .parent :: components =>
    if (tree.file? names).isSome then .error .notADirectory
    else tree.followFrom names.dropLast components
  | names, .normal name :: components =>
    match tree.enter names name with
    | .error error => .error error
    | .ok names =>
      if (tree.file? names).isSome || tree.isDirectory names then tree.followFrom names components
      else .error .missing

def follow (tree : FileTree) (components : List PathComponent) : Except FileError (List Bytes) :=
  tree.followFrom tree.workingDirectory components

def endsAsDirectory (path : Path) : Bool :=
  path.endsInSlash || [Path.slash, Path.dot].isSuffixOf path.bytes

/-- The names that a path leads to. -/
def resolve (tree : FileTree) (path : Path) : Except FileError (List Bytes) := do
  if path.bytes = [] then .error .missing
  else if path.isTooLong then .error .nameTooLong
  else
    let names ← tree.follow path.components
    if endsAsDirectory path && (tree.file? names).isSome then .error .notADirectory else .ok names

def read (tree : FileTree) (path : Path) : Except FileError Content := do
  match tree.file? (← tree.resolve path) with
  | some content => .ok content
  | none => .error .isADirectory

/-- The directories below a directory by the names on the way from it, outer ones first. -/
def directoriesBelow (tree : FileTree) (names : List Bytes) : List (List Bytes) :=
  let ways := tree.directories ++ tree.files.map (·.1.dropLast)
  ((ways.filter names.isPrefixOf).map (·.drop names.length)).flatMap fun inside =>
    (List.range inside.length).map fun n => inside.take (n + 1)

/-- The paths of all files at or below a path. Each directory is opened by its path. -/
def walk (tree : FileTree) (path : Path) : Except WalkFailure (List Path) :=
  match tree.resolve path with
  | .error error => .error { path, place := path, error }
  | .ok names =>
    if (tree.file? names).isSome then .ok [path]
    else
      match ((tree.directoriesBelow names).map path.join).find? Path.isTooLong with
      | some place => .error { path, place, error := .nameTooLong }
      | none =>
        .ok (((tree.files.map (·.1)).filter names.isPrefixOf).map fun inside =>
          path.join (inside.drop names.length))

end FileTree

end ClassFormat
