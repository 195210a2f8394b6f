import ClassFormat.Source.Tree

namespace ClassFormat.FileTree

def leadsToDirectory (tree : FileTree) (components : List PathComponent) : Bool :=
  match tree.follow components with
  | .ok names => tree.isDirectory names
  | .error _ => false

def makeDirectory (tree : FileTree) (components : List PathComponent) :
    Except FileError FileTree := do
  let outer ← tree.follow components.dropLast
  match components.getLast? with
  | some (.normal name) =>
    let names ← tree.enter outer name
    if (tree.file? names).isSome || tree.isDirectory names then .error .occupied
    else .ok { tree with directories := tree.directories ++ [names] }
  | _ => if (tree.file? outer).isSome then .error .notADirectory else .error .occupied

/-- Makes a directory in one that is there, unless there is one already. -/
def ensureDirectory (tree : FileTree) (components : List PathComponent) :
    Except FileError FileTree :=
  match tree.makeDirectory components with
  | .error .occupied => if tree.leadsToDirectory components then .ok tree else .error .occupied
  | result => result

/-- The directories on the way to something, the innermost first. -/
def outerDirectories (components : List PathComponent) : List (List PathComponent) :=
  (List.range components.length).reverse.map components.take

/-- Makes sure of the first directory. Only if it is missing, those on the way to it are looked
at. -/
def ensureDirectories (tree : FileTree) : List (List PathComponent) → Except FileError FileTree
  | [] => .ok tree
  | inner :: outer =>
    match tree.ensureDirectory inner with
    | .error .missing => do (← tree.ensureDirectories outer).ensureDirectory inner
    | result => result

/-- Makes sure that there is a directory at a path. A `.` at its end only leads to a directory that
was there before. -/
def createDirectory (tree : FileTree) (path : Path) : Except FileError FileTree :=
  let components := path.components
  let target := if path.endsInDot then components ++ [.current] else components
  if path.isTooLong then .error .nameTooLong
  else tree.ensureDirectories (target :: outerDirectories components)

def put (tree : FileTree) (names : List Bytes) (content : Content) : FileTree :=
  if (tree.file? names).isSome then
    { tree with files := tree.files.map fun f => if f.1 == names then (names, content) else f }
  else { tree with files := tree.files ++ [(names, content)] }

/-- Writes a file. One that was there before is replaced, but not a directory. -/
def write (tree : FileTree) (path : Path) (content : Content) : Except FileError FileTree := do
  let components := path.components
  let tree ← tree.ensureDirectories (outerDirectories components)
  match components.getLast? with
  | some (.normal name) =>
    if path.isTooLong then .error .nameTooLong
    else if path.endsInDot then
      let _ ← tree.resolve path
      .error .isADirectory
    else if path.endsInSlash then .error .isADirectory
    else
      let names ← tree.enter (← tree.follow components.dropLast) name
      if tree.isDirectory names then .error .isADirectory else .ok (tree.put names content)
  | _ => .error .isADirectory

end ClassFormat.FileTree
