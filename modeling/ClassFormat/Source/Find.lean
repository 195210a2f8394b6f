import ClassFormat.Log
import ClassFormat.Source.Archive

namespace ClassFormat

def WalkFailure.chain (failure : WalkFailure) : List String :=
  ["failed to walk " ++ failure.path.quoted,
    "IO error for operation on " ++ failure.place.text ++ ": " ++ failure.error.message,
    failure.error.message]

/-- A file that holds class files. -/
inductive Source where
  | classFile (path : Path)
  | archive (path : Path)
  deriving DecidableEq

namespace Source

def ofPath? (path : Path) : Option Source :=
  match path.extension? with
  | some "class" => some (.classFile path)
  | some "jar" | some "zip" => some (.archive path)
  | _ => none

def path : Source → Path
  | .classFile path | .archive path => path

def same : Source → Source → Bool
  | .classFile a, .classFile b | .archive a, .archive b => a.components == b.components
  | _, _ => false

def text : Source → String
  | .classFile path => "Class" ++ Text.tuple [path.quoted]
  | .archive path => "Archive" ++ Text.tuple [path.quoted]

/-- Keeps the first of neighbours that are the same. -/
def dedup : List Source → List Source
  | [] => []
  | [a] => [a]
  | a :: b :: sources => if a.same b then dedup (a :: sources) else a :: dedup (b :: sources)
termination_by sources => sources.length

/-- The sources in the order of their paths, each once. -/
def arrange (sources : List Source) : List Source :=
  dedup (sources.mergeSort fun a b => a.path.compare b.path != .gt)

/-- The sources below the paths in the order they are met, up to a path that cannot be walked. -/
def collect (walk : Path → Except WalkFailure (List Path)) :
    List Path → List Source × Option WalkFailure
  | [] => ([], none)
  | path :: paths =>
    match walk path with
    | .error failure => ([], some failure)
    | .ok found =>
      let (sources, failure) := collect walk paths
      (found.filterMap ofPath? ++ sources, failure)

def foundLine (source : Source) : LogLine := ⟨.trace, "jclass::scan", "found " ++ source.text⟩

/-- The class files and archives among what walks of the paths find, and the log of the search. -/
def searchLogged (walk : Path → Except WalkFailure (List Path)) (paths : List Path) :
    Except WalkFailure (List Source) × List LogLine :=
  let (sources, failure) := collect walk paths
  let lines := sources.map foundLine
  match failure with
  | some failure => (.error failure, lines)
  | none => (.ok (arrange sources), lines)

def search (walk : Path → Except WalkFailure (List Path)) (paths : List Path) :
    Except WalkFailure (List Source) :=
  (searchLogged walk paths).1

def findLogged (tree : FileTree) (paths : List Path) :
    Except WalkFailure (List Source) × List LogLine :=
  searchLogged tree.walk paths

def find (tree : FileTree) (paths : List Path) : Except WalkFailure (List Source) :=
  search tree.walk paths

end Source

/-- The class files that a source delivers, by name, and the messages of the error it ends in, if
any. -/
structure Delivery where
  classes : List (String × Bytes)
  failure : Option (List String) := none

namespace Source

def isClassEntry (entry : ArchiveEntry) : Bool :=
  !entry.isDirectory && entry.name.endsWith ".class"

/-- What a source delivers. An archive may deliver some classes before it turns out that it cannot
be read. -/
def deliver (tree : FileTree) : Source → Delivery
  | .classFile path =>
    match tree.read path with
    | .ok content => { classes := [(path.text, content.bytes)] }
    | .error error =>
      { classes := []
        failure := some ["failed to read class file " ++ path.quoted, error.message] }
  | .archive path =>
    let inside (entry : ArchiveEntry) := (path.text ++ "!" ++ entry.name, entry.bytes)
    match tree.read path with
    | .ok (.archive entries) => { classes := (entries.filter isClassEntry).map inside }
    | .ok (.plain bytes) =>
      let (entries, failure) := Archive.read isClassEntry bytes
      { classes := entries.map inside
        failure := failure.map (("failed to read archive " ++ path.quoted) :: ·) }
    | .error error =>
      { classes := []
        failure := some ["failed to open archive " ++ path.quoted, error.message] }

end Source

end ClassFormat
