import ClassFormat.Text.Quoted
import ClassFormat.Text.Utf8

namespace ClassFormat

/-- A component of a path. Names are bytes, most of them UTF-8. -/
inductive PathComponent where
  | root
  | current
  | parent
  | normal (name : Bytes)
  deriving DecidableEq

namespace PathComponent

def rank : PathComponent → Nat
  | .root => 0
  | .current => 1
  | .parent => 2
  | .normal _ => 3

/-- Names are ordered by their bytes, behind all other components. -/
def compare : PathComponent → PathComponent → Ordering
  | .normal a, .normal b => Ord.compare a b
  | a, b => Ord.compare a.rank b.rank

end PathComponent

structure Path where
  ofBytes ::
  bytes : Bytes
  deriving DecidableEq

namespace Path

def mk (text : String) : Path := .ofBytes (Utf8.encode text)

/-- The path for people, with replacements for what is not UTF-8. -/
def text (path : Path) : String := String.ofList (Utf8.decodeLossy path.bytes)

/-- The path in quotes, with the bytes that are not UTF-8 as numbers. -/
def quoted (path : Path) : String :=
  let number (b : UInt8) := "\\x" ++ (Text.padLeft '0' 2 (Text.hexDigits b.toNat)).toUpper
  "\"" ++ String.join ((Utf8.scan path.bytes).map fun piece =>
    match piece with
    | .ok c => Text.escaped c
    | .error stretch => String.join (stretch.map number)) ++ "\""

def slash : UInt8 := 0x2f

def dot : UInt8 := 0x2e

/-- The components a name between slashes stands for; `.` only counts at the start. -/
def component? (atStart : Bool) (name : Bytes) : Option PathComponent :=
  if name = [] then none
  else if name = [dot] then if atStart then some .current else none
  else if name = [dot, dot] then some .parent
  else some (.normal name)

def splitAtSlashes : Bytes → Bytes × List Bytes
  | [] => ([], [])
  | b :: bytes =>
    let (first, others) := splitAtSlashes bytes
    if b = slash then ([], first :: others) else (b :: first, others)

def firstName (path : Path) : Bytes := (splitAtSlashes path.bytes).1

def otherNames (path : Path) : List Bytes := (splitAtSlashes path.bytes).2

def components (path : Path) : List PathComponent :=
  let head :=
    if path.firstName = [] && !path.otherNames.isEmpty then some .root
    else component? true path.firstName
  head.toList ++ path.otherNames.filterMap (component? false)

def compareComponents : List PathComponent → List PathComponent → Ordering
  | [], [] => .eq
  | [], _ :: _ => .lt
  | _ :: _, [] => .gt
  | a :: as, b :: bs => (a.compare b).then (compareComponents as bs)

def compare (a b : Path) : Ordering := compareComponents a.components b.components

/-- The part of a file name behind its last dot, if something stands before that. -/
def extensionOf? (name : Bytes) : Option Bytes :=
  let fromDot := name.reverse.takeWhile (· != dot)
  if name.length ≤ fromDot.length + 1 then none else some fromDot.reverse

/-- The extension, if it is UTF-8. -/
def extension? (path : Path) : Option String :=
  match path.components.getLast? with
  | some (.normal name) => ((extensionOf? name).bind Utf8.decode?).map String.ofList
  | _ => none

def endsInSlash (path : Path) : Bool := path.bytes.getLast? == some slash

/-- Whether the last name of a path is `.`, which leads to the directory before it. -/
def endsInDot (path : Path) : Bool :=
  ((path.firstName :: path.otherNames).filter (· != [])).getLast? == some [dot]

def isTooLong (path : Path) : Bool := 4096 ≤ path.bytes.length

def join (path : Path) (names : List Bytes) : Path :=
  let separator := if path.endsInSlash then [] else [slash]
  if names.isEmpty then path
  else .ofBytes (path.bytes ++ separator ++ [slash].intercalate names)

end Path

end ClassFormat
