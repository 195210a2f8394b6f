import ClassFormat.Failure

namespace ClassFormat

inductive Level where
  | error
  | warn
  | info
  | debug
  | trace
  deriving DecidableEq, Repr

def Level.name : Level → String
  | .error => "ERROR"
  | .warn => "WARN"
  | .info => "INFO"
  | .debug => "DEBUG"
  | .trace => "TRACE"

def Level.rank : Level → Nat
  | .error => 0
  | .warn => 1
  | .info => 2
  | .debug => 3
  | .trace => 4

structure LogLine where
  level : Level
  target : String
  text : String
  deriving DecidableEq

def LogLine.render (line : LogLine) : String :=
  "[" ++ line.level.name ++ " " ++ line.target ++ "] " ++ line.text ++ "\n"

def renderLog (detail : Level) (lines : List LogLine) : String :=
  String.join ((lines.filter (·.level.rank ≤ detail.rank)).map (·.render))

inductive Event where
  | version (major minor : UInt16)
  | pool (slots : Nat)
  | members (fields methods : Nat)
  | attribute (name : String) (length : UInt32)
  | unknownAttribute (name : String)
  | unusableName (u : Unresolved)
  deriving DecidableEq

open Text in
def Event.line : Event → LogLine
  | .version major minor =>
    ⟨.trace, "class_file::class", s!"reading class file version {major}.{minor}"⟩
  | .pool slots => ⟨.trace, "class_file::pool", s!"read constant pool with {slots} slots"⟩
  | .members fields methods =>
    ⟨.trace, "class_file::class", s!"read {fields} fields and {methods} methods"⟩
  | .attribute name length =>
    ⟨.trace, "class_file::attribute",
      "reading attribute " ++ quoted name ++ s!" of length {length}"⟩
  | .unknownAttribute name =>
    ⟨.debug, "class_file::attribute",
      "keeping unknown attribute " ++ quoted name ++ " as raw bytes"⟩
  | .unusableName u =>
    ⟨.debug, "class_file::attribute",
      "treating attribute with unusable name as unknown: " ++ u.message⟩

end ClassFormat
