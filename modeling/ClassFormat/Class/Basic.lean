import ClassFormat.Attribute.Basic
import ClassFormat.Instruction.Stream
import ClassFormat.Pool.Basic

namespace ClassFormat

structure Member where
  accessFlags : UInt16
  nameIndex : UInt16
  descriptorIndex : UInt16
  attributes : List AttributeInfo

structure ClassFile where
  minorVersion : UInt16 := 0
  majorVersion : UInt16 := 52
  pool : Pool := {}
  accessFlags : UInt16 := 0
  thisClass : UInt16 := 0
  /-- Zero for the class that has none. -/
  superClass : UInt16 := 0
  interfaces : List UInt16 := []
  fields : List Member := []
  methods : List Member := []
  attributes : List AttributeInfo := []

def Code.instructions (code : Code) : Except Failure (List Instruction) :=
  Instruction.decode code.code

/-- Replaces the code array, unless an instruction cannot be encoded. The length that the attribute
around it declares stays. -/
def Code.setInstructions (instructions : List Instruction) : EStateM Failure Code Unit := do
  let code ← MonadExcept.ofExcept (Instruction.encode instructions)
  modify ({ · with code })

namespace Attribute

def code? : Attribute → Option Code
  | .code body => some body
  | _ => none

end Attribute

namespace Member

def name (member : Member) (pool : Pool) : Except Unresolved String := pool.utf8 member.nameIndex

def descriptor (member : Member) (pool : Pool) : Except Unresolved String :=
  pool.utf8 member.descriptorIndex

def code? (member : Member) : Option Code := member.attributes.findSome? (·.data.code?)

def isNamed (member : Member) (pool : Pool) (name descriptor : String) : Bool :=
  (match member.name pool with
    | .ok n => n == name
    | .error _ => false) &&
  match member.descriptor pool with
    | .ok d => d == descriptor
    | .error _ => false

def setFirstCode (code : Code) : List AttributeInfo → List AttributeInfo
  | [] => []
  | info :: infos =>
    match info.data with
    | .code _ => { info with data := .code code } :: infos
    | _ => info :: setFirstCode code infos

def setCode (member : Member) (code : Code) : Member :=
  { member with attributes := setFirstCode code member.attributes }

end Member

namespace ClassFile

def thisClassName (c : ClassFile) : Except Unresolved String := c.pool.className c.thisClass

def superClassName (c : ClassFile) : Except Unresolved (Option String) :=
  if c.superClass = 0 then .ok none else some <$> c.pool.className c.superClass

def findMethod? (c : ClassFile) (name descriptor : String) : Option Nat :=
  c.methods.findIdx? (·.isNamed c.pool name descriptor)

def instructions (c : ClassFile) (name descriptor : String) :
    Except Failure (Option (List Instruction)) :=
  match (c.findMethod? name descriptor).bind (c.methods[·]?) |>.bind (·.code?) with
  | none => .ok none
  | some code => some <$> code.instructions

/-- Edits the first `Code` attribute of the method at a position, if there is one. What an edit has
changed before it fails stays changed. -/
def editCode {α : Type} (index : Nat) (edit : EStateM Failure Code α) :
    EStateM Failure ClassFile (Option α) := fun c =>
  let put (code : Code) := { c with methods := c.methods.modify index (·.setCode code) }
  match (c.methods[index]?).bind (·.code?) with
  | none => .ok none c
  | some code =>
    match edit code with
    | .ok a code => .ok (some a) (put code)
    | .error failure code => .error failure (put code)

/-- Replaces the instructions of a method, if it exists and has code. Gives the new code array.
Declared lengths stay as they are. -/
def setInstructions (name descriptor : String) (instructions : List Instruction) :
    EStateM Failure ClassFile (Option Bytes) := do
  match (← get).findMethod? name descriptor with
  | none => return none
  | some index => editCode index do
    Code.setInstructions instructions
    return (← get).code

end ClassFile

end ClassFormat
