import ClassFormat.Attribute.Basic
import ClassFormat.Pool.Basic

namespace ClassFormat

def Code.readWith (nested : Reader AttributeInfo) : Reader Code := do
  let maxStack ← Reader.u16
  let maxLocals ← Reader.u16
  let size ← Reader.number 4
  let code ← Reader.within .readingCodeArray (Reader.take size)
  let handlers ← Reader.within .readingExceptionTable Attribute.handlerTable.read
  let attributes ← Reader.list 2 nested
  return { maxStack, maxLocals, code, handlers, attributes }

def RecordComponent.readWith (nested : Reader AttributeInfo) : Reader RecordComponent := do
  let nameIndex ← Reader.u16
  let descriptorIndex ← Reader.u16
  let attributes ← Reader.list 2 nested
  return { nameIndex, descriptorIndex, attributes }

namespace Attribute

def readKind (nested : Reader AttributeInfo) : Kind → Reader Attribute
  | .marker m => return .marker m
  | .index role => do return .index role (← Reader.u16)
  | .indices role => do return .indices role (← indexList.read)
  | .enclosingMethod => do return .enclosingMethod (← Reader.u16) (← Reader.u16)
  | .code => do return .code (← Code.readWith nested)
  | .stackMapTable => do return .stackMapTable (← frameTable.read)
  | .innerClasses => do return .innerClasses (← innerClassTable.read)
  | .sourceDebugExtension => do return .sourceDebugExtension (← Reader.takeRest)
  | .lineNumberTable => do return .lineNumberTable (← lineTable.read)
  | .localVariables types => do return .localVariables types (← variableTable.read)
  | .annotations visibility => do return .annotations visibility (← annotationList.read)
  | .parameterAnnotations visibility => do
    return .parameterAnnotations visibility (← parameterList.read)
  | .typeAnnotations visibility => do return .typeAnnotations visibility (← typeAnnotationList.read)
  | .annotationDefault => do return .annotationDefault (← ElementValue.read)
  | .bootstrapMethods => do return .bootstrapMethods (← bootstrapTable.read)
  | .methodParameters => do return .methodParameters (← parameterTable.read)
  | .moduleInfo => do return .moduleInfo (← ModuleInfo.layout.read)
  | .record => do return .record (← Reader.list 2 (RecordComponent.readWith nested))

def readNamed (nested : Reader AttributeInfo) (name : String) : Reader Attribute :=
  match Kind.ofName? name with
  | some kind => readKind nested kind
  | none => do
    Reader.record (.unknownAttribute name)
    return .unknown (← Reader.takeRest)

end Attribute

namespace AttributeInfo

/-- Reads the body of an attribute under what its name index resolves to. -/
def readBody (nested : Reader AttributeInfo) (length : UInt32) :
    Except Unresolved String → Reader Attribute
  | .ok name => do
    Reader.record (.attribute name length)
    Reader.within (.readingAttribute name) (Attribute.readNamed nested name)
  | .error u => do
    Reader.record (.unusableName u)
    return .unknown (← Reader.takeRest)

def checkUsedUp (name : Except Unresolved String) (length : UInt32) (body : Cursor) : Reader Unit :=
  match name with
  | .ok name =>
    if body.rest.isEmpty then return ()
    else
      let consumed := UInt32.ofNat body.position
      Reader.fail { cause := .lengthMismatch (.named name) length consumed }
  | .error _ => return ()

/-- Reads an attribute with at most `budget` attributes around each other, itself included. Each
takes some bytes of the one around it, so where no more than `budget` bytes are left, there is
always budget for an attribute that starts. -/
def readWithin (pool : Pool) : (budget : Nat) → Reader AttributeInfo
  | 0 => fun c => .error (Reader.truncation c 2) c
  | budget + 1 => do
    let nameIndex ← Reader.u16
    let length ← Reader.u32
    let name := pool.utf8 nameIndex
    let (data, body) ← Reader.inside length.toNat (readBody (readWithin pool budget) length name)
    checkUsedUp name length body
    return { nameIndex, declaredLength := length, data }

def read (pool : Pool) : Reader AttributeInfo := do
  let cursor ← get
  readWithin pool cursor.rest.length

end AttributeInfo

/-- Reads the body of the attribute called `name`, as far as it goes. -/
def Attribute.read (pool : Pool) (name : String) : Reader Attribute := do
  let cursor ← get
  readNamed (AttributeInfo.readWithin pool cursor.rest.length) name

end ClassFormat
