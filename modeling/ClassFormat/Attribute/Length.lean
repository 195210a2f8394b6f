import ClassFormat.Attribute.Basic

namespace ClassFormat

namespace Attribute

mutual

def length : Attribute → Nat
  | .marker _ => 0
  | .index .. => 2
  | .indices _ values => indexList.length values
  | .enclosingMethod .. => 4
  | .code ⟨_, _, bytes, handlers, attributes⟩ =>
    8 + bytes.length + handlerTable.length handlers + (2 + lengthInfos attributes)
  | .stackMapTable frames => frameTable.length frames
  | .innerClasses classes => innerClassTable.length classes
  | .sourceDebugExtension bytes => bytes.length
  | .lineNumberTable lines => lineTable.length lines
  | .localVariables _ table => variableTable.length table
  | .annotations _ values => annotationList.length values
  | .parameterAnnotations _ parameters => parameterList.length parameters
  | .typeAnnotations _ values => typeAnnotationList.length values
  | .annotationDefault value => value.length
  | .bootstrapMethods methods => bootstrapTable.length methods
  | .methodParameters parameters => parameterTable.length parameters
  | .moduleInfo info => ModuleInfo.layout.length info
  | .record components => 2 + lengthComponents components
  | .unknown bytes => bytes.length

/-- The number of bytes of attributes, each with six bytes of header. -/
def lengthInfos : List AttributeInfo → Nat
  | [] => 0
  | ⟨_, _, data⟩ :: infos => 6 + data.length + lengthInfos infos

def lengthComponents : List RecordComponent → Nat
  | [] => 0
  | ⟨_, _, attributes⟩ :: components =>
    4 + (2 + lengthInfos attributes) + lengthComponents components

end

def computedLength (data : Attribute) : Except Failure UInt32 :=
  let length := data.length
  if length < 0x100000000 then .ok (UInt32.ofNat length)
  else .error (.ofFlaw (.attributeSize length))

def label (data : Attribute) (nameIndex : UInt16) : AttributeLabel :=
  match data.name? with
  | some name => .named name
  | none => .unnamed nameIndex

def checkDeclared (nameIndex : UInt16) (declared : UInt32) (data : Attribute) :
    Except Failure Unit := do
  let computed ← data.computedLength
  if computed = declared then .ok ()
  else .error { cause := .lengthMismatch (data.label nameIndex) declared computed }

mutual

def checkNested : Attribute → Except Failure Unit
  | .code ⟨_, _, _, _, attributes⟩ => checkLengths attributes
  | .record components => checkComponentLengths components
  | _ => .ok ()

/-- Checks the declared lengths of attributes, those inside an attribute before its own. -/
def checkLengths : List AttributeInfo → Except Failure Unit
  | [] => .ok ()
  | ⟨nameIndex, declared, data⟩ :: infos => do
    data.checkNested
    checkDeclared nameIndex declared data
    checkLengths infos

def checkComponentLengths : List RecordComponent → Except Failure Unit
  | [] => .ok ()
  | ⟨_, _, attributes⟩ :: components => do
    checkLengths attributes
    checkComponentLengths components

end

mutual

def updateNested : Attribute → Except Failure Attribute
  | .code ⟨maxStack, maxLocals, bytes, handlers, attributes⟩ => do
    return .code ⟨maxStack, maxLocals, bytes, handlers, ← updateLengths attributes⟩
  | .record components => do return .record (← updateComponentLengths components)
  | data => .ok data

def updateLengths : List AttributeInfo → Except Failure (List AttributeInfo)
  | [] => .ok []
  | ⟨nameIndex, _, data⟩ :: infos => do
    let data ← data.updateNested
    let declaredLength ← data.computedLength
    return ⟨nameIndex, declaredLength, data⟩ :: (← updateLengths infos)

def updateComponentLengths : List RecordComponent → Except Failure (List RecordComponent)
  | [] => .ok []
  | ⟨nameIndex, descriptorIndex, attributes⟩ :: components => do
    let attributes ← updateLengths attributes
    return ⟨nameIndex, descriptorIndex, attributes⟩ :: (← updateComponentLengths components)

end

end Attribute

namespace AttributeInfo

def length (info : AttributeInfo) : Nat := 6 + info.data.length

def checkLength (info : AttributeInfo) : Except Failure Unit := do
  info.data.checkNested
  Attribute.checkDeclared info.nameIndex info.declaredLength info.data

def updateLength (info : AttributeInfo) : Except Failure AttributeInfo := do
  let data ← info.data.updateNested
  let declaredLength ← data.computedLength
  return { info with declaredLength, data }

end AttributeInfo

end ClassFormat
