import ClassFormat.Attribute.Length

namespace ClassFormat

namespace Attribute

mutual

def check : Attribute → Except Failure Unit
  | .marker _ | .index .. | .enclosingMethod .. | .sourceDebugExtension _ | .unknown _ => .ok ()
  | .indices _ values => indexList.check values
  | .code ⟨_, _, bytes, handlers, attributes⟩ => do
    inContext .codeLength (checkCount 32 bytes.length)
    handlerTable.check handlers
    checkCount 16 attributes.length
    checkInfos attributes
  | .stackMapTable frames => frameTable.check frames
  | .innerClasses classes => innerClassTable.check classes
  | .lineNumberTable lines => lineTable.check lines
  | .localVariables _ table => variableTable.check table
  | .annotations _ values => annotationList.check values
  | .parameterAnnotations _ parameters => parameterList.check parameters
  | .typeAnnotations _ values => typeAnnotationList.check values
  | .annotationDefault value => value.check
  | .bootstrapMethods methods => bootstrapTable.check methods
  | .methodParameters parameters => parameterTable.check parameters
  | .moduleInfo info => ModuleInfo.layout.check info
  | .record components => do
    checkCount 16 components.length
    checkComponents components

/-- Fails for attributes that cannot be written, first of all for their declared lengths. -/
def checkInfos : List AttributeInfo → Except Failure Unit
  | [] => .ok ()
  | ⟨nameIndex, declared, data⟩ :: infos => do
    data.checkNested
    checkDeclared nameIndex declared data
    data.check
    checkInfos infos

def checkComponents : List RecordComponent → Except Failure Unit
  | [] => .ok ()
  | ⟨_, _, attributes⟩ :: components => do
    checkCount 16 attributes.length
    checkInfos attributes
    checkComponents components

end

mutual

def encode : Attribute → Bytes
  | .marker _ => []
  | .index _ value => word16 value
  | .indices _ values => indexList.encode values
  | .enclosingMethod classIndex methodIndex => word16 classIndex ++ word16 methodIndex
  | .code ⟨maxStack, maxLocals, bytes, handlers, attributes⟩ =>
    word16 maxStack ++ word16 maxLocals ++ bigEndian 4 bytes.length ++ bytes ++
      handlerTable.encode handlers ++ bigEndian 2 attributes.length ++ encodeInfos attributes
  | .stackMapTable frames => frameTable.encode frames
  | .innerClasses classes => innerClassTable.encode classes
  | .sourceDebugExtension bytes => bytes
  | .lineNumberTable lines => lineTable.encode lines
  | .localVariables _ table => variableTable.encode table
  | .annotations _ values => annotationList.encode values
  | .parameterAnnotations _ parameters => parameterList.encode parameters
  | .typeAnnotations _ values => typeAnnotationList.encode values
  | .annotationDefault value => value.encode
  | .bootstrapMethods methods => bootstrapTable.encode methods
  | .methodParameters parameters => parameterTable.encode parameters
  | .moduleInfo info => ModuleInfo.layout.encode info
  | .record components => bigEndian 2 components.length ++ encodeComponents components
  | .unknown bytes => bytes

def encodeInfos : List AttributeInfo → Bytes
  | [] => []
  | ⟨nameIndex, declared, data⟩ :: infos =>
    word16 nameIndex ++ word32 declared ++ data.encode ++ encodeInfos infos

def encodeComponents : List RecordComponent → Bytes
  | [] => []
  | ⟨nameIndex, descriptorIndex, attributes⟩ :: components =>
    word16 nameIndex ++ word16 descriptorIndex ++ bigEndian 2 attributes.length ++
      encodeInfos attributes ++ encodeComponents components

end

def write (data : Attribute) : Except Failure Bytes := do
  data.check
  return data.encode

end Attribute

namespace AttributeInfo

def check (info : AttributeInfo) : Except Failure Unit := do
  info.checkLength
  info.data.check

def encode (info : AttributeInfo) : Bytes :=
  word16 info.nameIndex ++ word32 info.declaredLength ++ info.data.encode

def write (info : AttributeInfo) : Except Failure Bytes := do
  info.check
  return info.encode

end AttributeInfo

def checkAttributes (infos : List AttributeInfo) : Except Failure Unit := do
  checkCount 16 infos.length
  Attribute.checkInfos infos

def encodeAttributes (infos : List AttributeInfo) : Bytes :=
  bigEndian 2 infos.length ++ Attribute.encodeInfos infos

def attributesLength (infos : List AttributeInfo) : Nat := 2 + Attribute.lengthInfos infos

end ClassFormat
