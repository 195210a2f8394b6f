import ClassFormat.Attribute.Annotation

namespace ClassFormat

structure LocalVarTarget where
  startPc : UInt16
  length : UInt16
  index : UInt16
  deriving DecidableEq

structure TypePathStep where
  kind : UInt8
  argumentIndex : UInt8
  deriving DecidableEq

inductive TargetInfo where
  | typeParameter (index : UInt8)
  | supertype (index : UInt16)
  | typeParameterBound (index boundIndex : UInt8)
  | empty
  | formalParameter (index : UInt8)
  | throws (index : UInt16)
  | localVar (table : List LocalVarTarget)
  | exceptionParameter (tableIndex : UInt16)
  | offset (pc : UInt16)
  | typeArgument (pc : UInt16) (index : UInt8)
  deriving DecidableEq

/-- The target type is kept, since several of them share one form of description. -/
structure TypeAnnotation where
  targetType : UInt8
  targetInfo : TargetInfo
  targetPath : List TypePathStep
  body : Annotation

def LocalVarTarget.layout : Layout LocalVarTarget :=
  ((Layout.u16.pair (Layout.u16.pair Layout.u16)).as
    (fun (startPc, length, index) => { startPc, length, index })
    fun t => (t.startPc, t.length, t.index)).withLength fun _ => 6

def TypePathStep.layout : Layout TypePathStep :=
  ((Layout.u8.pair Layout.u8).as
    (fun (kind, argumentIndex) => { kind, argumentIndex })
    fun s => (s.kind, s.argumentIndex)).withLength fun _ => 2

namespace TargetInfo

inductive Kind where
  | typeParameter
  | supertype
  | typeParameterBound
  | empty
  | formalParameter
  | throws
  | localVar
  | exceptionParameter
  | offset
  | typeArgument
  deriving DecidableEq, Repr

def Kind.ofTargetType? (targetType : UInt8) : Option Kind :=
  match targetType with
  | 0x00 | 0x01 => some .typeParameter
  | 0x10 => some .supertype
  | 0x11 | 0x12 => some .typeParameterBound
  | 0x13 | 0x14 | 0x15 => some .empty
  | 0x16 => some .formalParameter
  | 0x17 => some .throws
  | 0x40 | 0x41 => some .localVar
  | 0x42 => some .exceptionParameter
  | 0x43 | 0x44 | 0x45 | 0x46 => some .offset
  | 0x47 | 0x48 | 0x49 | 0x4a | 0x4b => some .typeArgument
  | _ => none

def kind : TargetInfo → Kind
  | .typeParameter _ => .typeParameter
  | .supertype _ => .supertype
  | .typeParameterBound .. => .typeParameterBound
  | .empty => .empty
  | .formalParameter _ => .formalParameter
  | .throws _ => .throws
  | .localVar _ => .localVar
  | .exceptionParameter _ => .exceptionParameter
  | .offset _ => .offset
  | .typeArgument .. => .typeArgument

def table : Layout (List LocalVarTarget) := .list 2 LocalVarTarget.layout

def readKind : Kind → Reader TargetInfo
  | .typeParameter => do return .typeParameter (← Reader.u8)
  | .supertype => do return .supertype (← Reader.u16)
  | .typeParameterBound => do return .typeParameterBound (← Reader.u8) (← Reader.u8)
  | .empty => return .empty
  | .formalParameter => do return .formalParameter (← Reader.u8)
  | .throws => do return .throws (← Reader.u16)
  | .localVar => do return .localVar (← table.read)
  | .exceptionParameter => do return .exceptionParameter (← Reader.u16)
  | .offset => do return .offset (← Reader.u16)
  | .typeArgument => do return .typeArgument (← Reader.u16) (← Reader.u8)

def read (targetType : UInt8) : Reader TargetInfo :=
  match Kind.ofTargetType? targetType with
  | some kind => readKind kind
  | none => Reader.malformed (.targetType targetType)

def check : TargetInfo → Except Failure Unit
  | .localVar entries => table.check entries
  | _ => .ok ()

def encode : TargetInfo → Bytes
  | .typeParameter index | .formalParameter index => word8 index
  | .supertype index | .throws index | .exceptionParameter index | .offset index => word16 index
  | .typeParameterBound index boundIndex => word8 index ++ word8 boundIndex
  | .empty => []
  | .localVar entries => table.encode entries
  | .typeArgument pc index => word16 pc ++ word8 index

def length : TargetInfo → Nat
  | .empty => 0
  | .typeParameter _ | .formalParameter _ => 1
  | .supertype _ | .typeParameterBound .. | .throws _ | .exceptionParameter _ | .offset _ => 2
  | .typeArgument .. => 3
  | .localVar entries => table.length entries

end TargetInfo

namespace TypeAnnotation

def path : Layout (List TypePathStep) := .list 1 TypePathStep.layout

def layout : Layout TypeAnnotation where
  read := do
    let targetType ← Reader.u8
    let targetInfo ← TargetInfo.read targetType
    let targetPath ← path.read
    let body ← Annotation.read
    return { targetType, targetInfo, targetPath, body }
  check a := do
    a.targetInfo.check
    path.check a.targetPath
    a.body.check
  encode a :=
    word8 a.targetType ++ a.targetInfo.encode ++ path.encode a.targetPath ++ a.body.encode
  length a := 1 + a.targetInfo.length + 1 + 2 * a.targetPath.length + a.body.length

def same (a b : TypeAnnotation) : Bool :=
  a.targetType == b.targetType && a.targetInfo == b.targetInfo && a.targetPath == b.targetPath &&
    a.body.same b.body

end TypeAnnotation

end ClassFormat
