import ClassFormat.Layout

namespace ClassFormat

namespace VerificationType

def read : Reader VerificationType := do
  match ← Reader.u8 with
  | 0 => return .top
  | 1 => return .integer
  | 2 => return .float
  | 3 => return .double
  | 4 => return .long
  | 5 => return .null
  | 6 => return .uninitializedThis
  | 7 => return .object (← Reader.u16)
  | 8 => return .uninitialized (← Reader.u16)
  | tag => Reader.malformed (.verificationTag tag)

def encode : VerificationType → Bytes
  | .top => word8 0
  | .integer => word8 1
  | .float => word8 2
  | .double => word8 3
  | .long => word8 4
  | .null => word8 5
  | .uninitializedThis => word8 6
  | .object index => word8 7 ++ word16 index
  | .uninitialized offset => word8 8 ++ word16 offset

def length : VerificationType → Nat
  | .object _ | .uninitialized _ => 3
  | _ => 1

def layout : Layout VerificationType := ⟨read, fun _ => .ok (), encode, length⟩

end VerificationType

namespace StackMapFrame

def types : Layout (List VerificationType) := .list 2 VerificationType.layout

def read : Reader StackMapFrame := do
  let frameType ← Reader.u8
  if frameType < 64 then return .same frameType
  else if frameType < 128 then
    return .sameLocals1StackItem (frameType - 64) (← VerificationType.read)
  else if frameType < 247 then Reader.malformed (.reservedFrame frameType)
  else if frameType = 247 then
    return .sameLocals1StackItemExtended (← Reader.u16) (← VerificationType.read)
  else if frameType < 251 then return .chop (251 - frameType) (← Reader.u16)
  else if frameType = 251 then return .sameExtended (← Reader.u16)
  else if frameType < 255 then
    let offsetDelta ← Reader.u16
    return .append offsetDelta (← Reader.times (frameType - 251).toNat VerificationType.read)
  else return .full (← Reader.u16) (← types.read) (← types.read)

def check (frame : StackMapFrame) : Except Failure Unit :=
  match frame.frameType?, frame with
  | none, frame => .error (.ofFlaw (.frameWithoutType frame))
  | some _, .full _ locals stack => do
    types.check locals
    types.check stack
  | some _, _ => .ok ()

def encodeBody : StackMapFrame → Bytes
  | .same _ => []
  | .sameLocals1StackItem _ stack => stack.encode
  | .sameLocals1StackItemExtended offsetDelta stack => word16 offsetDelta ++ stack.encode
  | .chop _ offsetDelta | .sameExtended offsetDelta => word16 offsetDelta
  | .append offsetDelta locals => word16 offsetDelta ++ locals.flatMap (·.encode)
  | .full offsetDelta locals stack =>
    word16 offsetDelta ++ types.encode locals ++ types.encode stack

def encode (frame : StackMapFrame) : Bytes := word8 (frame.frameType?.getD 0) ++ frame.encodeBody

def length (frame : StackMapFrame) : Nat :=
  1 + match frame with
    | .same _ => 0
    | .sameLocals1StackItem _ stack => stack.length
    | .sameLocals1StackItemExtended _ stack => 2 + stack.length
    | .chop .. | .sameExtended _ => 2
    | .append _ locals => 2 + Layout.total VerificationType.length locals
    | .full _ locals stack => 2 + types.length locals + types.length stack

def layout : Layout StackMapFrame := ⟨read, check, encode, length⟩

def frameType (frame : StackMapFrame) : Except Failure UInt8 :=
  match frame.frameType? with
  | some frameType => .ok frameType
  | none => .error (.ofFlaw (.frameWithoutType frame))

end StackMapFrame

end ClassFormat
