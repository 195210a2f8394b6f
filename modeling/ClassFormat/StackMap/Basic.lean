import ClassFormat.Text.Record

namespace ClassFormat

/-- The verifier's type of a local variable or stack slot. -/
inductive VerificationType where
  | top
  | integer
  | float
  | double
  | long
  | null
  | uninitializedThis
  | object (poolIndex : UInt16)
  | uninitialized (offset : UInt16)
  deriving DecidableEq

inductive StackMapFrame where
  | same (offsetDelta : UInt8)
  | sameLocals1StackItem (offsetDelta : UInt8) (stack : VerificationType)
  | sameLocals1StackItemExtended (offsetDelta : UInt16) (stack : VerificationType)
  | chop (k : UInt8) (offsetDelta : UInt16)
  | sameExtended (offsetDelta : UInt16)
  | append (offsetDelta : UInt16) (locals : List VerificationType)
  | full (offsetDelta : UInt16) (locals stack : List VerificationType)
  deriving DecidableEq

namespace StackMapFrame

/-- The byte a frame starts with, if its contents have one: short offset deltas lie below 64, and
one to three locals are chopped or appended. -/
def frameType? : StackMapFrame → Option UInt8
  | .same delta => if delta < 64 then some delta else none
  | .sameLocals1StackItem delta _ => if delta < 64 then some (64 + delta) else none
  | .sameLocals1StackItemExtended .. => some 247
  | .chop k _ => if 1 ≤ k && k ≤ 3 then some (251 - k) else none
  | .sameExtended _ => some 251
  | .append _ locals =>
    if 1 ≤ locals.length && locals.length ≤ 3 then some (251 + UInt8.ofNat locals.length) else none
  | .full .. => some 255

/-- For the first frame the offset of its instruction, for others one less than the distance from
the instruction of the frame before. -/
def offsetDelta : StackMapFrame → UInt16
  | .same delta | .sameLocals1StackItem delta _ => delta.toUInt16
  | .sameLocals1StackItemExtended delta _ | .chop _ delta | .sameExtended delta | .append delta _
  | .full delta _ _ => delta

end StackMapFrame

open Text in
def VerificationType.text : VerificationType → String
  | .top => "Top"
  | .integer => "Integer"
  | .float => "Float"
  | .double => "Double"
  | .long => "Long"
  | .null => "Null"
  | .uninitializedThis => "UninitializedThis"
  | .object index => record "Object" [("cpool_index", toString index)]
  | .uninitialized offset => record "Uninitialized" [("offset", toString offset)]

open Text in
def StackMapFrame.text : StackMapFrame → String
  | .same delta => record "Same" [("offset_delta", toString delta)]
  | .sameLocals1StackItem delta stack =>
    record "SameLocals1StackItem" [("offset_delta", toString delta), ("stack", stack.text)]
  | .sameLocals1StackItemExtended delta stack =>
    record "SameLocals1StackItemExtended" [("offset_delta", toString delta), ("stack", stack.text)]
  | .chop k delta => record "Chop" [("k", toString k), ("offset_delta", toString delta)]
  | .sameExtended delta => record "SameExtended" [("offset_delta", toString delta)]
  | .append delta locals =>
    record "Append" [("offset_delta", toString delta), ("locals", bracketed (locals.map (·.text)))]
  | .full delta locals stack =>
    record "Full" [("offset_delta", toString delta), ("locals", bracketed (locals.map (·.text))),
      ("stack", bracketed (stack.map (·.text)))]

end ClassFormat
