import ClassFormat.Reader

namespace ClassFormat.Instruction

def readOperands (offset : UInt32) (afterWide : Bool) : Kind → Reader Operands
  | .noOperand => return .none
  | .immediateByte =>
    if afterWide then do return .immediateShort (← Reader.u16)
    else do return .immediateByte (← Reader.u8)
  | .immediateShort => do return .immediateShort (← Reader.u16)
  | .branch => do return .branch (← Reader.i16)
  | .wideBranch => do return .wideBranch (← Reader.i32)
  | .increment =>
    if afterWide then do return .wideIncrement (← Reader.u16) (← Reader.i16)
    else do return .increment (← Reader.u8) (← Reader.i8)
  | .tableSwitch => do
    let _ ← Reader.take (switchPadding offset).toNat
    let default ← Reader.i32
    let low ← Reader.i32
    let high ← Reader.i32
    if high < low then Reader.malformed (.switchBounds low high)
    else
      let offsets ← Reader.times (high.toInt - low.toInt + 1).toNat Reader.i32
      return .tableSwitch default low high offsets
  | .lookupSwitch => do
    let _ ← Reader.take (switchPadding offset).toNat
    let default ← Reader.i32
    let count ← Reader.i32
    if count < 0 then Reader.malformed (.negativePairs count)
    else
      let pairs ← Reader.times count.toInt.toNat do return (← Reader.i32, ← Reader.i32)
      return .lookupSwitch default pairs
  | .invokeInterface => do
    let index ← Reader.u16
    let count ← Reader.u8
    let _ ← Reader.u8
    return .invokeInterface index count
  | .invokeDynamic => do
    let index ← Reader.u16
    let _ ← Reader.u16
    return .invokeDynamic index
  | .multiNewArray => do return .multiNewArray (← Reader.u16) (← Reader.u8)

def read (offset : UInt32) (afterWide : Bool) : Reader Instruction := do
  let opcode ← Reader.u8
  match kindOf opcode with
  | some kind =>
    let operands ← readOperands offset afterWide kind
    return { offset, opcode, operands }
  | none => Reader.fail { cause := .unrecognizedOpcode opcode offset }

/-- Reads instructions to the end, behind those read already. An instruction has at least one byte,
so the number of bytes bounds their number. -/
def readAll : (bytes : Nat) → (afterWide : Bool) → (read : List Instruction) →
    Reader (List Instruction)
  | 0, _, before => return before.reverse
  | bytes + 1, afterWide, before => do
    let cursor ← get
    if cursor.rest.isEmpty then return before.reverse
    else
      let offset := UInt32.ofNat cursor.position
      let instruction ← Reader.within (.bytecodeOffset offset) (read offset afterWide)
      readAll bytes (instruction.opcode == wide) (instruction :: before)

def decode (code : Bytes) : Except Failure (List Instruction) :=
  if code.length < 0x100000000 then (readAll code.length false []).run code
  else .error (.ofFlaw (.codeSize code.length))

def padding (offset : UInt32) : Bytes := List.replicate (switchPadding offset).toNat 0

/-- The bytes of operands at `offset`, if they have the shape that the opcode asks for. -/
def encodeOperands (opcode : UInt8) (offset : UInt32) (afterWide : Bool) (kind : Kind)
    (operands : Operands) : Except Failure Bytes :=
  match kind, operands, afterWide with
  | .noOperand, .none, _ => .ok []
  | .immediateByte, .immediateByte value, false => .ok (word8 value)
  | .immediateByte, .immediateShort value, true => .ok (word16 value)
  | .immediateShort, .immediateShort value, _ => .ok (word16 value)
  | .branch, .branch delta, _ => .ok (word16 delta.toUInt16)
  | .wideBranch, .wideBranch delta, _ => .ok (word32 delta.toUInt32)
  | .increment, .increment index constant, false => .ok (word8 index ++ word8 constant.toUInt8)
  | .increment, .wideIncrement index constant, true =>
    .ok (word16 index ++ word16 constant.toUInt16)
  | .tableSwitch, .tableSwitch default low high offsets, _ =>
    if high < low || (high.toInt - low.toInt + 1).toNat != offsets.length then
      .error (.ofFlaw (.switchTable offsets.length low high))
    else
      .ok (padding offset ++ word32 default.toUInt32 ++ word32 low.toUInt32 ++
        word32 high.toUInt32 ++ offsets.flatMap fun delta => word32 delta.toUInt32)
  | .lookupSwitch, .lookupSwitch default pairs, _ =>
    if pairs.length < 0x80000000 then
      .ok (padding offset ++ word32 default.toUInt32 ++ bigEndian 4 pairs.length ++
        pairs.flatMap fun p => word32 p.1.toUInt32 ++ word32 p.2.toUInt32)
    else .error (.ofFlaw (.tooManyPairs pairs.length))
  | .invokeInterface, .invokeInterface index count, _ =>
    .ok (word16 index ++ word8 count ++ word8 0)
  | .invokeDynamic, .invokeDynamic index, _ => .ok (word16 index ++ word16 0)
  | .multiNewArray, .multiNewArray index dimensions, _ => .ok (word16 index ++ word8 dimensions)
  | kind, operands, afterWide => .error (.ofFlaw (.operands opcode kind afterWide operands))

/-- The bytes of an instruction placed at `offset`, whatever offset it holds itself. -/
def encodeAt (offset : UInt32) (afterWide : Bool) (instruction : Instruction) :
    Except Failure Bytes := do
  match kindOf instruction.opcode with
  | some kind =>
    let operands ←
      encodeOperands instruction.opcode offset afterWide kind instruction.operands
    return word8 instruction.opcode ++ operands
  | none => .error { cause := .unrecognizedOpcode instruction.opcode offset }

/-- Encodes instructions behind `offset` bytes, which are the `before` pieces, the latest first. -/
def encodeFrom : (offset : Nat) → (afterWide : Bool) → (before : List Bytes) →
    List Instruction → Except Failure Bytes
  | _, _, before, [] => .ok before.reverse.flatten
  | offset, afterWide, before, instruction :: instructions =>
    if offset < 0x100000000 then do
      let start := UInt32.ofNat offset
      let bytes ← inContext (.bytecodeOffset start) (instruction.encodeAt start afterWide)
      encodeFrom (offset + bytes.length) (instruction.opcode == wide) (bytes :: before) instructions
    else .error (.ofFlaw .codeOffset)

def encode (instructions : List Instruction) : Except Failure Bytes :=
  encodeFrom 0 false [] instructions

end ClassFormat.Instruction
