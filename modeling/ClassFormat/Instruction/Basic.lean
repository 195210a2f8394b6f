import ClassFormat.Bytes
import ClassFormat.Instruction.Opcode
import ClassFormat.Text.Record

namespace ClassFormat

/-- Operands by their shape. The wide forms follow a `wide` instruction, branch offsets are relative
to the instruction, and reserved bytes are not kept. -/
inductive Operands where
  | none
  | immediateByte (value : UInt8)
  | immediateShort (value : UInt16)
  | branch (delta : Int16)
  | wideBranch (delta : Int32)
  | increment (index : UInt8) (constant : Int8)
  | wideIncrement (index : UInt16) (constant : Int16)
  | tableSwitch (default low high : Int32) (offsets : List Int32)
  | lookupSwitch (default : Int32) (pairs : List (Int32 × Int32))
  | invokeInterface (index : UInt16) (count : UInt8)
  | invokeDynamic (index : UInt16)
  | multiNewArray (index : UInt16) (dimensions : UInt8)
  deriving DecidableEq

structure Instruction where
  offset : UInt32 := 0
  opcode : UInt8
  operands : Operands
  deriving DecidableEq

namespace Instruction

/-- The bytes between a switch opcode and the next multiple of four. -/
def switchPadding (offset : UInt32) : UInt32 := (4 - (offset + 1) % 4) % 4

def operandSize (offset : UInt32) : Operands → UInt32
  | .none => 0
  | .immediateByte _ => 1
  | .immediateShort _ | .branch _ | .increment .. => 2
  | .multiNewArray .. => 3
  | .wideBranch _ | .wideIncrement .. | .invokeInterface .. | .invokeDynamic .. => 4
  | .tableSwitch _ _ _ offsets => switchPadding offset + 12 + 4 * UInt32.ofNat offsets.length
  | .lookupSwitch _ pairs => switchPadding offset + 8 + 8 * UInt32.ofNat pairs.length

def size (instruction : Instruction) : UInt32 :=
  1 + operandSize instruction.offset instruction.operands

def kind (instruction : Instruction) : Option Kind := kindOf instruction.opcode

def mnemonic (instruction : Instruction) : Option String := mnemonicOf instruction.opcode

def jumps : Operands → List Int
  | .branch delta => [delta.toInt]
  | .wideBranch delta => [delta.toInt]
  | .tableSwitch default _ _ offsets => (default :: offsets).map (·.toInt)
  | .lookupSwitch default pairs => (default :: pairs.map (·.2)).map (·.toInt)
  | _ => []

def branchTargets (instruction : Instruction) : List Int :=
  (jumps instruction.operands).map (instruction.offset.toNat + ·)

end Instruction

open Text in
def Operands.text : Operands → String
  | .none => "None"
  | .immediateByte value => "ImmediateByte" ++ tuple [toString value]
  | .immediateShort value => "ImmediateShort" ++ tuple [toString value]
  | .branch delta => "Branch" ++ tuple [toString delta.toInt]
  | .wideBranch delta => "WideBranch" ++ tuple [toString delta.toInt]
  | .increment index constant =>
    record "Increment" [("index", toString index), ("constant", toString constant.toInt)]
  | .wideIncrement index constant =>
    record "WideIncrement" [("index", toString index), ("constant", toString constant.toInt)]
  | .tableSwitch default low high offsets =>
    record "TableSwitch" [("default", toString default.toInt), ("low", toString low.toInt),
      ("high", toString high.toInt), ("offsets", bracketed (offsets.map fun d => toString d.toInt))]
  | .lookupSwitch default pairs =>
    record "LookupSwitch" [("default", toString default.toInt),
      ("pairs", bracketed (pairs.map fun p => tuple [toString p.1.toInt, toString p.2.toInt]))]
  | .invokeInterface index count =>
    record "InvokeInterface" [("index", toString index), ("count", toString count)]
  | .invokeDynamic index => record "InvokeDynamic" [("index", toString index)]
  | .multiNewArray index dimensions =>
    record "MultiNewArray" [("index", toString index), ("dimensions", toString dimensions)]

def Instruction.text (instruction : Instruction) : String :=
  Text.record "Instruction" [("offset", toString instruction.offset),
    ("opcode", toString instruction.opcode), ("operands", instruction.operands.text)]

end ClassFormat
