import ClassFormat.Instruction.Basic
import ClassFormat.Pool.Entry
import ClassFormat.StackMap.Basic
import ClassFormat.Text.Quoted

namespace ClassFormat

open Text

/-- Why a pool index does not resolve. `endless` is for method handles that only lead to each
other. -/
inductive Unresolved.Reason where
  | zero
  | upperHalf
  | outOfRange (slots : Nat)
  | wrongKind (expected : String) (got : Entry.Kind)
  | endless
  deriving DecidableEq

/-- A pool index without an entry of the kind asked for. -/
structure Unresolved where
  index : UInt16
  reason : Unresolved.Reason
  deriving DecidableEq

def Unresolved.Reason.message : Unresolved.Reason → String
  | .zero => "index zero is never a valid entry"
  | .upperHalf => "upper half of a `Long` or `Double` entry"
  | .outOfRange slots => s!"out of range, the pool has {slots} slots"
  | .wrongKind expected got => "expected a `" ++ expected ++ "` entry, got `" ++ got.name ++ "`"
  | .endless => "method handles refer to each other without end"

def Unresolved.message (u : Unresolved) : String :=
  s!"unresolved constant pool index {u.index}: " ++ u.reason.message

def Unresolved.text (u : Unresolved) : String :=
  record "UnresolvedPoolIndex" [("index", toString u.index), ("reason", quoted u.reason.message)]

instance : DecidableEq (Except Unresolved String)
  | .ok a, .ok b => decidable_of_iff (a = b) (by simp)
  | .error a, .error b => decidable_of_iff (a = b) (by simp)
  | .ok _, .error _ => isFalse nofun
  | .error _, .ok _ => isFalse nofun

def resultText : Except Unresolved String → String
  | .ok name => "Ok" ++ tuple [quoted name]
  | .error u => "Err" ++ tuple [u.text]

inductive Flaw where
  | count (value bits : Nat)
  | emptyPool
  | missingUpperSlot
  | fullPool (kind : Entry.Kind)
  | deepElementValue (levels : Nat)
  | elementTag (tag : UInt8)
  | targetType (byte : UInt8)
  | reservedFrame (frameType : UInt8)
  | frameWithoutType (frame : StackMapFrame)
  | verificationTag (tag : UInt8)
  | switchBounds (low high : Int32)
  | switchTable (entries : Nat) (low high : Int32)
  | negativePairs (pairs : Int32)
  | tooManyPairs (pairs : Nat)
  | operands (opcode : UInt8) (kind : Instruction.Kind) (afterWide : Bool) (given : Operands)
  | codeSize (bytes : Nat)
  | codeOffset
  | namelessAttribute
  | attributeSize (bytes : Nat)
  deriving DecidableEq

def Flaw.subject : Flaw → String
  | .count .. => "count"
  | .emptyPool | .missingUpperSlot | .fullPool _ => "constant pool"
  | .deepElementValue _ | .elementTag _ => "element value"
  | .targetType _ => "type annotation"
  | .reservedFrame _ | .frameWithoutType _ => "stack map frame"
  | .verificationTag _ => "verification type"
  | .switchBounds .. | .switchTable .. => "tableswitch"
  | .negativePairs _ | .tooManyPairs _ => "lookupswitch"
  | .operands .. => "instruction"
  | .codeSize _ | .codeOffset => "code"
  | .namelessAttribute | .attributeSize _ => "attribute"

def Flaw.reason : Flaw → String
  | .count value bits => s!"{value} doesn't fit into an u{bits}"
  | .emptyPool => "`constant_pool_count` must be at least 1"
  | .missingUpperSlot => "last entry is a `Long` or `Double` without room for its second slot"
  | .fullPool kind => "no room left for a `" ++ kind.name ++ "` entry"
  | .deepElementValue levels => s!"nested more than {levels} levels deep"
  | .elementTag tag => "unknown tag " ++ hex 2 tag.toNat
  | .targetType byte => "unknown target type " ++ hex 2 byte.toNat
  | .reservedFrame frameType => s!"frame type {frameType} is reserved"
  | .frameWithoutType frame => frame.text ++ " has no frame type"
  | .verificationTag tag => s!"unknown tag {tag}"
  | .switchBounds low high => s!"`low` ({low.toInt}) is greater than `high` ({high.toInt})"
  | .switchTable entries low high =>
    s!"{entries} jump offsets don't match the range {low.toInt}..={high.toInt}"
  | .negativePairs pairs => s!"`npairs` ({pairs.toInt}) is negative"
  | .tooManyPairs pairs => s!"{pairs} pairs are too many"
  | .operands opcode kind afterWide given =>
    "`" ++ (Instruction.mnemonicOf opcode).getD "?" ++ "` (" ++ kind.name ++ ")" ++
      (if afterWide then " after `wide`" else "") ++ " can't take operands " ++ given.text
  | .codeSize bytes => s!"{bytes} bytes are too many"
  | .codeOffset => "more than 4 GiB of instructions"
  | .namelessAttribute => "an unknown attribute has no name of its own"
  | .attributeSize bytes => s!"body of {bytes} bytes is too large"

inductive AttributeLabel where
  | named (name : String)
  | unnamed (nameIndex : UInt16)
  deriving DecidableEq

def AttributeLabel.text : AttributeLabel → String
  | .named name => "attribute " ++ quoted name
  | .unnamed nameIndex => s!"attribute with name index {nameIndex}"

/-- The root of a failure. The last three come from checking a class, not from its format. -/
inductive Cause where
  | truncatedInput (offset needed available : Nat)
  | unrecognizedOpcode (opcode : UInt8) (offset : UInt32)
  | unresolved (u : Unresolved)
  | lengthMismatch (label : AttributeLabel) (declared computed : UInt32)
  | badMagic (magic : UInt32)
  | unknownPoolTag (tag : UInt8) (index : UInt16)
  | trailingBytes (count : Nat)
  | malformed (flaw : Flaw)
  | misplacedInstruction (instruction : Instruction) (expected : Nat)
  | uncoveredCode (covered codeSize : Nat)
  | differentInstructions (method : Except Unresolved String)
  deriving DecidableEq

def Cause.message : Cause → String
  | .truncatedInput offset needed available =>
    s!"truncated input: needed {needed} byte(s) at offset {offset}, but only {available} remain"
  | .unrecognizedOpcode opcode offset =>
    "unrecognized opcode " ++ hex 2 opcode.toNat ++ s!" at bytecode offset {offset}"
  | .unresolved u => u.message
  | .lengthMismatch label declared computed =>
    "length mismatch for " ++ label.text ++ s!": declared {declared}, computed {computed}"
  | .badMagic magic => "wrong magic: got " ++ hex 8 magic.toNat ++ ", expected 0xcafebabe"
  | .unknownPoolTag tag index => s!"unknown constant pool tag {tag} at pool index {index}"
  | .trailingBytes count => s!"{count} trailing byte(s) after the end of the class file"
  | .malformed flaw => "malformed " ++ flaw.subject ++ ": " ++ flaw.reason
  | .misplacedInstruction instruction expected =>
    "instruction " ++ instruction.text ++
      s!" is at offset {instruction.offset}, expected {expected}"
  | .uncoveredCode covered codeSize =>
    s!"instructions take up {covered} bytes, but the code array has {codeSize} bytes"
  | .differentInstructions method =>
    "instructions of method " ++ resultText method ++ " re-encode differently"

inductive MemberTable where
  | fields
  | methods
  deriving DecidableEq

def MemberTable.noun : MemberTable → String
  | .fields => "field"
  | .methods => "method"

inductive Context where
  | element (index size : Nat)
  | readingPool
  | readingPoolEntry (index : UInt16)
  | readingInterfaces
  | readingMembers (table : MemberTable)
  | readingClassAttributes
  | readingAttribute (name : String)
  | readingCodeArray
  | readingExceptionTable
  | readingElementValue (nameIndex : UInt16)
  | bytecodeOffset (offset : UInt32)
  | utf8Length
  | poolCount
  | writingPool
  | writingPoolEntry (index : UInt16)
  | writingInterfaces
  | memberCount (table : MemberTable)
  | writingMember (table : MemberTable) (index : Nat)
  | writingClassAttributes
  | codeLength
  | newAttribute (name : String)
  | methodCode (method : Except Unresolved String)
  deriving DecidableEq

def Context.message : Context → String
  | .element index size => s!"while reading element {index} of {size}"
  | .readingPool => "while reading constant pool"
  | .readingPoolEntry index => s!"while reading constant pool entry {index}"
  | .readingInterfaces => "while reading interfaces"
  | .readingMembers .fields => "while reading fields"
  | .readingMembers .methods => "while reading methods"
  | .readingClassAttributes => "while reading class attributes"
  | .readingAttribute name => "while reading attribute " ++ quoted name
  | .readingCodeArray => "while reading code array"
  | .readingExceptionTable => "while reading exception table"
  | .readingElementValue nameIndex =>
    s!"while reading value of element with name index {nameIndex}"
  | .bytecodeOffset offset => s!"at bytecode offset {offset}"
  | .utf8Length => "length of `Utf8` entry"
  | .poolCount => "constant pool count"
  | .writingPool => "while writing constant pool"
  | .writingPoolEntry index => s!"while writing constant pool entry {index}"
  | .writingInterfaces => "while writing interfaces"
  | .memberCount table => table.noun ++ " count"
  | .writingMember table index => "while writing " ++ table.noun ++ s!" {index}"
  | .writingClassAttributes => "while writing class attributes"
  | .codeLength => "code length"
  | .newAttribute name => "for new attribute " ++ quoted name
  | .methodCode method => "failed to decode code of method " ++ resultText method

/-- A cause, with the places it passed, the outermost first. -/
structure Failure where
  contexts : List Context := []
  cause : Cause
  deriving DecidableEq

namespace Failure

def within (context : Context) (failure : Failure) : Failure :=
  { failure with contexts := context :: failure.contexts }

def ofFlaw (flaw : Flaw) : Failure := { cause := .malformed flaw }

def ofUnresolved (u : Unresolved) : Failure := { cause := .unresolved u }

def chain (failure : Failure) : List String :=
  failure.contexts.map (·.message) ++ [failure.cause.message]

def message (failure : Failure) : String := ": ".intercalate failure.chain

end Failure

def inContext {α : Type} (context : Context) : Except Failure α → Except Failure α
  | .ok a => .ok a
  | .error failure => .error (failure.within context)

end ClassFormat
