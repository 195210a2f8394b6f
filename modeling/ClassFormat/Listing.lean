import ClassFormat.Class.Basic
import ClassFormat.Pool.Describe
import ClassFormat.Text.Numeral

namespace ClassFormat

open Text Pool

namespace Listing

inductive Item where
  | heading (name : String) (major minor accessFlags : UInt16)
  | superClass (name : String)
  | interface (name : String)
  | poolHeading (count : UInt16)
  | entry (index : UInt16) (kind : Entry.Kind) (description : String)
  | member (table : MemberTable) (name descriptor : String) (accessFlags : UInt16)
  | attributeLine (indent : Nat) (name : String) (unknown : Bool) (length : UInt32)
  | code (maxStack maxLocals : UInt16)
  | instruction (i : Instruction)
  | handler (catchType : String) (startPc endPc handlerPc : UInt16)
  deriving DecidableEq

/-- Operands behind the mnemonic, jumps as the offsets they lead to. -/
def operandText (instruction : Instruction) : String :=
  match instruction.operands with
  | .none => ""
  | .immediateByte value => s!" {value}"
  | .immediateShort value => s!" {value}"
  | .increment index constant => s!" {index} {constant.toInt}"
  | .wideIncrement index constant => s!" {index} {constant.toInt}"
  | .invokeInterface index count => s!" #{index} {count}"
  | .invokeDynamic index => s!" #{index}"
  | .multiNewArray index dimensions => s!" #{index} {dimensions}"
  | .branch _ | .wideBranch _ | .tableSwitch .. | .lookupSwitch .. =>
    " -> " ++ commas (instruction.branchTargets.map toString)

def Item.text : Item → String
  | .heading name major minor accessFlags =>
    "class " ++ name ++ s!" (version {major}.{minor}, flags " ++ hex 4 accessFlags.toNat ++ ")"
  | .superClass name => "  extends " ++ name
  | .interface name => "  implements " ++ name
  | .poolHeading count => s!"constant pool, count {count}:"
  | .entry index kind description => s!"  #{index} = " ++ kind.name ++ " " ++ description
  | .member table name descriptor accessFlags =>
    table.noun ++ " " ++ name ++ descriptor ++ " (flags " ++ hex 4 accessFlags.toNat ++ ")"
  | .attributeLine indent name unknown length =>
    String.ofList (List.replicate indent ' ') ++ "attribute " ++ name ++
      (if unknown then " (unknown)" else "") ++ s!", {length} bytes"
  | .code maxStack maxLocals => s!"    code: max_stack = {maxStack}, max_locals = {maxLocals}"
  | .instruction i =>
    "    " ++ flushRight 5 i.offset.toNat ++ ": " ++
      i.mnemonic.getD "???" ++ operandText i
  | .handler catchType startPc endPc handlerPc =>
    "    catch " ++ catchType ++ s!" in {startPc}..{endPc} at {handlerPc}"

def attributeItem (pool : Pool) (indent : Nat) (info : AttributeInfo) : Item :=
  match info.data.name? with
  | some name => .attributeLine indent name false info.declaredLength
  | none =>
    .attributeLine indent (orPlaceholder (pool.utf8 info.nameIndex)) true info.declaredLength

def attributeItems (pool : Pool) (indent : Nat) (infos : List AttributeInfo) : List Item :=
  infos.map (attributeItem pool indent)

def memberItems (pool : Pool) (table : MemberTable) (member : Member) : List Item :=
  .member table (orPlaceholder (member.name pool)) (orPlaceholder (member.descriptor pool))
      member.accessFlags ::
    attributeItems pool 2 member.attributes

def handlerItem (pool : Pool) (handler : ExceptionHandler) : Item :=
  let catchType :=
    if handler.catchType = 0 then "any" else orPlaceholder (pool.className handler.catchType)
  .handler catchType handler.startPc handler.endPc handler.handlerPc

def entryItem (pool : Pool) (entry : UInt16 × Entry) : Item :=
  .entry entry.1 entry.2.kind (orPlaceholder (entry.2.describe pool))

def headItems (c : ClassFile) : List Item :=
  .heading (orPlaceholder c.thisClassName) c.majorVersion c.minorVersion c.accessFlags ::
    (match c.superClassName with
      | .ok (some name) => [.superClass name]
      | .ok none => []
      | .error u => [.superClass (orPlaceholder (.error u))]) ++
    c.interfaces.map (fun i => .interface (orPlaceholder (c.pool.className i))) ++
    .poolHeading c.pool.count :: c.pool.entries.map (entryItem c.pool)

end Listing

/-- The lines of a listing, and the failure that ended it early, if any. -/
structure Listing where
  items : List Listing.Item
  failure : Option Failure := none

namespace Listing

def andThen (first second : Listing) : Listing :=
  match first.failure with
  | some _ => first
  | none => { items := first.items ++ second.items, failure := second.failure }

def ofCode (pool : Pool) (code : Code) : Listing :=
  let head := Item.code code.maxStack code.maxLocals
  match code.instructions with
  | .ok instructions =>
    { items := head :: instructions.map .instruction ++ code.handlers.map (handlerItem pool) ++
        attributeItems pool 4 code.attributes }
  | .error failure => { items := [head], failure }

def ofMethod (pool : Pool) (withCode : Bool) (method : Member) : Listing :=
  let head : Listing := { items := memberItems pool .methods method }
  match withCode, method.code? with
  | true, some code => head.andThen (ofCode pool code)
  | _, _ => head

def ofClass (c : ClassFile) (withCode : Bool) : Listing :=
  let methods := c.methods.map (ofMethod c.pool withCode)
  let tail : Listing := { items := attributeItems c.pool 0 c.attributes }
  let head : Listing := { items := headItems c ++ c.fields.flatMap (memberItems c.pool .fields) }
  head.andThen (methods.foldr andThen tail)

def text (listing : Listing) : String :=
  String.join (listing.items.map fun item => item.text ++ "\n")

end Listing

end ClassFormat
