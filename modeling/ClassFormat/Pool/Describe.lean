import ClassFormat.Decimal.Positional
import ClassFormat.Pool.Basic

namespace ClassFormat

def handleName (referenceKind : UInt8) : String :=
  match referenceKind with
  | 1 => "REF_getField"
  | 2 => "REF_getStatic"
  | 3 => "REF_putField"
  | 4 => "REF_putStatic"
  | 5 => "REF_invokeVirtual"
  | 6 => "REF_invokeStatic"
  | 7 => "REF_invokeSpecial"
  | 8 => "REF_newInvokeSpecial"
  | 9 => "REF_invokeInterface"
  | _ => "REF_unknown"

/-- Describes an entry, following at most `links` method handles. -/
def Entry.describeWithin (pool : Pool) : (links : Nat) → Entry → Except Unresolved String
  | _, .utf8 _ text => .ok text
  | _, .integer value => .ok (toString value.toInt)
  | _, .float bits => .ok (Decimal.float32Text bits ++ "f")
  | _, .long value => .ok (toString value.toInt ++ "L")
  | _, .double bits => .ok (Decimal.float64Text bits ++ "d")
  | _, .classRef index | _, .stringRef index | _, .methodType index | _, .moduleRef index
  | _, .packageRef index => pool.utf8 index
  | _, .memberRef _ classIndex nameAndTypeIndex => do
    let owner ← pool.className classIndex
    let (name, descriptor) ← pool.nameAndType nameAndTypeIndex
    return owner ++ "." ++ name ++ ":" ++ descriptor
  | _, .nameAndType nameIndex descriptorIndex => do
    let name ← pool.utf8 nameIndex
    let descriptor ← pool.utf8 descriptorIndex
    return name ++ ":" ++ descriptor
  | _, .dynamic _ bootstrapIndex nameAndTypeIndex => do
    let (name, descriptor) ← pool.nameAndType nameAndTypeIndex
    return s!"#{bootstrapIndex}:" ++ name ++ ":" ++ descriptor
  | 0, .methodHandle _ index => .error ⟨index, .endless⟩
  | links + 1, .methodHandle referenceKind index => do
    let target ← pool.get index
    let description ← target.describeWithin pool links
    return handleName referenceKind ++ " " ++ description

/-- Describes an entry. Handles that form no cycle lead on to each slot at most once. -/
def Entry.describe (entry : Entry) (pool : Pool) : Except Unresolved String :=
  entry.describeWithin pool pool.slots.size

namespace Pool

def describe (pool : Pool) (index : UInt16) : Except Unresolved String := do
  (← pool.get index).describe pool

def orPlaceholder : Except Unresolved String → String
  | .ok text => text
  | .error u => "<" ++ u.message ++ ">"

def text (pool : Pool) : String :=
  "\x7b" ++ Text.commas (pool.entries.map fun e =>
    toString e.1 ++ ": " ++ e.2.kind.name ++ ": " ++ orPlaceholder (e.2.describe pool)) ++ "\x7d"

end Pool

end ClassFormat
