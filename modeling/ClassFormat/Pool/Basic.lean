import ClassFormat.Failure

namespace ClassFormat

/-- Slot zero is never used, and neither is the one after a `long` or `double`. -/
structure Pool where
  slots : Array (Option Entry) := #[none]
  deriving DecidableEq

namespace Pool

def empty : Pool := {}

def count (pool : Pool) : UInt16 := UInt16.ofNat pool.slots.size

def entries (pool : Pool) : List (UInt16 × Entry) :=
  pool.slots.toList.zipIdx.filterMap fun s => s.1.map fun entry => (UInt16.ofNat s.2, entry)

def get (pool : Pool) (index : UInt16) : Except Unresolved Entry :=
  match pool.slots[index.toNat]? with
  | some (some entry) => .ok entry
  | some none => .error ⟨index, if index = 0 then .zero else .upperHalf⟩
  | none => .error ⟨index, .outOfRange pool.slots.size⟩

def wrongKind {α : Type} (index : UInt16) (expected : String) (got : Entry) : Except Unresolved α :=
  .error ⟨index, .wrongKind expected got.kind⟩

def utf8 (pool : Pool) (index : UInt16) : Except Unresolved String := do
  match ← pool.get index with
  | .utf8 _ text => .ok text
  | entry => wrongKind index "Utf8" entry

def utf8Bytes (pool : Pool) (index : UInt16) : Except Unresolved Bytes := do
  match ← pool.get index with
  | .utf8 bytes _ => .ok bytes
  | entry => wrongKind index "Utf8" entry

/-- The name of a class entry. The index that does not resolve may be the one of the name. -/
def className (pool : Pool) (index : UInt16) : Except Unresolved String := do
  match ← pool.get index with
  | .classRef nameIndex => pool.utf8 nameIndex
  | entry => wrongKind index "Class" entry

def nameAndType (pool : Pool) (index : UInt16) : Except Unresolved (String × String) := do
  match ← pool.get index with
  | .nameAndType nameIndex descriptorIndex =>
    let name ← pool.utf8 nameIndex
    let descriptor ← pool.utf8 descriptorIndex
    return (name, descriptor)
  | entry => wrongKind index "NameAndType" entry

/-- The one name an entry carries, itself or by reference. -/
def name (pool : Pool) (index : UInt16) : Except Unresolved String := do
  match ← pool.get index with
  | .utf8 _ text => .ok text
  | .classRef nameIndex | .nameAndType nameIndex _ | .moduleRef nameIndex | .packageRef nameIndex =>
    pool.utf8 nameIndex
  | .stringRef stringIndex => pool.utf8 stringIndex
  | .methodType descriptorIndex => pool.utf8 descriptorIndex
  | entry => wrongKind index "named" entry

end Pool

end ClassFormat
