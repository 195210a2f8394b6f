import ClassFormat.Layout
import ClassFormat.Pool.Basic

namespace ClassFormat

namespace Entry

def readBody : Kind → Reader Entry
  | .utf8 => do return ofBytes (← Reader.take (← Reader.number 2))
  | .integer => do return .integer (← Reader.i32)
  | .float => do return .float (← Reader.u32)
  | .long => do return .long (← Reader.i64)
  | .double => do return .double (← Reader.u64)
  | .classRef => do return .classRef (← Reader.u16)
  | .stringRef => do return .stringRef (← Reader.u16)
  | .memberRef kind => do return .memberRef kind (← Reader.u16) (← Reader.u16)
  | .nameAndType => do return .nameAndType (← Reader.u16) (← Reader.u16)
  | .methodHandle => do return .methodHandle (← Reader.u8) (← Reader.u16)
  | .methodType => do return .methodType (← Reader.u16)
  | .dynamic kind => do return .dynamic kind (← Reader.u16) (← Reader.u16)
  | .moduleRef => do return .moduleRef (← Reader.u16)
  | .packageRef => do return .packageRef (← Reader.u16)

def read (index : UInt16) : Reader Entry := do
  let tag ← Reader.u8
  match Kind.ofTag? tag with
  | some kind => readBody kind
  | none => Reader.fail { cause := .unknownPoolTag tag index }

def check : Entry → Except Failure Unit
  | .utf8 bytes _ => inContext .utf8Length (checkCount 16 bytes.length)
  | _ => .ok ()

def encodeBody : Entry → Bytes
  | .utf8 bytes _ => bigEndian 2 bytes.length ++ bytes
  | .integer value => word32 value.toUInt32
  | .float bits => word32 bits
  | .long value => word64 value.toUInt64
  | .double bits => word64 bits
  | .classRef index | .stringRef index | .methodType index | .moduleRef index
  | .packageRef index => word16 index
  | .memberRef _ first second | .nameAndType first second | .dynamic _ first second =>
    word16 first ++ word16 second
  | .methodHandle referenceKind index => word8 referenceKind ++ word16 index

def encode (entry : Entry) : Bytes := word8 entry.kind.tag ++ entry.encodeBody

def length (entry : Entry) : Nat :=
  1 + match entry with
    | .utf8 bytes _ => 2 + bytes.length
    | .integer _ | .float _ => 4
    | .long _ | .double _ => 8
    | .classRef _ | .stringRef _ | .methodType _ | .moduleRef _ | .packageRef _ => 2
    | .methodHandle .. => 3
    | .memberRef .. | .nameAndType .. | .dynamic .. => 4

def layout (index : UInt16) : Layout Entry := ⟨read index, check, encode, length⟩

end Entry

namespace Pool

/-- Reads entries until there is no room left behind the slots filled so far. Unused slots are not
among the bytes; they come back behind every entry that takes up two. -/
def readSlots : (room : Nat) → (slots : Array (Option Entry)) → Reader (Array (Option Entry))
  | 0, slots => return slots
  | 1, slots => do
    let entry ← readEntry slots
    if entry.isWide then Reader.malformed .missingUpperSlot
    else return slots.push (some entry)
  | room + 2, slots => do
    let entry ← readEntry slots
    if entry.isWide then readSlots room ((slots.push (some entry)).push none)
    else readSlots (room + 1) (slots.push (some entry))
where
  readEntry (slots : Array (Option Entry)) : Reader Entry :=
    let index := UInt16.ofNat slots.size
    Reader.within (.readingPoolEntry index) (Entry.read index)

def read : Reader Pool := do
  let count ← Reader.number 2
  if count = 0 then Reader.malformed .emptyPool
  else
    let slots ← readSlots (count - 1) #[none]
    Reader.record (.pool count)
    return ⟨slots⟩

def check (pool : Pool) : Except Failure Unit := do
  inContext .poolCount (checkCount 16 pool.slots.size)
  pool.entries.forM fun e => inContext (.writingPoolEntry e.1) e.2.check

def encode (pool : Pool) : Bytes :=
  bigEndian 2 pool.slots.size ++ pool.entries.flatMap (·.2.encode)

def length (pool : Pool) : Nat := 2 + Layout.total (·.2.length) pool.entries

def layout : Layout Pool := ⟨read, check, encode, length⟩

end Pool

end ClassFormat
