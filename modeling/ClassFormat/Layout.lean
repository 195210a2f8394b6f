import ClassFormat.Reader

namespace ClassFormat

/-- Fails unless `value` can be written in `bits` bits. -/
def checkCount (bits value : Nat) : Except Failure Unit :=
  if value < Nat.pow 2 bits then .ok () else .error (.ofFlaw (.count value bits))

/-- How values of one type are read, which of them can be written, as what bytes and how many. -/
structure Layout (α : Type) where
  read : Reader α
  /-- Fails for the values that cannot be written. -/
  check : α → Except Failure Unit
  /-- The bytes of a value that passes `check`. -/
  encode : α → Bytes
  length : α → Nat

namespace Layout

variable {α β : Type}

def write (layout : Layout α) (a : α) : Except Failure Bytes := do
  layout.check a
  return layout.encode a

def count (width : Nat) : Layout Nat :=
  ⟨Reader.number width, checkCount (8 * width), bigEndian width, fun _ => width⟩

def u8 : Layout UInt8 := ⟨Reader.u8, fun _ => .ok (), word8, fun _ => 1⟩
def u16 : Layout UInt16 := ⟨Reader.u16, fun _ => .ok (), word16, fun _ => 2⟩
def u32 : Layout UInt32 := ⟨Reader.u32, fun _ => .ok (), word32, fun _ => 4⟩
def u64 : Layout UInt64 := ⟨Reader.u64, fun _ => .ok (), word64, fun _ => 8⟩

def pair (first : Layout α) (second : Layout β) : Layout (α × β) where
  read := do
    let a ← first.read
    let b ← second.read
    return (a, b)
  check p := do
    first.check p.1
    second.check p.2
  encode p := first.encode p.1 ++ second.encode p.2
  length p := first.length p.1 + second.length p.2

/-- The same bytes for a type with the same values. -/
def as (layout : Layout α) (toFun : α → β) (invFun : β → α) : Layout β where
  read := toFun <$> layout.read
  check b := layout.check (invFun b)
  encode b := layout.encode (invFun b)
  length b := layout.length (invFun b)

/-- The same bytes, with their number told apart from them. -/
def withLength (layout : Layout α) (length : α → Nat) : Layout α := { layout with length }

def total (size : α → Nat) : List α → Nat
  | [] => 0
  | a :: as => size a + total size as

/-- A list behind a count of `width` bytes. -/
def list (width : Nat) (item : Layout α) : Layout (List α) where
  read := Reader.list width item.read
  check as := do
    checkCount (8 * width) as.length
    as.forM item.check
  encode as := bigEndian width as.length ++ as.flatMap item.encode
  length as := width + total item.length as

def i8 : Layout Int8 := u8.as UInt8.toInt8 Int8.toUInt8
def i16 : Layout Int16 := u16.as UInt16.toInt16 Int16.toUInt16
def i32 : Layout Int32 := u32.as UInt32.toInt32 Int32.toUInt32
def i64 : Layout Int64 := u64.as UInt64.toInt64 Int64.toUInt64

end Layout

end ClassFormat
