import ClassFormat.Pool.Basic

namespace ClassFormat

namespace Pool

/-- An edit that fails half way keeps what it had added. -/
abbrev Edit (α : Type) := EStateM Failure Pool α

/-- A pool has at most this many slots, the unused ones included. -/
def maxSlots : Nat := 65535

def push (pool : Pool) (entry : Entry) : Pool :=
  let slots := pool.slots.push (some entry)
  ⟨if entry.isWide then slots.push none else slots⟩

/-- The smallest index of an entry equal to `entry`. -/
def indexOf? (pool : Pool) (entry : Entry) : Option UInt16 :=
  (pool.slots.idxOf? (some entry)).map UInt16.ofNat

/-- The index of an entry, added at the end unless it is there already. How much room to make for
further entries is no part of what a pool holds, so it is not asked for. -/
def intern (entry : Entry) : Edit UInt16 := fun pool =>
  match pool.indexOf? entry with
  | some index => .ok index pool
  | none =>
    if pool.slots.size + entry.slots > maxSlots then .error (.ofFlaw (.fullPool entry.kind)) pool
    else .ok pool.count (pool.push entry)

def addUtf8 (text : String) : Edit UInt16 := intern (.ofText text)

def addClass (name : String) : Edit UInt16 := do intern (.classRef (← addUtf8 name))

def addString (value : String) : Edit UInt16 := do intern (.stringRef (← addUtf8 value))

def addInteger (value : Int32) : Edit UInt16 := intern (.integer value)
def addFloat (bits : UInt32) : Edit UInt16 := intern (.float bits)
def addLong (value : Int64) : Edit UInt16 := intern (.long value)
def addDouble (bits : UInt64) : Edit UInt16 := intern (.double bits)

def addNameAndType (name descriptor : String) : Edit UInt16 := do
  let nameIndex ← addUtf8 name
  let descriptorIndex ← addUtf8 descriptor
  intern (.nameAndType nameIndex descriptorIndex)

def addMember (kind : MemberKind) (owner name descriptor : String) : Edit UInt16 := do
  let classIndex ← addClass owner
  let nameAndTypeIndex ← addNameAndType name descriptor
  intern (.memberRef kind classIndex nameAndTypeIndex)

end Pool

end ClassFormat
