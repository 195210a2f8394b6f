import ClassFormat.Attribute.Read
import ClassFormat.Attribute.Same
import ClassFormat.Attribute.Write
import ClassFormat.Class.Basic
import ClassFormat.Pool.Layout

namespace ClassFormat

namespace Member

def readWithin (budget : Nat) (pool : Pool) : Reader Member := do
  let accessFlags ← Reader.u16
  let nameIndex ← Reader.u16
  let descriptorIndex ← Reader.u16
  let attributes ← Reader.list 2 (AttributeInfo.readWithin pool budget)
  return { accessFlags, nameIndex, descriptorIndex, attributes }

def check (member : Member) : Except Failure Unit := checkAttributes member.attributes

def encode (member : Member) : Bytes :=
  word16 member.accessFlags ++ word16 member.nameIndex ++ word16 member.descriptorIndex ++
    encodeAttributes member.attributes

def length (member : Member) : Nat := 6 + attributesLength member.attributes

def same (member other : Member) : Bool :=
  member.accessFlags == other.accessFlags && member.nameIndex == other.nameIndex &&
    member.descriptorIndex == other.descriptorIndex &&
    Attribute.sameInfos member.attributes other.attributes

def checkTable (table : MemberTable) (members : List Member) : Except Failure Unit := do
  inContext (.memberCount table) (checkCount 16 members.length)
  members.zipIdx.forM fun m => inContext (.writingMember table m.2) m.1.check

def encodeTable (members : List Member) : Bytes :=
  bigEndian 2 members.length ++ members.flatMap (·.encode)

def tableLength (members : List Member) : Nat := 2 + Layout.total length members

end Member

namespace ClassFile

def magic : UInt32 := 0xcafebabe

def readWithin (budget : Nat) : Reader ClassFile := do
  let number ← Reader.u32
  if number ≠ magic then Reader.fail { cause := .badMagic number }
  else
    let minorVersion ← Reader.u16
    let majorVersion ← Reader.u16
    Reader.record (.version majorVersion minorVersion)
    let pool ← Reader.within .readingPool Pool.read
    let accessFlags ← Reader.u16
    let thisClass ← Reader.u16
    let superClass ← Reader.u16
    let interfaces ← Reader.within .readingInterfaces indexList.read
    let fields ←
      Reader.within (.readingMembers .fields) (Reader.list 2 (Member.readWithin budget pool))
    let methods ←
      Reader.within (.readingMembers .methods) (Reader.list 2 (Member.readWithin budget pool))
    Reader.record (.members fields.length methods.length)
    let attributes ←
      Reader.within .readingClassAttributes (Reader.list 2 (AttributeInfo.readWithin pool budget))
    let cursor ← get
    if cursor.rest.isEmpty then
      return ⟨minorVersion, majorVersion, pool, accessFlags, thisClass, superClass, interfaces,
        fields, methods, attributes⟩
    else Reader.fail { cause := .trailingBytes cursor.rest.length }

def readLogged (bytes : Bytes) : Except Failure ClassFile × List Event :=
  match readWithin bytes.length { rest := bytes } with
  | .ok c cursor => (.ok c, cursor.events.reverse)
  | .error failure cursor => (.error failure, cursor.events.reverse)

/-- Reads a class file that takes up all the bytes. -/
def read (bytes : Bytes) : Except Failure ClassFile := (readLogged bytes).1

def check (c : ClassFile) : Except Failure Unit := do
  inContext .writingPool c.pool.check
  inContext .writingInterfaces (indexList.check c.interfaces)
  Member.checkTable .fields c.fields
  Member.checkTable .methods c.methods
  inContext .writingClassAttributes (checkAttributes c.attributes)

def encode (c : ClassFile) : Bytes :=
  word32 magic ++ word16 c.minorVersion ++ word16 c.majorVersion ++ c.pool.encode ++
    word16 c.accessFlags ++ word16 c.thisClass ++ word16 c.superClass ++
    indexList.encode c.interfaces ++ Member.encodeTable c.fields ++ Member.encodeTable c.methods ++
    encodeAttributes c.attributes

def write (c : ClassFile) : Except Failure Bytes := do
  c.check
  return c.encode

def length (c : ClassFile) : Nat :=
  8 + c.pool.length + 6 + indexList.length c.interfaces + Member.tableLength c.fields +
    Member.tableLength c.methods + attributesLength c.attributes

/-- The attributes of fields, methods and the class, without those inside them. -/
def topAttributes (c : ClassFile) : List AttributeInfo :=
  c.fields.flatMap (·.attributes) ++ c.methods.flatMap (·.attributes) ++ c.attributes

def checkLengths (c : ClassFile) : Except Failure Unit := Attribute.checkLengths c.topAttributes

def updateLengths (c : ClassFile) : Except Failure ClassFile := do
  let fields ← c.fields.mapM update
  let methods ← c.methods.mapM update
  let attributes ← Attribute.updateLengths c.attributes
  return { c with fields, methods, attributes }
where
  update (member : Member) : Except Failure Member := do
    return { member with attributes := ← Attribute.updateLengths member.attributes }

def same (c d : ClassFile) : Bool :=
  c.minorVersion == d.minorVersion && c.majorVersion == d.majorVersion && c.pool == d.pool &&
    c.accessFlags == d.accessFlags && c.thisClass == d.thisClass && c.superClass == d.superClass &&
    c.interfaces == d.interfaces && sameAll Member.same c.fields d.fields &&
    sameAll Member.same c.methods d.methods && Attribute.sameInfos c.attributes d.attributes

end ClassFile

end ClassFormat
