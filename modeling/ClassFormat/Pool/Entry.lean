import ClassFormat.Text.Modified

namespace ClassFormat

inductive MemberKind where
  | field
  | method
  | interfaceMethod
  deriving DecidableEq, Repr

/-- The kinds of entries that are computed by a bootstrap method. -/
inductive DynamicKind where
  | constant
  | call
  deriving DecidableEq, Repr

/-- An entry of the constant pool. Floating-point numbers are kept as bits, so that every NaN
survives; the bytes of a `utf8` entry are what counts, its text is a view of them. -/
inductive Entry where
  | utf8 (bytes : Bytes) (text : String)
  | integer (value : Int32)
  | float (bits : UInt32)
  | long (value : Int64)
  | double (bits : UInt64)
  | classRef (nameIndex : UInt16)
  | stringRef (stringIndex : UInt16)
  | memberRef (kind : MemberKind) (classIndex nameAndTypeIndex : UInt16)
  | nameAndType (nameIndex descriptorIndex : UInt16)
  | methodHandle (referenceKind : UInt8) (referenceIndex : UInt16)
  | methodType (descriptorIndex : UInt16)
  | dynamic (kind : DynamicKind) (bootstrapIndex nameAndTypeIndex : UInt16)
  | moduleRef (nameIndex : UInt16)
  | packageRef (nameIndex : UInt16)
  deriving DecidableEq

namespace Entry

inductive Kind where
  | utf8 | integer | float | long | double | classRef | stringRef
  | memberRef (kind : MemberKind)
  | nameAndType | methodHandle | methodType
  | dynamic (kind : DynamicKind)
  | moduleRef | packageRef
  deriving DecidableEq, Repr

def Kind.all : List Kind :=
  [.utf8, .integer, .float, .long, .double, .classRef, .stringRef, .memberRef .field,
    .memberRef .method, .memberRef .interfaceMethod, .nameAndType, .methodHandle, .methodType,
    .dynamic .constant, .dynamic .call, .moduleRef, .packageRef]

def Kind.tag : Kind → UInt8
  | .utf8 => 1
  | .integer => 3
  | .float => 4
  | .long => 5
  | .double => 6
  | .classRef => 7
  | .stringRef => 8
  | .memberRef .field => 9
  | .memberRef .method => 10
  | .memberRef .interfaceMethod => 11
  | .nameAndType => 12
  | .methodHandle => 15
  | .methodType => 16
  | .dynamic .constant => 17
  | .dynamic .call => 18
  | .moduleRef => 19
  | .packageRef => 20

def Kind.ofTag? (tag : UInt8) : Option Kind := Kind.all.find? (·.tag == tag)

def Kind.name : Kind → String
  | .utf8 => "Utf8"
  | .integer => "Integer"
  | .float => "Float"
  | .long => "Long"
  | .double => "Double"
  | .classRef => "Class"
  | .stringRef => "String"
  | .memberRef .field => "Fieldref"
  | .memberRef .method => "Methodref"
  | .memberRef .interfaceMethod => "InterfaceMethodref"
  | .nameAndType => "NameAndType"
  | .methodHandle => "MethodHandle"
  | .methodType => "MethodType"
  | .dynamic .constant => "Dynamic"
  | .dynamic .call => "InvokeDynamic"
  | .moduleRef => "Module"
  | .packageRef => "Package"

/-- The kinds that take up two slots of the pool. -/
def Kind.isWide : Kind → Bool
  | .long | .double => true
  | _ => false

def kind : Entry → Kind
  | .utf8 .. => .utf8
  | .integer .. => .integer
  | .float .. => .float
  | .long .. => .long
  | .double .. => .double
  | .classRef .. => .classRef
  | .stringRef .. => .stringRef
  | .memberRef kind .. => .memberRef kind
  | .nameAndType .. => .nameAndType
  | .methodHandle .. => .methodHandle
  | .methodType .. => .methodType
  | .dynamic kind .. => .dynamic kind
  | .moduleRef .. => .moduleRef
  | .packageRef .. => .packageRef

def isWide (entry : Entry) : Bool := entry.kind.isWide

def slots (entry : Entry) : Nat := if entry.isWide then 2 else 1

def ofText (text : String) : Entry := .utf8 (Modified.encode text) text

def ofBytes (bytes : Bytes) : Entry := .utf8 bytes (Modified.decode bytes)

theorem Kind.ofTag?_tag (kind : Kind) : Kind.ofTag? kind.tag = some kind := by
  cases kind with
  | memberRef m => cases m <;> rfl
  | dynamic d => cases d <;> rfl
  | _ => rfl

end Entry

end ClassFormat
