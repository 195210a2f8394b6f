import ClassFormat.Layout

namespace ClassFormat

mutual

inductive ElementValue where
  /-- A primitive or a string; the tag says which. -/
  | const (tag : UInt8) (valueIndex : UInt16)
  | enum (typeNameIndex constNameIndex : UInt16)
  | classInfo (index : UInt16)
  | nested (value : Annotation)
  | array (values : List ElementValue)

structure Annotation where
  typeIndex : UInt16
  pairs : List ElementPair

structure ElementPair where
  nameIndex : UInt16
  value : ElementValue

end

namespace ElementValue

/-- Values enclosed by this many arrays and annotations are refused by reading. Writing has no
limit. -/
def maxNesting : Nat := 256

/-- The tags of constants: `B C D F I J S Z s`. -/
def constTags : List UInt8 := [0x42, 0x43, 0x44, 0x46, 0x49, 0x4a, 0x53, 0x5a, 0x73]

def enumTag : UInt8 := 0x65
def classTag : UInt8 := 0x63
def annotationTag : UInt8 := 0x40
def arrayTag : UInt8 := 0x5b

def tag : ElementValue → UInt8
  | .const tag _ => tag
  | .enum .. => enumTag
  | .classInfo _ => classTag
  | .nested _ => annotationTag
  | .array _ => arrayTag

def readAnnotationWith (value : Reader ElementValue) : Reader Annotation := do
  let typeIndex ← Reader.u16
  let pairs ← Reader.list 2 do
    let nameIndex ← Reader.u16
    let value ← Reader.within (.readingElementValue nameIndex) value
    return ⟨nameIndex, value⟩
  return ⟨typeIndex, pairs⟩

/-- Reads a value with room for `levels` more levels, its own included. -/
def readWithin : (levels : Nat) → Reader ElementValue
  | 0 => Reader.malformed (.deepElementValue maxNesting)
  | levels + 1 => do
    let tag ← Reader.u8
    if constTags.contains tag then return .const tag (← Reader.u16)
    else if tag = enumTag then return .enum (← Reader.u16) (← Reader.u16)
    else if tag = classTag then return .classInfo (← Reader.u16)
    else if tag = annotationTag then return .nested (← readAnnotationWith (readWithin levels))
    else if tag = arrayTag then return .array (← Reader.list 2 (readWithin levels))
    else Reader.malformed (.elementTag tag)

def read : Reader ElementValue := readWithin maxNesting

mutual

def check : ElementValue → Except Failure Unit
  | .const .. | .enum .. | .classInfo _ => .ok ()
  | .nested ⟨_, pairs⟩ => do
    checkCount 16 pairs.length
    checkPairs pairs
  | .array values => do
    checkCount 16 values.length
    checkValues values

def checkValues : List ElementValue → Except Failure Unit
  | [] => .ok ()
  | value :: values => do
    value.check
    checkValues values

def checkPairs : List ElementPair → Except Failure Unit
  | [] => .ok ()
  | ⟨_, value⟩ :: pairs => do
    value.check
    checkPairs pairs

end

mutual

def encode : ElementValue → Bytes
  | .const tag index => word8 tag ++ word16 index
  | .enum typeNameIndex constNameIndex =>
    word8 enumTag ++ word16 typeNameIndex ++ word16 constNameIndex
  | .classInfo index => word8 classTag ++ word16 index
  | .nested ⟨typeIndex, pairs⟩ =>
    word8 annotationTag ++ word16 typeIndex ++ bigEndian 2 pairs.length ++ encodePairs pairs
  | .array values => word8 arrayTag ++ bigEndian 2 values.length ++ encodeValues values

def encodeValues : List ElementValue → Bytes
  | [] => []
  | value :: values => value.encode ++ encodeValues values

def encodePairs : List ElementPair → Bytes
  | [] => []
  | ⟨nameIndex, value⟩ :: pairs => word16 nameIndex ++ value.encode ++ encodePairs pairs

end

mutual

def length : ElementValue → Nat
  | .const .. | .classInfo _ => 3
  | .enum .. => 5
  | .nested ⟨_, pairs⟩ => 5 + lengthPairs pairs
  | .array values => 3 + lengthValues values

def lengthValues : List ElementValue → Nat
  | [] => 0
  | value :: values => value.length + lengthValues values

def lengthPairs : List ElementPair → Nat
  | [] => 0
  | ⟨_, value⟩ :: pairs => 2 + value.length + lengthPairs pairs

end

mutual

def same : ElementValue → ElementValue → Bool
  | .const tag index, .const tag' index' => tag == tag' && index == index'
  | .enum typeName constName, .enum typeName' constName' =>
    typeName == typeName' && constName == constName'
  | .classInfo index, .classInfo index' => index == index'
  | .nested ⟨typeIndex, pairs⟩, .nested ⟨typeIndex', pairs'⟩ =>
    typeIndex == typeIndex' && samePairs pairs pairs'
  | .array values, .array values' => sameValues values values'
  | _, _ => false

def sameValues : List ElementValue → List ElementValue → Bool
  | [], [] => true
  | value :: values, value' :: values' => value.same value' && sameValues values values'
  | _, _ => false

def samePairs : List ElementPair → List ElementPair → Bool
  | [], [] => true
  | ⟨nameIndex, value⟩ :: pairs, ⟨nameIndex', value'⟩ :: pairs' =>
    nameIndex == nameIndex' && value.same value' && samePairs pairs pairs'
  | _, _ => false

end

def layout : Layout ElementValue := ⟨read, check, encode, length⟩

end ElementValue

namespace Annotation

def read : Reader Annotation := ElementValue.readAnnotationWith ElementValue.read

def check (a : Annotation) : Except Failure Unit := do
  checkCount 16 a.pairs.length
  ElementValue.checkPairs a.pairs

def encode (a : Annotation) : Bytes :=
  word16 a.typeIndex ++ bigEndian 2 a.pairs.length ++
    ElementValue.encodePairs a.pairs

def length (a : Annotation) : Nat := 4 + ElementValue.lengthPairs a.pairs

def same (a b : Annotation) : Bool :=
  a.typeIndex == b.typeIndex && ElementValue.samePairs a.pairs b.pairs

def layout : Layout Annotation := ⟨read, check, encode, length⟩

end Annotation

end ClassFormat
