import ClassFormat.Attribute.Length
import ClassFormat.Pool.Intern

namespace ClassFormat.AttributeInfo

def ofExcept {α : Type} : Except Failure α → Pool.Edit α
  | .ok a => fun pool => .ok a pool
  | .error failure => fun pool => .error failure pool

def new (data : Attribute) : Pool.Edit AttributeInfo :=
  match data.name? with
  | none => ofExcept (.error (.ofFlaw .namelessAttribute))
  | some name => do
    let nameIndex ← Pool.addUtf8 name
    let declaredLength ← ofExcept (inContext (.newAttribute name) data.computedLength)
    return { nameIndex, declaredLength, data }

def ofBytes (name : String) (bytes : Bytes) : Pool.Edit AttributeInfo := do
  let nameIndex ← Pool.addUtf8 name
  let data := Attribute.unknown bytes
  let declaredLength ← ofExcept data.computedLength
  return { nameIndex, declaredLength, data }

end ClassFormat.AttributeInfo
