import ClassFormat.Class.Basic

namespace ClassFormat

inductive AttributePlace where
  | ofClass
  | ofField (index : Nat)
  | ofMethod (index : Nat)
  /-- The table inside the first `Code` attribute of a method. -/
  | ofCode (method : Nat)
  /-- The table of a component of the `Record` that is a given attribute of the class. -/
  | ofComponent (position component : Nat)
  deriving DecidableEq

namespace AttributePlace

def components? : Attribute → Option (List RecordComponent)
  | .record components => some components
  | _ => none

def get? (c : ClassFile) : AttributePlace → Option (List AttributeInfo)
  | .ofClass => some c.attributes
  | .ofField i => (c.fields[i]?).map (·.attributes)
  | .ofMethod i => (c.methods[i]?).map (·.attributes)
  | .ofCode i => (c.methods[i]?).bind fun m => m.code?.map (·.attributes)
  | .ofComponent position i => do
    let info ← c.attributes[position]?
    let component ← (← components? info.data)[i]?
    return component.attributes

def set (c : ClassFile) (attributes : List AttributeInfo) : AttributePlace → ClassFile
  | .ofClass => { c with attributes }
  | .ofField i => { c with fields := c.fields.modify i ({ · with attributes }) }
  | .ofMethod i => { c with methods := c.methods.modify i ({ · with attributes }) }
  | .ofCode i => { c with methods := c.methods.modify i setInCode }
  | .ofComponent position i => { c with attributes := c.attributes.modify position (setInRecord i) }
where
  setInCode (member : Member) : Member :=
    match member.code? with
    | some code => member.setCode { code with attributes }
    | none => member
  setInRecord (i : Nat) (info : AttributeInfo) : AttributeInfo :=
    match info.data with
    | .record components =>
      { info with data := .record (components.modify i ({ · with attributes })) }
    | _ => info

end AttributePlace

end ClassFormat
