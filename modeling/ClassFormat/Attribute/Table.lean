import ClassFormat.Layout

namespace ClassFormat

open Layout

structure InnerClass where
  innerClassIndex : UInt16
  outerClassIndex : UInt16
  innerNameIndex : UInt16
  accessFlags : UInt16
  deriving DecidableEq

structure LineNumber where
  startPc : UInt16
  line : UInt16
  deriving DecidableEq

/-- A local variable over a range of code; `typeIndex` is its descriptor or its signature. -/
structure LocalVariable where
  startPc : UInt16
  length : UInt16
  nameIndex : UInt16
  typeIndex : UInt16
  index : UInt16
  deriving DecidableEq

structure BootstrapMethod where
  methodRef : UInt16
  arguments : List UInt16
  deriving DecidableEq

/-- A parameter of a method; one without a name has index zero. -/
structure MethodParameter where
  nameIndex : UInt16
  accessFlags : UInt16
  deriving DecidableEq

/-- A handler for the code from `startPc` up to, but not including, `endPc`. One that catches
everything has type zero. -/
structure ExceptionHandler where
  startPc : UInt16
  endPc : UInt16
  handlerPc : UInt16
  catchType : UInt16
  deriving DecidableEq

structure ModuleRequirement where
  index : UInt16
  flags : UInt16
  versionIndex : UInt16
  deriving DecidableEq

/-- A package that a module exports or opens, to everyone or to some modules. -/
structure ModuleGrant where
  index : UInt16
  flags : UInt16
  toIndices : List UInt16
  deriving DecidableEq

structure ModuleProvision where
  index : UInt16
  withIndices : List UInt16
  deriving DecidableEq

/-- What a module declares; without a version its index is zero. -/
structure ModuleInfo where
  nameIndex : UInt16
  flags : UInt16
  versionIndex : UInt16
  requirements : List ModuleRequirement
  exported : List ModuleGrant
  opened : List ModuleGrant
  used : List UInt16
  provided : List ModuleProvision
  deriving DecidableEq

def indexList : Layout (List UInt16) := list 2 u16

-- each row tells its length as a number of its own, which `Lawful` holds against the bytes

def InnerClass.layout : Layout InnerClass :=
  ((u16.pair (u16.pair (u16.pair u16))).as
    (fun (innerClassIndex, outerClassIndex, innerNameIndex, accessFlags) =>
      { innerClassIndex, outerClassIndex, innerNameIndex, accessFlags })
    fun c => (c.innerClassIndex, c.outerClassIndex, c.innerNameIndex, c.accessFlags)).withLength
    fun _ => 8

def LineNumber.layout : Layout LineNumber :=
  ((u16.pair u16).as (fun (startPc, line) => { startPc, line })
    fun n => (n.startPc, n.line)).withLength fun _ => 4

def LocalVariable.layout : Layout LocalVariable :=
  ((u16.pair (u16.pair (u16.pair (u16.pair u16)))).as
    (fun (startPc, length, nameIndex, typeIndex, index) =>
      { startPc, length, nameIndex, typeIndex, index })
    fun v => (v.startPc, v.length, v.nameIndex, v.typeIndex, v.index)).withLength fun _ => 10

def BootstrapMethod.layout : Layout BootstrapMethod :=
  ((u16.pair indexList).as (fun (methodRef, arguments) => { methodRef, arguments })
    fun m => (m.methodRef, m.arguments)).withLength fun m => 2 + indexList.length m.arguments

def MethodParameter.layout : Layout MethodParameter :=
  ((u16.pair u16).as (fun (nameIndex, accessFlags) => { nameIndex, accessFlags })
    fun p => (p.nameIndex, p.accessFlags)).withLength fun _ => 4

def ExceptionHandler.layout : Layout ExceptionHandler :=
  ((u16.pair (u16.pair (u16.pair u16))).as
    (fun (startPc, endPc, handlerPc, catchType) => { startPc, endPc, handlerPc, catchType })
    fun h => (h.startPc, h.endPc, h.handlerPc, h.catchType)).withLength fun _ => 8

def ModuleRequirement.layout : Layout ModuleRequirement :=
  ((u16.pair (u16.pair u16)).as
    (fun (index, flags, versionIndex) => { index, flags, versionIndex })
    fun r => (r.index, r.flags, r.versionIndex)).withLength fun _ => 6

def ModuleGrant.layout : Layout ModuleGrant :=
  ((u16.pair (u16.pair indexList)).as
    (fun (index, flags, toIndices) => { index, flags, toIndices })
    fun g => (g.index, g.flags, g.toIndices)).withLength fun g => 4 + indexList.length g.toIndices

def ModuleProvision.layout : Layout ModuleProvision :=
  ((u16.pair indexList).as (fun (index, withIndices) => { index, withIndices })
    fun p => (p.index, p.withIndices)).withLength fun p => 2 + indexList.length p.withIndices

namespace ModuleInfo

def requirementTable : Layout (List ModuleRequirement) := list 2 ModuleRequirement.layout
def grantTable : Layout (List ModuleGrant) := list 2 ModuleGrant.layout
def provisionTable : Layout (List ModuleProvision) := list 2 ModuleProvision.layout

def layout : Layout ModuleInfo :=
  ((u16.pair (u16.pair (u16.pair (requirementTable.pair (grantTable.pair (grantTable.pair
    (indexList.pair provisionTable))))))).as
    (fun (nameIndex, flags, versionIndex, requirements, exported, opened, used, provided) =>
      { nameIndex, flags, versionIndex, requirements, exported, opened, used, provided })
    fun m => (m.nameIndex, m.flags, m.versionIndex, m.requirements, m.exported, m.opened, m.used,
      m.provided)).withLength
    fun m => 6 + requirementTable.length m.requirements + grantTable.length m.exported +
      grantTable.length m.opened + indexList.length m.used + provisionTable.length m.provided

end ModuleInfo

end ClassFormat
