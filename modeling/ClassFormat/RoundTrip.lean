import ClassFormat.Class.Layout

namespace ClassFormat.RoundTrip

inductive Outcome where
  | identical
  | mismatch (firstDifference : Nat)
  deriving DecidableEq

/-- Checks that instructions start where the ones before end, and gives where the last one does. -/
def checkOffsets : (expected : Nat) → List Instruction → Except Failure Nat
  | expected, [] => .ok expected
  | expected, instruction :: instructions =>
    if instruction.offset.toNat = expected then
      checkOffsets (expected + instruction.size.toNat) instructions
    else .error { cause := .misplacedInstruction instruction expected }

def checkCode (method : Except Unresolved String) (code : Bytes) : Except Failure Unit := do
  let instructions ← inContext (.methodCode method) (Instruction.decode code)
  let covered ← checkOffsets 0 instructions
  if covered ≠ code.length then .error { cause := .uncoveredCode covered code.length }
  else
    let encoded ← Instruction.encode instructions
    if encoded ≠ code then .error { cause := .differentInstructions method } else .ok ()

def checkMethod (pool : Pool) (method : Member) : Except Failure Unit :=
  match method.code? with
  | some code => checkCode (method.name pool) code.code
  | none => .ok ()

/-- The first position at which two sequences differ, or the length of the shorter one. -/
def firstDifference : Bytes → Bytes → Nat
  | a :: as, b :: bs => if a = b then firstDifference as bs + 1 else 0
  | _, _ => 0

def checkRead (bytes : Bytes) (c : ClassFile) : Except Failure Outcome := do
  c.methods.forM (checkMethod c.pool)
  let written ← c.write
  return if written = bytes then .identical else .mismatch (firstDifference written bytes)

def checkLogged (bytes : Bytes) : Except Failure Outcome × List Event :=
  let (result, events) := ClassFile.readLogged bytes
  (result.bind (checkRead bytes), events)

def check (bytes : Bytes) : Except Failure Outcome := (checkLogged bytes).1

end ClassFormat.RoundTrip
