import ClassFormat.Log

namespace ClassFormat

/-- The bytes still to be read, with the number of those read before them and the events so far, the
latest first. -/
structure Cursor where
  position : Nat := 0
  rest : Bytes
  events : List Event := []

abbrev Reader (α : Type) := EStateM Failure Cursor α

namespace Reader

variable {α β : Type}

def fail (failure : Failure) : Reader α := fun c => .error failure c

def malformed (flaw : Flaw) : Reader α := fail (.ofFlaw flaw)

/-- Reports a failure of `reader` as happening within `context`. -/
def within (context : Context) (reader : Reader α) : Reader α := fun c =>
  match reader c with
  | .ok a c => .ok a c
  | .error failure c => .error (failure.within context) c

def record (event : Event) : Reader Unit := fun c =>
  .ok () { c with events := event :: c.events }

/-- The failure of a read for which too few bytes are left. -/
def truncation (c : Cursor) (count : Nat) : Failure :=
  { cause := .truncatedInput c.position count c.rest.length }

/-- The next `count` bytes. Where there are fewer, none are read. -/
def take (count : Nat) : Reader Bytes := fun c =>
  let taken := c.rest.take count
  if taken.length < count then .error (truncation c count) c
  else .ok taken { c with position := c.position + count, rest := c.rest.drop count }

def takeRest : Reader Bytes := fun c =>
  .ok c.rest { c with position := c.position + c.rest.length, rest := [] }

def number (width : Nat) : Reader Nat := do return ofBigEndian (← take width)

def u8 : Reader UInt8 := do return UInt8.ofNat (← number 1)
def u16 : Reader UInt16 := do return UInt16.ofNat (← number 2)
def u32 : Reader UInt32 := do return UInt32.ofNat (← number 4)
def u64 : Reader UInt64 := do return UInt64.ofNat (← number 8)
def i8 : Reader Int8 := do return (← u8).toInt8
def i16 : Reader Int16 := do return (← u16).toInt16
def i32 : Reader Int32 := do return (← u32).toInt32
def i64 : Reader Int64 := do return (← u64).toInt64

/-- Runs `body` on a cursor over just the next `count` bytes, so that it cannot read past them. Also
gives the cursor that `body` leaves. -/
def inside (count : Nat) (body : Reader α) : Reader (α × Cursor) := do
  let bytes ← take count
  fun c =>
    match body { rest := bytes, events := c.events } with
    | .ok a inner => .ok (a, inner) { c with events := inner.events }
    | .error failure inner => .error failure { c with events := inner.events }

/-- Reads `count` items, numbered from `index` on, behind those read already. -/
def collect (item : Nat → Reader α) : (count index : Nat) → (read : List α) → Reader (List α)
  | 0, _, read => return read.reverse
  | count + 1, index, read => do
    let a ← item index
    collect item count (index + 1) (a :: read)

def times (count : Nat) (item : Reader α) : Reader (List α) := collect (fun _ => item) count 0 []

def elements (size : Nat) (item : Reader α) : Reader (List α) :=
  collect (fun index => within (.element index size) item) size 0 []

/-- A list behind a count of `width` bytes. -/
def list (width : Nat) (item : Reader α) : Reader (List α) := do elements (← number width) item

def run (reader : Reader α) (bytes : Bytes) : Except Failure α :=
  match reader { rest := bytes } with
  | .ok a _ => .ok a
  | .error failure _ => .error failure

end Reader

end ClassFormat
