import ClassFormat.Proofs.Layout
import ClassFormat.Proofs.Reader.Failing

namespace ClassFormat

/-- The words that are written and read at their full width. Floating-point numbers go by their
bits. -/
inductive Word where
  | u8 | u16 | u32 | u64 | i8 | i16 | i32 | i64 | f32 | f64

namespace Word

def Value : Word → Type
  | .u8 => UInt8
  | .u16 => UInt16
  | .u32 | .f32 => UInt32
  | .u64 | .f64 => UInt64
  | .i8 => Int8
  | .i16 => Int16
  | .i32 => Int32
  | .i64 => Int64

def layout : (w : Word) → Layout w.Value
  | .u8 => Layout.u8
  | .u16 => Layout.u16
  | .u32 | .f32 => Layout.u32
  | .u64 | .f64 => Layout.u64
  | .i8 => Layout.i8
  | .i16 => Layout.i16
  | .i32 => Layout.i32
  | .i64 => Layout.i64

theorem lawful (w : Word) : w.layout.Lawful := by
  cases w with
  | u8 => exact .u8
  | u16 => exact .u16
  | u32 | f32 => exact .u32
  | u64 | f64 => exact .u64
  | i8 => exact Layout.Lawful.u8.as UInt8.toUInt8_toInt8 Int8.toInt8_toUInt8
  | i16 => exact Layout.Lawful.u16.as UInt16.toUInt16_toInt16 Int16.toInt16_toUInt16
  | i32 => exact Layout.Lawful.u32.as UInt32.toUInt32_toInt32 Int32.toInt32_toUInt32
  | i64 => exact Layout.Lawful.u64.as UInt64.toUInt64_toInt64 Int64.toInt64_toUInt64

theorem check_eq_ok (w : Word) (value : w.Value) : w.layout.check value = .ok () := by
  cases w <;> rfl

theorem exists_takes (w : Word) : ∃ width value, w.layout.read.Takes width value := by
  cases w with
  | u8 => exact ⟨_, _, .u8⟩
  | u16 => exact ⟨_, _, .u16⟩
  | u32 | f32 => exact ⟨_, _, .u32⟩
  | u64 | f64 => exact ⟨_, _, .u64⟩
  | i8 => exact ⟨_, _, Reader.Takes.u8.map UInt8.toInt8⟩
  | i16 => exact ⟨_, _, Reader.Takes.u16.map UInt16.toInt16⟩
  | i32 => exact ⟨_, _, .i32⟩
  | i64 => exact ⟨_, _, .i64⟩

end Word

/-- What one write puts down, and what the read that belongs to it takes up: a word, a number that
has to fit into so many bytes, bytes of a known number, or a list behind its count. -/
inductive Step where
  | word (w : Word)
  | count (width : Nat)
  | bytes (size : Nat)
  | list (width : Nat) (element : List Step)

namespace Step

mutual

def Value : Step → Type
  | .word w => w.Value
  | .count _ => Nat
  | .bytes _ => Bytes
  | .list _ element => List (Values element)

def Values : List Step → Type
  | [] => Unit
  | step :: steps => step.Value × Values steps

end

def raw (size : Nat) : Layout Bytes := ⟨Reader.take size, fun _ => .ok (), id, List.length⟩

def nothing : Layout Unit := ⟨pure (), fun _ => .ok (), fun _ => [], fun _ => 0⟩

mutual

def layout : (step : Step) → Layout step.Value
  | .word w => w.layout
  | .count width => Layout.count width
  | .bytes size => raw size
  | .list width element => Layout.list width (layouts element)

def layouts : (steps : List Step) → Layout (Values steps)
  | [] => nothing
  | step :: steps => step.layout.pair (layouts steps)

end

mutual

def Sized : (step : Step) → step.Value → Prop
  | .word _, _ | .count _, _ => True
  | .bytes size, (content : Bytes) => content.length = size
  | .list _ element, (elements : List (Values element)) =>
    ∀ values ∈ elements, AllSized element values

def AllSized : (steps : List Step) → Values steps → Prop
  | [], _ => True
  | step :: steps, values => step.Sized values.1 ∧ AllSized steps values.2

end

mutual

/-- The counts in a value fit into the bytes that they are written in, and the bytes in it are as
many as the step says. -/
def Fits : (step : Step) → step.Value → Prop
  | .word _, _ => True
  | .count width, (n : Nat) => n < 256 ^ width
  | .bytes size, (content : Bytes) => content.length = size
  | .list width element, (elements : List (Values element)) =>
    elements.length < 256 ^ width ∧ ∀ values ∈ elements, AllFit element values

def AllFit : (steps : List Step) → Values steps → Prop
  | [], _ => True
  | step :: steps, values => step.Fits values.1 ∧ AllFit steps values.2

end

/-- Writes the values one after the other behind what has been written already. -/
def writeAll : (steps : List Step) → Values steps → (written : Bytes) → Except Failure Bytes
  | [], _, written => .ok written
  | step :: steps, values, written => do
    let bytes ← step.layout.write values.1
    writeAll steps values.2 (written ++ bytes)

def readAll : (steps : List Step) → Reader (Values steps)
  | [] => return ()
  | step :: steps => do
    let value ← step.layout.read
    let values ← readAll steps
    return (value, values)

theorem readAll_eq (steps : List Step) : readAll steps = (layouts steps).read := by
  induction steps with
  | nil => rfl
  | cons step steps ih =>
    rw [readAll, ih]
    rfl

theorem check_cons {step : Step} {steps : List Step} {values : Values (step :: steps)} :
    (layouts (step :: steps)).check values = .ok () ↔
      step.layout.check values.1 = .ok () ∧ (layouts steps).check values.2 = .ok () :=
  check_then_eq_ok

theorem writeAll_eq_ok {steps : List Step} {values : Values steps} {written bytes : Bytes} :
    writeAll steps values written = .ok bytes ↔
      (layouts steps).check values = .ok () ∧ bytes = written ++ (layouts steps).encode values := by
  induction steps generalizing written with
  | nil =>
    simp only [writeAll, layouts, nothing, Except.ok.injEq, true_and, List.append_nil]
    exact eq_comm
  | cons step steps ih =>
    have hencode : (layouts (step :: steps)).encode values =
        step.layout.encode values.1 ++ (layouts steps).encode values.2 := rfl
    rw [writeAll, except_bind_eq_ok, check_cons, hencode]
    simp only [Layout.write_eq_ok, ih]
    grind

theorem raw_lawful (size : Nat) : (raw size).Lawful fun bytes => bytes.length = size where
  read := (Reader.Exact.take size).congr fun bytes a => by simp [raw]
  length _ := rfl

theorem nothing_lawful : nothing.Lawful where
  read := (Reader.Exact.pure ()).congr fun bytes a => by simp [nothing]
  length _ := rfl

mutual

theorem lawful : (step : Step) → step.layout.Lawful step.Sized
  | .word w => w.lawful
  | .count width => .count width
  | .bytes size => raw_lawful size
  | .list width element => (lawful_all element).list width

theorem lawful_all : (steps : List Step) → (layouts steps).Lawful (AllSized steps)
  | [] => nothing_lawful
  | step :: steps => (lawful step).pair (lawful_all steps)

end

mutual

/-- Only a count can be refused. -/
theorem fits_iff : (step : Step) → (value : step.Value) →
    (step.Fits value ↔ step.layout.check value = .ok () ∧ step.Sized value)
  | .word w, value => by
    rw [Fits, Sized, and_true, true_iff]
    exact w.check_eq_ok value
  | .count width, (n : Nat) => by
    simp only [Fits, Sized, layout, Layout.count, checkCount_eq_ok, pow_eight_mul, and_true]
  | .bytes size, (content : Bytes) => by
    simp only [Fits, Sized, layout, raw, true_and]
  | .list width element, (elements : List (Values element)) => by
    have hcheck : (layout (.list width element)).check elements = .ok () ↔
        elements.length < 256 ^ width ∧
          ∀ values ∈ elements, (layouts element).check values = .ok () := by
      rw [← pow_eight_mul, ← checkCount_eq_ok, ← forM_eq_ok]
      exact check_then_eq_ok
    simp only [Fits, Sized, hcheck, allFit_iff element]
    grind

theorem allFit_iff : (steps : List Step) → (values : Values steps) →
    (AllFit steps values ↔ (layouts steps).check values = .ok () ∧ AllSized steps values)
  | [], _ => iff_of_true trivial ⟨rfl, trivial⟩
  | step :: steps, values => by
    rw [AllFit, AllSized, check_cons, fits_iff step, allFit_iff steps]
    exact and_and_and_comm

end

/-- What a sequence of steps writes is read back, up to where it ends. -/
theorem exists_writeAll_readAll {steps : List Step} {values : Values steps}
    (hfit : AllFit steps values) : ∃ bytes, writeAll steps values [] = .ok bytes ∧
      ∀ rest, ∃ c, readAll steps { rest := bytes ++ rest } = .ok values c ∧
        c.position = bytes.length ∧ c.rest = rest := by
  obtain ⟨hcheck, hsized⟩ := (allFit_iff steps values).1 hfit
  refine ⟨(layouts steps).encode values, writeAll_eq_ok.2 ⟨hcheck, rfl⟩, fun rest => ?_⟩
  obtain ⟨c, hread, hmoves⟩ := (lawful_all steps).read.complete
    (c := { rest := (layouts steps).encode values ++ rest }) ⟨rfl, hcheck, hsized⟩ rfl
  -- reading began at position zero
  refine ⟨c, ?_, ?_, hmoves.rest_eq rfl⟩
  · rw [readAll_eq, hread]
  · rw [hmoves.position, Nat.zero_add]

end Step

namespace Reader

variable {α β : Type} {reader : Reader α}

/-- Where a reader leaves the cursor, whether it fails or not. -/
def after (reader : Reader α) (c : Cursor) : Cursor :=
  match reader c with
  | .ok _ c' | .error _ c' => c'

/-- Runs `reader`, and goes on behind it in any case. -/
def attempt (reader : Reader α) : Reader Unit := fun c => .ok () (reader.after c)

theorem after_of_ok {c c' : Cursor} {a : α} (h : reader c = .ok a c') : reader.after c = c' := by
  rw [after, h]

theorem after_of_error {c c' : Cursor} {failure : Failure} (h : reader c = .error failure c') :
    reader.after c = c' := by
  rw [after, h]

theorem after_bind (reader : Reader α) (next : α → Reader β) (c : Cursor) :
    (reader >>= next).after c = match reader c with
      | .ok a c' => (next a).after c'
      | .error _ c' => c' := by
  rw [after, bind_apply]
  cases reader c with
  | ok a c' => rfl
  | error failure c' => rfl

end Reader

/-- All bytes of the input: those read and those left. -/
def Cursor.size (c : Cursor) : Nat := c.position + c.rest.length

namespace Reader

variable {α β : Type} {reader : Reader α}

/-- The reader never loses count of its bytes. -/
def Steady (reader : Reader α) : Prop := ∀ c, (reader.after c).size = c.size

namespace Steady

theorem pure (a : α) : Steady (pure a : Reader α) := fun _ => rfl

theorem bind {next : α → Reader β} (h : reader.Steady) (hn : ∀ a, (next a).Steady) :
    (reader >>= next).Steady := by
  intro c
  have hc := h c
  rw [after_bind]
  cases hr : reader c with
  | ok a c' => rw [hn a c', ← hc, after_of_ok hr]
  | error failure c' => rw [← hc, after_of_error hr]

theorem within (h : reader.Steady) (context : Context) :
    (Reader.within context reader).Steady := by
  intro c
  rw [← h c, after, after, Reader.within]
  cases reader c with
  | ok a c' => rfl
  | error failure c' => rfl

theorem attempt (h : reader.Steady) : reader.attempt.Steady := h

theorem of_takes {width : Nat} {value : Bytes → α} (h : reader.Takes width value) :
    reader.Steady := by
  intro c
  rw [after, h c]
  by_cases hshort : c.rest.length < width
  · rw [if_pos hshort]
  · rw [if_neg hshort]
    simp only [Cursor.size, List.length_drop]
    omega

theorem collect {item : Nat → Reader α} (h : ∀ index, (item index).Steady) (count index : Nat)
    (read : List α) : (Reader.collect item count index read).Steady := by
  induction count generalizing index read with
  | zero => exact pure _
  | succ count ih =>
    apply (h index).bind
    intro a
    exact ih (index + 1) (a :: read)

theorem list (h : reader.Steady) (width : Nat) : (Reader.list width reader).Steady := by
  apply (of_takes (.number width)).bind
  intro size
  exact collect (fun index => h.within _) size 0 []

theorem inside (count : Nat) (body : Reader α) : (Reader.inside count body).Steady := by
  intro c
  rw [after, inside_apply]
  by_cases hshort : c.rest.length < count
  · rw [if_pos hshort]
  · rw [if_neg hshort]
    cases body { rest := c.rest.take count, events := c.events } with
    | ok a inner | error failure inner =>
      simp only [Cursor.size, List.length_drop]
      omega

end Steady

end Reader

namespace Step

mutual

theorem steady : (step : Step) → step.layout.read.Steady
  | .word w =>
    have ⟨_, _, htakes⟩ := w.exists_takes
    .of_takes htakes
  | .count width => .of_takes (.number width)
  | .bytes size => .of_takes (.take size)
  | .list width element => (steady_all element).list width

theorem steady_all : (steps : List Step) → (layouts steps).read.Steady
  | [] => .pure ()
  | step :: steps => (steady step).bind fun _ => (steady_all steps).bind fun _ => .pure _

end

end Step

/-- What may be asked of a reader: the read of a step, or to split off a reader for its next bytes,
of which other things are asked. -/
inductive Call where
  | read (step : Step)
  | split (size : Nat) (calls : List Call)

namespace Call

mutual

def perform : Call → Reader Unit
  | .read step => do
    let _ ← step.layout.read
  | .split size calls => do
    let _ ← Reader.inside size (performAll calls)

def performAll : List Call → Reader Unit
  | [] => return ()
  | call :: calls => do
    call.perform.attempt
    performAll calls

end

/-- Whether a call is a single read, and not one for each element of a list. -/
def isSingle : Call → Bool
  | .read (.list ..) => false
  | _ => true

theorem steady (call : Call) : call.perform.Steady := by
  cases call with
  | read step => exact step.steady.bind fun _ => .pure ()
  | split size calls => exact (Reader.Steady.inside size _).bind fun _ => .pure ()

theorem steady_all (calls : List Call) : (performAll calls).Steady := by
  induction calls with
  | nil => exact .pure ()
  | cons call calls ih =>
    apply call.steady.attempt.bind
    intro
    exact ih

theorem exists_performAll_eq (calls : List Call) (c : Cursor) :
    ∃ c', performAll calls c = .ok () c' := by
  induction calls generalizing c with
  | nil => exact ⟨c, rfl⟩
  | cons call calls ih => exact ih _

theorem eq_of_takes {α : Type} {reader : Reader α} {width : Nat} {value : Bytes → α}
    (h : reader.Takes width value) {c c' : Cursor} {failure : Failure}
    (hfails : (do let _ ← reader) c = .error failure c') : c' = c := by
  have hunit := h.map fun _ => ()
  rw [hunit c] at hfails
  -- it fails before it takes anything
  split at hfails <;> cases hfails
  rfl

theorem eq_of_perform_error {call : Call} (hsingle : call.isSingle = true) {c c' : Cursor}
    {failure : Failure} (h : call.perform c = .error failure c') : c' = c := by
  cases call with
  | read step =>
    cases step with
    | word w =>
      obtain ⟨_, _, htakes⟩ := w.exists_takes
      exact eq_of_takes htakes h
    | count width => exact eq_of_takes (.number width) h
    | bytes size => exact eq_of_takes (.take size) h
    | list width element => cases hsingle
  | split size calls =>
    -- what is asked of the inner reader cannot fail as a whole
    rcases Reader.bind_eq_error.1 h with hinside | ⟨_, _, _, hpure⟩
    · rw [Reader.inside_apply] at hinside
      split at hinside
      · cases hinside
        rfl
      · obtain ⟨inner, hinner⟩ := exists_performAll_eq calls
          { rest := c.rest.take size, events := c.events }
        rw [hinner] at hinside
        cases hinside
    · cases hpure

end Call

namespace Step

/-- If the counts fit, a sequence of steps is written, and read back by the same steps bit for bit,
with nothing taken of what stands behind it. On any input, and however often it fails, a reader has
read and left as many bytes as there are, and a single read that fails leaves it unchanged. -/
theorem readAll_agrees_with_writeAll {steps : List Step} {values : Values steps}
    (hfit : AllFit steps values) :
    (∃ bytes, writeAll steps values [] = .ok bytes ∧
      ∀ rest, ∃ c, readAll steps { rest := bytes ++ rest } = .ok values c ∧
        c.position = bytes.length ∧ c.rest = rest) ∧
    (∀ (data : Bytes) (calls : List Call),
      ((Call.performAll calls).after { rest := data }).position +
        ((Call.performAll calls).after { rest := data }).rest.length = data.length) ∧
    ∀ (call : Call) (c c' : Cursor) (failure : Failure), call.isSingle = true →
      call.perform c = .error failure c' → c' = c := by
  refine ⟨exists_writeAll_readAll hfit, ?_, ?_⟩
  · intro data calls
    have hsteady := Call.steady_all calls { rest := data }
    exact hsteady.trans (Nat.zero_add _)
  · intro call c c' failure hsingle hfails
    exact Call.eq_of_perform_error hsingle hfails

/-- A negative number, the bits of a NaN, some bytes, and a list of lists. -/
def mixedSteps : List Step :=
  [.word .i32, .word .f64, .bytes 2, .list 1 [.word .u8, .list 2 [.word .i8]]]

def mixedLists : List (Values [.word .u8, .list 2 [.word .i8]]) :=
  [((7 : UInt8), [((-1 : Int8), ()), ((5 : Int8), ())], ()), ((0 : UInt8), [], ())]

def mixedValues : Values mixedSteps :=
  ((-2 : Int32), (0x7ff8000000000001 : UInt64), ([0xca, 0xfe] : Bytes), mixedLists, ())

theorem readAll_agrees_with_writeAll_mixed :
    AllFit mixedSteps mixedValues ∧ ∃ bytes c,
      writeAll mixedSteps mixedValues [] = .ok bytes ∧ bytes.length = 23 ∧
      readAll mixedSteps { rest := bytes ++ [0xff, 0x00] } = .ok mixedValues c ∧
      c.position = 23 ∧ c.rest = [0xff, 0x00] := by
  have hlists : ∀ values ∈ mixedLists, AllFit [.word .u8, .list 2 [.word .i8]] values := by
    have hwords (words : List (Values [.word .i8])) : ∀ w ∈ words, AllFit [.word .i8] w :=
      fun _ _ => ⟨trivial, trivial⟩
    intro values hmem
    rcases List.mem_cons.1 hmem with hfirst | hmem
    · rw [hfirst]
      exact ⟨trivial, ⟨by decide, hwords _⟩, trivial⟩
    · rw [List.mem_singleton.1 hmem]
      exact ⟨trivial, ⟨by decide, hwords _⟩, trivial⟩
  have hfit : AllFit mixedSteps mixedValues :=
    ⟨trivial, trivial, rfl, ⟨by decide, hlists⟩, trivial⟩
  have hwrite : writeAll mixedSteps mixedValues [] = .ok [0xff, 0xff, 0xff, 0xfe,
      0x7f, 0xf8, 0, 0, 0, 0, 0, 1, 0xca, 0xfe, 2, 7, 0, 2, 0xff, 5, 0, 0, 0] := rfl
  obtain ⟨bytes, hbytes, hread⟩ := (readAll_agrees_with_writeAll hfit).1
  obtain ⟨c, hvalues, hposition, hrest⟩ := hread [0xff, 0x00]
  obtain rfl := Except.ok.inj (hwrite.symm.trans hbytes)
  exact ⟨hfit, _, c, hwrite, rfl, hvalues, hposition, hrest⟩

end Step

end ClassFormat
