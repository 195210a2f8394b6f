import ClassFormat.Proofs.Instruction.Operands

namespace ClassFormat.Instruction

/-- The opcode is known, and the operands have the shape that it asks for. -/
def Allowed (afterWide : Bool) (x : Instruction) : Prop :=
  ∃ kind, kindOf x.opcode = some kind ∧ Shaped kind afterWide x.operands

/-- The bytes of an instruction, with the given ones for those reserved. -/
def bytesWith (x : Instruction) (reserved : Bytes) : Bytes :=
  x.opcode :: (front x.operands ++ reserved ++ back x.operands)

theorem length_bytesWith (x : Instruction) (reserved : Bytes) :
    (x.bytesWith reserved).length =
      1 + (front x.operands).length + reserved.length + (back x.operands).length := by
  simp only [bytesWith, List.length_cons, List.length_append]
  omega

/-- What is read at an offset: the bytes of an allowed instruction, with any reserved ones. -/
def Decoded (offset : Nat) (afterWide : Bool) (bytes : Bytes) (x : Instruction) : Prop :=
  x.offset = UInt32.ofNat offset ∧ x.Allowed afterWide ∧
    ∃ reserved, reserved.length = gap x.offset x.operands ∧ bytes = x.bytesWith reserved

/-- What is written at an offset, with zeros for the reserved bytes. -/
def Encoded (offset : Nat) (afterWide : Bool) (bytes : Bytes) (x : Instruction) : Prop :=
  offset < 0x100000000 ∧ x.Allowed afterWide ∧
    bytes = x.bytesWith (List.replicate (gap (UInt32.ofNat offset) x.operands) 0)

theorem Decoded.length_pos {offset : Nat} {afterWide : Bool} {bytes : Bytes} {x : Instruction}
    (h : Decoded offset afterWide bytes x) : 0 < bytes.length := by
  obtain ⟨-, -, reserved, -, rfl⟩ := h
  rw [length_bytesWith]
  omega

theorem read_exact (offset : Nat) (afterWide : Bool) :
    (read (UInt32.ofNat offset) afterWide).Exact (Decoded offset afterWide) := by
  refine (Reader.Exact.u8.bind fun opcode => show Reader.Exact _ fun bytes x =>
    x.offset = UInt32.ofNat offset ∧ x.opcode = opcode ∧ x.Allowed afterWide ∧
      Spelled x.offset bytes x.operands from ?_).congr fun bytes x => ?_
  · cases hkind : kindOf opcode with
    | none =>
      refine (Reader.Exact.fail _).congr fun bytes x => ?_
      have hnot : x.opcode = opcode → ¬ x.Allowed afterWide := by
        rintro rfl ⟨kind, hsome, -⟩
        rw [hkind] at hsome
        cases hsome
      grind
    | some kind =>
      refine ((readOperands_exact (UInt32.ofNat offset) afterWide kind).bind fun operands =>
        .pure _).congr fun bytes x => ?_
      constructor
      · rintro ⟨operands, _, ⟨hshaped, hspelled⟩, _, ⟨rfl, rfl⟩, rfl⟩
        rw [List.append_nil]
        exact ⟨rfl, rfl, ⟨kind, hkind, hshaped⟩, hspelled⟩
      · rintro ⟨hoffset, rfl, ⟨kind', hkind', hshaped⟩, hspelled⟩
        rw [hkind] at hkind'
        cases hkind'
        rw [hoffset] at hspelled
        refine ⟨x.operands, bytes, ⟨hshaped, hspelled⟩, [], ⟨rfl, ?_⟩, by simp⟩
        rw [← hoffset]
  · constructor
    · rintro ⟨opcode, _, ⟨rfl, -⟩, _, ⟨hoffset, rfl, hallowed, reserved, hlength, rfl⟩, rfl⟩
      exact ⟨hoffset, hallowed, reserved, hlength, by simp [bytesWith]⟩
    · rintro ⟨hoffset, hallowed, reserved, hlength, rfl⟩
      exact ⟨x.opcode, _, ⟨rfl, trivial⟩, _, ⟨hoffset, rfl, hallowed, reserved, hlength, rfl⟩,
        by simp [bytesWith]⟩

theorem encodeAt_eq_ok {offset : UInt32} {afterWide : Bool} {x : Instruction} {bytes : Bytes} :
    x.encodeAt offset afterWide = .ok bytes ↔ x.Allowed afterWide ∧
      bytes = x.bytesWith (List.replicate (gap offset x.operands) 0) := by
  unfold encodeAt Allowed bytesWith
  cases kindOf x.opcode with
  | none => simp
  | some kind =>
    simp only [except_bind_eq_ok, encodeOperands_eq_ok]
    constructor
    · rintro ⟨operands, ⟨hshaped, rfl⟩, hbytes⟩
      cases hbytes
      exact ⟨⟨kind, rfl, hshaped⟩, by simp⟩
    · rintro ⟨⟨kind', hkind, hshaped⟩, rfl⟩
      cases hkind
      exact ⟨_, ⟨hshaped, rfl⟩, by simp [pure, Except.pure]⟩

theorem length_back_tableSwitch (default low high : Int32) (offsets : List Int32) :
    (back (.tableSwitch default low high offsets)).length = 12 + 4 * offsets.length := by
  have htable : (offsets.flatMap fun delta => word32 delta.toUInt32).length = offsets.length * 4 :=
    (Layout.length_flatMap (fun _ => length_word32 _) offsets).trans (Layout.total_const 4 offsets)
  simp only [back, List.length_append, length_word32, htable]
  omega

theorem length_back_lookupSwitch (default : Int32) (pairs : List (Int32 × Int32)) :
    (back (.lookupSwitch default pairs)).length = 8 + 8 * pairs.length := by
  have hpair (p : Int32 × Int32) :
      (word32 p.1.toUInt32 ++ word32 p.2.toUInt32).length = 8 := by simp
  have htable : (pairs.flatMap fun p => word32 p.1.toUInt32 ++ word32 p.2.toUInt32).length =
      pairs.length * 8 := (Layout.length_flatMap hpair pairs).trans (Layout.total_const 8 pairs)
  simp only [back, List.length_append, length_word32, length_bigEndian, htable]
  omega

/-- The size of an instruction is the number of its bytes. -/
theorem size_eq {x : Instruction} {reserved : Bytes}
    (h : reserved.length = gap x.offset x.operands) :
    x.size = UInt32.ofNat (x.bytesWith reserved).length := by
  rw [length_bytesWith, h]
  obtain ⟨offset, opcode, operands⟩ := x
  cases operands with
  | tableSwitch default low high offsets =>
    simp only [size, operandSize, front, gap, length_back_tableSwitch]
    simp
    grind
  | lookupSwitch default pairs =>
    simp only [size, operandSize, front, gap, length_back_lookupSwitch]
    simp
    grind
  | _ => simp [size, operandSize, front, gap, back]

/-- The places of the bytes that an instruction does not keep: the padding of a switch, the last
byte of an `invokeinterface` and the last two of an `invokedynamic`. -/
def reservedPlaces (x : Instruction) : List Nat :=
  match x.operands with
  | .tableSwitch .. | .lookupSwitch .. =>
    List.range' (x.offset.toNat + 1) (switchPadding x.offset).toNat
  | .invokeInterface .. => [x.offset.toNat + 4]
  | .invokeDynamic _ => [x.offset.toNat + 3, x.offset.toNat + 4]
  | _ => []

theorem mem_reservedPlaces {x : Instruction} {place : Nat} :
    place ∈ x.reservedPlaces ↔ x.offset.toNat + 1 + (front x.operands).length ≤ place ∧
      place < x.offset.toNat + 1 + (front x.operands).length + gap x.offset x.operands := by
  obtain ⟨offset, opcode, operands⟩ := x
  cases operands <;> simp [reservedPlaces, front, gap, List.mem_range'_1] <;> omega

/-- The bytes behind `offset` others, with zeros at the given places. -/
def cleared (places : List Nat) (offset : Nat) (bytes : Bytes) : Bytes :=
  bytes.mapIdx fun i b => if offset + i ∈ places then 0 else b

@[simp] theorem length_cleared (places : List Nat) (offset : Nat) (bytes : Bytes) :
    (cleared places offset bytes).length = bytes.length := List.length_mapIdx

theorem getElem?_cleared (places : List Nat) (offset : Nat) (bytes : Bytes) (i : Nat) :
    (cleared places offset bytes)[i]? =
      bytes[i]?.map fun b => if offset + i ∈ places then 0 else b := List.getElem?_mapIdx

theorem cleared_append (places : List Nat) (offset : Nat) (bytes more : Bytes) :
    cleared places offset (bytes ++ more) =
      cleared places offset bytes ++ cleared places (offset + bytes.length) more := by
  simp only [cleared, List.mapIdx_append]
  congr 2
  funext i b
  rw [Nat.add_assoc, Nat.add_comm bytes.length]

theorem cleared_congr {places others : List Nat} {offset : Nat} {bytes : Bytes}
    (h : ∀ i < bytes.length, offset + i ∈ places ↔ offset + i ∈ others) :
    cleared places offset bytes = cleared others offset bytes := by
  apply List.ext_getElem?
  intro i
  rw [getElem?_cleared, getElem?_cleared]
  by_cases hi : i < bytes.length
  · simp only [h i hi]
  · rw [List.getElem?_eq_none (Nat.le_of_not_lt hi), Option.map_none, Option.map_none]

theorem cleared_eq_self {places : List Nat} {offset : Nat} {bytes : Bytes}
    (h : ∀ i < bytes.length, offset + i ∉ places) : cleared places offset bytes = bytes := by
  apply List.ext_getElem?
  intro i
  rw [getElem?_cleared]
  by_cases hi : i < bytes.length
  · simp only [h i hi, if_false, Option.map_id']
  · rw [List.getElem?_eq_none (Nat.le_of_not_lt hi), Option.map_none]

theorem cleared_eq_replicate {places : List Nat} {offset : Nat} {bytes : Bytes}
    (h : ∀ i < bytes.length, offset + i ∈ places) :
    cleared places offset bytes = List.replicate bytes.length 0 := by
  apply List.ext_getElem?
  intro i
  rw [getElem?_cleared, List.getElem?_replicate]
  by_cases hi : i < bytes.length
  · rw [List.getElem?_eq_getElem hi, if_pos hi, Option.map_some, if_pos (h i hi)]
  · rw [List.getElem?_eq_none (Nat.le_of_not_lt hi), if_neg hi, Option.map_none]

/-- Clearing the places of an instruction gives the bytes it is written as. -/
theorem cleared_bytesWith {x : Instruction} {reserved : Bytes}
    (h : reserved.length = gap x.offset x.operands) :
    cleared x.reservedPlaces x.offset.toNat (x.bytesWith reserved) =
      x.bytesWith (List.replicate (gap x.offset x.operands) 0) := by
  have hparts (middle : Bytes) :
      x.bytesWith middle = (x.opcode :: front x.operands) ++ middle ++ back x.operands := by
    simp [bytesWith]
  rw [hparts, hparts, cleared_append, cleared_append, cleared_eq_self, cleared_eq_replicate,
    cleared_eq_self, h]
  · intro i hi
    rw [mem_reservedPlaces, List.length_append, List.length_cons]
    omega
  · intro i hi
    rw [mem_reservedPlaces, List.length_cons]
    omega
  · intro i hi
    rw [List.length_cons] at hi
    rw [mem_reservedPlaces]
    omega

/-- Instructions one behind the other from `offset` on, each with the bytes that `piece` says. -/
def Stream (piece : Nat → Bool → Bytes → Instruction → Prop) :
    (offset : Nat) → (afterWide : Bool) → Bytes → List Instruction → Prop
  | _, _, bytes, [] => bytes = []
  | offset, afterWide, bytes, x :: xs => ∃ first rest, bytes = first ++ rest ∧
    piece offset afterWide first x ∧
    Stream piece (offset + first.length) (x.opcode == wide) rest xs

theorem stream_decoded_nil {offset : Nat} {afterWide : Bool} {xs : List Instruction} :
    Stream Decoded offset afterWide [] xs ↔ xs = [] := by
  cases xs with
  | nil => simp [Stream]
  | cons x xs =>
    simp only [Stream, reduceCtorEq, iff_false]
    -- no instruction is without a byte
    intro ⟨first, rest, hnil, hpiece, _⟩
    have hpos := hpiece.length_pos
    have hfirst : first = [] := (List.append_eq_nil_iff.1 hnil.symm).1
    rw [hfirst] at hpos
    exact Nat.lt_irrefl 0 hpos

theorem readAll_at_end {afterWide : Bool} {before : List Instruction} {c : Cursor}
    (h : c.rest = []) (count : Nat) : readAll count afterWide before c = .ok before.reverse c := by
  cases count with
  | zero => rfl
  | succ count =>
    change (if c.rest.isEmpty then (pure before.reverse : Reader (List Instruction)) else _) c = _
    rw [h]
    rfl

/-- One step of decoding: an instruction, then the others behind it. -/
theorem readAll_succ {afterWide : Bool} {before : List Instruction} {c : Cursor} (h : c.rest ≠ [])
    (count : Nat) : readAll (count + 1) afterWide before c =
      (Reader.within (.bytecodeOffset (UInt32.ofNat c.position))
        (read (UInt32.ofNat c.position) afterWide) >>= fun x =>
          readAll count (x.opcode == wide) (x :: before)) c := by
  have hne : c.rest.isEmpty = false := by simpa using h
  change (if c.rest.isEmpty then (pure before.reverse : Reader (List Instruction)) else _) c = _
  rw [hne]
  rfl

theorem readAll_step {count : Nat} {afterWide : Bool} {before xs : List Instruction}
    {c c'' : Cursor} (h : c.rest ≠ []) :
    readAll (count + 1) afterWide before c = .ok xs c'' ↔ ∃ x c',
      read (UInt32.ofNat c.position) afterWide c = .ok x c' ∧
        readAll count (x.opcode == wide) (x :: before) c' = .ok xs c'' := by
  rw [readAll_succ h, Reader.bind_eq_ok]
  simp only [Reader.within_eq_ok]

/-- Each step takes a byte or more, so that with as much `count` as there are bytes, decoding comes
to the end of them. -/
theorem readAll_eq_ok {count : Nat} {afterWide : Bool} {before xs : List Instruction} {c : Cursor}
    (h : c.rest.length ≤ count) :
    (∃ c', readAll count afterWide before c = .ok xs c') ↔
      ∃ new, xs = before.reverse ++ new ∧ Stream Decoded c.position afterWide c.rest new := by
  induction count generalizing afterWide before c with
  | zero =>
    have hnil : c.rest = [] := List.length_eq_zero_iff.1 (Nat.le_zero.1 h)
    simp only [hnil, stream_decoded_nil, readAll_at_end hnil]
    simp [eq_comm]
  | succ count ih =>
    by_cases hnil : c.rest = []
    · simp only [hnil, stream_decoded_nil, readAll_at_end hnil]
      simp [eq_comm]
    -- what a step leaves is shorter, so the induction hypothesis is for it
    have hshorter {first : Bytes} {x : Instruction} {c' : Cursor}
        (hpiece : Decoded c.position afterWide first x) (hmove : c.Moves first c') :
        c'.rest.length ≤ count := by
      have hpos := hpiece.length_pos
      have hlen := congrArg List.length hmove.rest
      rw [List.length_append] at hlen
      omega
    simp only [readAll_step hnil]
    constructor
    · rintro ⟨c'', x, c', hread, hrest⟩
      obtain ⟨first, hpiece, hmove⟩ := (read_exact c.position afterWide).sound hread
      obtain ⟨new, rfl, hstream⟩ := (ih (hshorter hpiece hmove)).1 ⟨c'', hrest⟩
      rw [hmove.position] at hstream
      exact ⟨x :: new, by simp, first, c'.rest, hmove.rest, hpiece, hstream⟩
    · rintro ⟨new, rfl, hstream⟩
      cases new with
      | nil => exact absurd hstream hnil
      | cons x new =>
        obtain ⟨first, rest, hc, hpiece, hstream⟩ := hstream
        obtain ⟨c', hread, hmove⟩ := (read_exact c.position afterWide).complete hpiece hc
        rw [← hmove.rest_eq hc, ← hmove.position] at hstream
        obtain ⟨c'', hrest⟩ : ∃ c'', readAll count (x.opcode == wide) (x :: before) c' =
            .ok (before.reverse ++ x :: new) c'' :=
          (ih (hshorter hpiece hmove)).2 ⟨new, by simp, hstream⟩
        exact ⟨c'', x, c', hread, hrest⟩

theorem decode_eq_ok {code : Bytes} {xs : List Instruction} :
    decode code = .ok xs ↔ code.length < 0x100000000 ∧ Stream Decoded 0 false code xs := by
  unfold decode
  by_cases hlen : code.length < 0x100000000
  · have hrun : (readAll code.length false []).run code = .ok xs ↔
        ∃ c', readAll code.length false [] { rest := code } = .ok xs c' := by
      unfold Reader.run
      cases readAll code.length false [] { rest := code } <;> simp
    have hall : (∃ c', readAll code.length false [] { rest := code } = .ok xs c') ↔
        ∃ new, xs = [] ++ new ∧ Stream Decoded 0 false code new :=
      readAll_eq_ok (Nat.le_refl _)
    rw [if_pos hlen, hrun, hall]
    simp [hlen]
  · simp [hlen]

theorem encodeFrom_eq_ok {offset : Nat} {afterWide : Bool} {before : List Bytes}
    {xs : List Instruction} {code : Bytes} :
    encodeFrom offset afterWide before xs = .ok code ↔
      ∃ rest, code = before.reverse.flatten ++ rest ∧ Stream Encoded offset afterWide rest xs := by
  induction xs generalizing offset afterWide before with
  | nil => simp [encodeFrom, Stream, eq_comm]
  | cons x xs ih =>
    rw [encodeFrom]
    by_cases hoffset : offset < 0x100000000
    · rw [if_pos hoffset]
      simp only [except_bind_eq_ok, inContext_eq_ok, encodeAt_eq_ok, ih, Stream, Encoded]
      constructor
      · rintro ⟨first, ⟨hallowed, hfirst⟩, rest, rfl, hstream⟩
        exact ⟨first ++ rest, by simp, first, rest, rfl, ⟨hoffset, hallowed, hfirst⟩, hstream⟩
      · rintro ⟨_, rfl, first, rest, rfl, ⟨-, hallowed, hfirst⟩, hstream⟩
        exact ⟨first, ⟨hallowed, hfirst⟩, rest, by simp, hstream⟩
    · simp [hoffset, Stream, Encoded]

theorem encode_eq_ok {xs : List Instruction} {code : Bytes} :
    encode xs = .ok code ↔ Stream Encoded 0 false code xs := by
  rw [encode, encodeFrom_eq_ok]
  simp

end ClassFormat.Instruction
