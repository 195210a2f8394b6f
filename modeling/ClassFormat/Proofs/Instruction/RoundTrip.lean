import ClassFormat.Proofs.Instruction.Stream

namespace ClassFormat.Instruction

section Offsets

variable {offset : Nat} {afterWide : Bool} {code first : Bytes} {x : Instruction}
  {xs : List Instruction}

theorem Decoded.offset_toNat (h : Decoded offset afterWide first x) (hlt : offset < 2 ^ 32) :
    x.offset.toNat = offset := by
  rw [h.1]
  exact UInt32.toNat_ofNat_of_lt' hlt

theorem Decoded.size_toNat (h : Decoded offset afterWide first x) (hlt : first.length < 2 ^ 32) :
    x.size.toNat = first.length := by
  obtain ⟨-, -, reserved, hlength, rfl⟩ := h
  rw [size_eq hlength]
  exact UInt32.toNat_ofNat_of_lt' hlt

/-- In a code array the offsets count up from the first one by the sizes. -/
theorem Stream.offsets (h : Stream Decoded offset afterWide code xs)
    (hlt : offset + code.length < 2 ^ 32) :
    (∀ y : Instruction, xs[0]? = some y → y.offset.toNat = offset) ∧
    ∀ (i : Nat) (y z : Instruction), xs[i]? = some y → xs[i + 1]? = some z →
      z.offset.toNat = y.offset.toNat + y.size.toNat := by
  induction xs generalizing offset afterWide code with
  | nil => simp
  | cons x xs ih =>
    obtain ⟨first, rest, rfl, hpiece, hrest⟩ := h
    rw [List.length_append] at hlt
    have hx : x.offset.toNat = offset := hpiece.offset_toNat (by omega)
    have hsize : x.size.toNat = first.length := hpiece.size_toNat (by omega)
    obtain ⟨hhead, htail⟩ := ih hrest (by omega)
    refine ⟨fun y hy => ?_, fun i y z hy hz => ?_⟩
    · cases hy
      exact hx
    · cases i with
      | zero =>
        cases hy
        rw [hhead z hz, hx, hsize]
      | succ i => exact htail i y z hy hz

theorem Decoded.reservedPlaces_bound (h : Decoded offset afterWide first x)
    (hlt : offset < 2 ^ 32) {place : Nat} (hplace : place ∈ x.reservedPlaces) :
    offset ≤ place ∧ place < offset + first.length := by
  have hx : x.offset.toNat = offset := h.offset_toNat hlt
  obtain ⟨-, -, reserved, hlength, rfl⟩ := h
  rw [mem_reservedPlaces] at hplace
  rw [length_bytesWith]
  omega

/-- The reserved places of instructions lie in their code array. -/
theorem Stream.reservedPlaces_bound (h : Stream Decoded offset afterWide code xs)
    (hlt : offset + code.length < 2 ^ 32) {place : Nat}
    (hplace : place ∈ xs.flatMap reservedPlaces) :
    offset ≤ place ∧ place < offset + code.length := by
  induction xs generalizing offset afterWide code with
  | nil => simp at hplace
  | cons x xs ih =>
    obtain ⟨first, rest, rfl, hpiece, hrest⟩ := h
    rw [List.length_append] at hlt ⊢
    rw [List.flatMap_cons, List.mem_append] at hplace
    rcases hplace with hplace | hplace
    · have := hpiece.reservedPlaces_bound (by omega) hplace
      omega
    · have := ih hrest (by omega) hplace
      omega

theorem Decoded.encoded (h : Decoded offset afterWide first x) (hlt : offset < 2 ^ 32) :
    Encoded offset afterWide (cleared x.reservedPlaces offset first) x := by
  have hx : x.offset.toNat = offset := h.offset_toNat hlt
  obtain ⟨hoffset, hallowed, reserved, hlength, rfl⟩ := h
  refine ⟨hlt, hallowed, ?_⟩
  rw [← hx, cleared_bytesWith hlength, hx, ← hoffset]

/-- A step of decoding and the step of encoding behind it take the same number of bytes, so that the
rest of the array stays in place. -/
theorem Stream.encoded (h : Stream Decoded offset afterWide code xs)
    (hlt : offset + code.length < 2 ^ 32) :
    Stream Encoded offset afterWide (cleared (xs.flatMap reservedPlaces) offset code) xs := by
  induction xs generalizing offset afterWide code with
  | nil =>
    rw [Stream] at h ⊢
    rw [h]
    rfl
  | cons x xs ih =>
    obtain ⟨first, rest, rfl, hpiece, hrest⟩ := h
    rw [List.length_append] at hlt
    -- the places of the others lie behind this instruction
    have hfirst : cleared ((x :: xs).flatMap reservedPlaces) offset first =
        cleared x.reservedPlaces offset first := by
      apply cleared_congr
      intro i hi
      rw [List.flatMap_cons, List.mem_append, or_iff_left]
      intro hplace
      have := hrest.reservedPlaces_bound (by omega) hplace
      omega
    -- and its own places in front of the others
    have hbehind : cleared ((x :: xs).flatMap reservedPlaces) (offset + first.length) rest =
        cleared (xs.flatMap reservedPlaces) (offset + first.length) rest := by
      apply cleared_congr
      intro i hi
      rw [List.flatMap_cons, List.mem_append, or_iff_right]
      intro hplace
      have := hpiece.reservedPlaces_bound (by omega) hplace
      omega
    rw [cleared_append, hfirst, hbehind]
    refine ⟨_, _, rfl, hpiece.encoded (by omega), ?_⟩
    rw [length_cleared]
    exact ih hrest (by omega)

theorem encode_decoded {code : Bytes} {xs : List Instruction} (h : decode code = .ok xs) :
    encode xs = .ok (cleared (xs.flatMap reservedPlaces) 0 code) := by
  obtain ⟨hlt, hstream⟩ := decode_eq_ok.1 h
  exact encode_eq_ok.2 (hstream.encoded (by omega))

theorem cleared_eq_self_iff {places : List Nat} {bytes : Bytes}
    (h : ∀ place ∈ places, place < bytes.length) :
    cleared places 0 bytes = bytes ↔ ∀ place ∈ places, bytes[place]? = some 0 := by
  constructor
  · intro heq place hplace
    have hget := getElem?_cleared places 0 bytes place
    rw [heq, List.getElem?_eq_getElem (h place hplace)] at hget
    rw [List.getElem?_eq_getElem (h place hplace)]
    simpa [hplace] using hget
  · intro hzero
    apply List.ext_getElem?
    intro i
    rw [getElem?_cleared, Nat.zero_add]
    by_cases hplace : i ∈ places
    · rw [hzero i hplace]
      simp
    · simp [hplace]

end Offsets

/-- Encoding what was decoded gives the code array again, except that all padding and reserved bytes
are zero, and so just the same one if they were. -/
theorem encode_of_decode {code : Bytes} {xs : List Instruction} (h : decode code = .ok xs) :
    (∃ code', encode xs = .ok code' ∧ code'.length = code.length ∧
      ∀ (i : Nat) (b : UInt8), code[i]? = some b →
        code'[i]? = some (if i ∈ xs.flatMap reservedPlaces then 0 else b)) ∧
    (encode xs = .ok code ↔ ∀ place ∈ xs.flatMap reservedPlaces, code[place]? = some 0) := by
  obtain ⟨hlt, hstream⟩ := decode_eq_ok.1 h
  have hencode := encode_decoded h
  constructor
  · refine ⟨_, hencode, length_cleared .., ?_⟩
    intro i b hb
    rw [getElem?_cleared, hb, Nat.zero_add, Option.map_some]
  · have hbound : ∀ place ∈ xs.flatMap reservedPlaces, place < code.length := by
      intro place hplace
      have := hstream.reservedPlaces_bound (by omega) hplace
      omega
    rw [hencode, ← cleared_eq_self_iff hbound]
    simp

/-- A switch with padding, both calls with reserved bytes and a `wide` increment; all that decoding
drops is `9`. -/
def paddedCode : Bytes :=
  [0x00, 0xaa, 9, 9, 0, 0, 0, 24, 0, 0, 0, 1, 0, 0, 0, 1, 0, 0, 0, 19, 0xb9, 0, 1, 2, 9,
    0xba, 0, 3, 9, 9, 0xc4, 0x84, 0, 1, 0xff, 0xfe]

def paddedInstructions : List Instruction :=
  [⟨0, 0x00, .none⟩, ⟨1, 0xaa, .tableSwitch 24 1 1 [19]⟩, ⟨20, 0xb9, .invokeInterface 1 2⟩,
    ⟨25, 0xba, .invokeDynamic 3⟩, ⟨30, 0xc4, .none⟩, ⟨31, 0x84, .wideIncrement 1 (-2)⟩]

theorem encode_of_decode_paddedCode : decode paddedCode = .ok paddedInstructions ∧
    (∃ code', encode paddedInstructions = .ok code' ∧ code'.length = paddedCode.length ∧
      ∀ (i : Nat) (b : UInt8), paddedCode[i]? = some b →
        code'[i]? = some (if i ∈ [2, 3, 24, 28, 29] then 0 else b)) ∧
    encode paddedInstructions ≠ .ok paddedCode := by
  have hdecode : decode paddedCode = .ok paddedInstructions :=
    eq_ok_of_toOption (by decide +kernel)
  have hplaces : paddedInstructions.flatMap reservedPlaces = [2, 3, 24, 28, 29] := by
    decide +kernel
  obtain ⟨hcleared, hsame⟩ := encode_of_decode hdecode
  rw [hplaces] at hcleared hsame
  refine ⟨hdecode, hcleared, ?_⟩
  rw [ne_eq, hsame]
  decide

/-- What an instruction says, wherever it stands. -/
def contents (x : Instruction) : UInt8 × Operands := (x.opcode, x.operands)

theorem Encoded.decoded {offset : Nat} {afterWide : Bool} {first : Bytes} {x : Instruction}
    (h : Encoded offset afterWide first x) :
    Decoded offset afterWide first { x with offset := UInt32.ofNat offset } := by
  obtain ⟨-, hallowed, rfl⟩ := h
  exact ⟨rfl, hallowed, _, List.length_replicate, rfl⟩

theorem Stream.decoded {offset : Nat} {afterWide : Bool} {code : Bytes} {xs : List Instruction}
    (h : Stream Encoded offset afterWide code xs) :
    ∃ ys, Stream Decoded offset afterWide code ys ∧ ys.map contents = xs.map contents := by
  induction xs generalizing offset afterWide code with
  | nil => exact ⟨[], h, rfl⟩
  | cons x xs ih =>
    obtain ⟨first, rest, rfl, hpiece, hrest⟩ := h
    obtain ⟨ys, hys, hcontents⟩ := ih hrest
    refine ⟨{ x with offset := UInt32.ofNat offset } :: ys,
      ⟨first, rest, rfl, hpiece.decoded, hys⟩, ?_⟩
    rw [List.map_cons, List.map_cons, hcontents]
    rfl

/-- Decoding what was encoded gives the instructions again, at offsets that start at zero and go up
by the sizes. -/
theorem decode_of_encode {xs : List Instruction} {code : Bytes} (h : encode xs = .ok code)
    (hlt : code.length ≤ 0xffffffff) :
    ∃ ys, decode code = .ok ys ∧ ys.length = xs.length ∧
      (∀ (i : Nat) (x y : Instruction), xs[i]? = some x → ys[i]? = some y →
        y.opcode = x.opcode ∧ y.operands = x.operands) ∧
      (∀ y : Instruction, ys[0]? = some y → y.offset = 0) ∧
      ∀ (i : Nat) (y z : Instruction), ys[i]? = some y → ys[i + 1]? = some z →
        z.offset.toNat = y.offset.toNat + y.size.toNat := by
  obtain ⟨ys, hstream, hcontents⟩ := (encode_eq_ok.1 h).decoded
  obtain ⟨hhead, hoffsets⟩ := hstream.offsets (by omega)
  have hlength : ys.length = xs.length := by simpa using congrArg List.length hcontents
  refine ⟨ys, decode_eq_ok.2 ⟨by omega, hstream⟩, hlength, ?_, ?_, hoffsets⟩
  · intro i x y hx hy
    have hi := congrArg (·[i]?) hcontents
    simp only [List.getElem?_map, hx, hy, Option.map_some, Option.some.injEq, contents,
      Prod.mk.injEq] at hi
    exact hi
  · intro y hy
    exact UInt32.toNat_inj.1 (hhead y hy)

/-- A switch and a `wide` load, which all hold the same offset. -/
def unplaced : List Instruction :=
  [⟨7, 0x00, .none⟩, ⟨7, 0xab, .lookupSwitch 3 [(5, -1)]⟩, ⟨7, 0xc4, .none⟩,
    ⟨7, 0x15, .immediateShort 300⟩]

def unplacedCode : Bytes :=
  [0x00, 0xab, 0, 0, 0, 0, 0, 3, 0, 0, 0, 1, 0, 0, 0, 5, 0xff, 0xff, 0xff, 0xff, 0xc4, 0x15, 1, 44]

theorem decode_of_encode_unplaced : encode unplaced = .ok unplacedCode ∧
    ∃ ys, decode unplacedCode = .ok ys ∧ ys.length = unplaced.length ∧
      (∀ (i : Nat) (x y : Instruction), unplaced[i]? = some x → ys[i]? = some y →
        y.opcode = x.opcode ∧ y.operands = x.operands) ∧
      (∀ y : Instruction, ys[0]? = some y → y.offset = 0) ∧
      ∀ (i : Nat) (y z : Instruction), ys[i]? = some y → ys[i + 1]? = some z →
        z.offset.toNat = y.offset.toNat + y.size.toNat := by
  have hencode : encode unplaced = .ok unplacedCode := eq_ok_of_toOption (by decide +kernel)
  exact ⟨hencode, decode_of_encode hencode (by decide)⟩

end ClassFormat.Instruction
