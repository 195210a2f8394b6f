import ClassFormat.Proofs.Instruction.RoundTrip

namespace ClassFormat.Instruction

/-- The sizes of instructions, added up without bound. -/
def totalSize (xs : List Instruction) : Nat := (xs.map fun x => x.size.toNat).sum

@[simp] theorem totalSize_nil : totalSize [] = 0 := rfl

@[simp] theorem totalSize_cons (x : Instruction) (xs : List Instruction) :
    totalSize (x :: xs) = x.size.toNat + totalSize xs := rfl

section Sums

variable {offset : Nat} {afterWide : Bool} {code : Bytes} {xs : List Instruction}

theorem Stream.length_eq_totalSize (h : Stream Decoded offset afterWide code xs)
    (hlt : offset + code.length < 2 ^ 32) : code.length = totalSize xs := by
  induction xs generalizing offset afterWide code with
  | nil =>
    rw [Stream] at h
    rw [h]
    rfl
  | cons x xs ih =>
    obtain ⟨first, rest, rfl, hpiece, hrest⟩ := h
    rw [List.length_append] at hlt ⊢
    have hsize : x.size.toNat = first.length := hpiece.size_toNat (by omega)
    have htotal : rest.length = totalSize xs := ih hrest (by omega)
    rw [totalSize_cons, hsize, htotal]

theorem Stream.offset_eq_totalSize (h : Stream Decoded offset afterWide code xs)
    (hlt : offset + code.length < 2 ^ 32) {i : Nat} {x : Instruction} (hx : xs[i]? = some x) :
    x.offset.toNat = offset + totalSize (xs.take i) := by
  induction xs generalizing offset afterWide code i with
  | nil => simp at hx
  | cons y xs ih =>
    obtain ⟨first, rest, rfl, hpiece, hrest⟩ := h
    rw [List.length_append] at hlt
    cases i with
    | zero =>
      cases hx
      exact hpiece.offset_toNat (by omega)
    | succ i =>
      have hsize : y.size.toNat = first.length := hpiece.size_toNat (by omega)
      have hoffset := ih hrest (by omega) hx
      rw [List.take_succ_cons, totalSize_cons, hsize, hoffset, Nat.add_assoc]

end Sums

/-- Each number on the way to the size of a switch is the one that natural numbers give. In front of
the table stand `fixed` bytes, and each of its entries has `width`. -/
structure SwitchExact (offset fixed width : UInt32) (entries : Nat) : Prop where
  next : (offset + 1).toNat = offset.toNat + 1
  padding : (switchPadding offset).toNat = (4 - (offset.toNat + 1) % 4) % 4
  count : (UInt32.ofNat entries).toNat = entries
  table : (width * UInt32.ofNat entries).toNat = width.toNat * entries
  front : (switchPadding offset + fixed).toNat = (switchPadding offset).toNat + fixed.toNat
  operands : (switchPadding offset + fixed + width * UInt32.ofNat entries).toNat =
    (switchPadding offset).toNat + fixed.toNat + width.toNat * entries

/-- The size of an instruction is computed without wrapping around. -/
def SizeExact (x : Instruction) : Prop :=
  x.size.toNat = 1 + (operandSize x.offset x.operands).toNat ∧
    match x.operands with
    | .tableSwitch _ _ _ offsets => SwitchExact x.offset 12 4 offsets.length
    | .lookupSwitch _ pairs => SwitchExact x.offset 8 8 pairs.length
    | _ => True

theorem SwitchExact.of_fits {offset fixed width : UInt32} {entries : Nat} (hwidth : 0 < width.toNat)
    (hnext : offset.toNat + 1 < 2 ^ 32)
    (hfits : (switchPadding offset).toNat + fixed.toNat + width.toNat * entries < 2 ^ 32) :
    SwitchExact offset fixed width entries := by
  -- every number on the way is at most the last one, which fits
  have hle : entries ≤ width.toNat * entries := Nat.le_mul_of_pos_left entries hwidth
  have hlt : entries < 2 ^ 32 := by omega
  have hsucc : (offset + 1).toNat = offset.toNat + 1 := by
    rw [UInt32.toNat_add, UInt32.toNat_one, Nat.mod_eq_of_lt hnext]
  have hcount : (UInt32.ofNat entries).toNat = entries := UInt32.toNat_ofNat_of_lt' hlt
  have htable : (width * UInt32.ofNat entries).toNat = width.toNat * entries := by
    rw [UInt32.toNat_mul, hcount, Nat.mod_eq_of_lt (by omega)]
  have hfront : (switchPadding offset + fixed).toNat =
      (switchPadding offset).toNat + fixed.toNat := by
    rw [UInt32.toNat_add, Nat.mod_eq_of_lt (by omega)]
  refine ⟨hsucc, toNat_switchPadding offset, hcount, htable, hfront, ?_⟩
  rw [UInt32.toNat_add, hfront, htable, Nat.mod_eq_of_lt hfits]

/-- The bytes of an instruction are there to be read, so that their number bounds all that is
computed for its size. -/
theorem Decoded.sizeExact {offset : Nat} {afterWide : Bool} {first : Bytes} {x : Instruction}
    (h : Decoded offset afterWide first x) (hlt : offset + first.length < 2 ^ 32) :
    x.SizeExact := by
  have hpos : 0 < first.length := h.length_pos
  have hx : x.offset.toNat = offset := h.offset_toNat (by omega)
  have hsize : x.size.toNat = first.length := h.size_toNat (by omega)
  obtain ⟨-, -, reserved, hlength, rfl⟩ := h
  constructor
  -- the sum could wrap around only to zero, but there is a byte
  · have hadd : x.size.toNat = (1 + (operandSize x.offset x.operands).toNat) % 2 ^ 32 :=
      UInt32.toNat_add 1 (operandSize x.offset x.operands)
    have := (operandSize x.offset x.operands).toNat_lt
    omega
  · rw [length_bytesWith, hlength] at hlt
    have hnext : x.offset.toNat + 1 < 2 ^ 32 := by omega
    obtain ⟨start, opcode, operands⟩ := x
    cases operands with
    | tableSwitch default low high offsets =>
      rw [length_back_tableSwitch] at hlt
      refine SwitchExact.of_fits (by decide) hnext ?_
      change (switchPadding start).toNat + 12 + 4 * offsets.length < 2 ^ 32
      simp only [gap] at hlt
      omega
    | lookupSwitch default pairs =>
      rw [length_back_lookupSwitch] at hlt
      refine SwitchExact.of_fits (by decide) hnext ?_
      change (switchPadding start).toNat + 8 + 8 * pairs.length < 2 ^ 32
      simp only [gap] at hlt
      omega
    | _ => trivial

theorem Stream.sizeExact {offset : Nat} {afterWide : Bool} {code : Bytes} {xs : List Instruction}
    (h : Stream Decoded offset afterWide code xs) (hlt : offset + code.length < 2 ^ 32) :
    ∀ x ∈ xs, x.SizeExact := by
  induction xs generalizing offset afterWide code with
  | nil => simp
  | cons x xs ih =>
    obtain ⟨first, rest, rfl, hpiece, hrest⟩ := h
    rw [List.length_append] at hlt
    exact List.forall_mem_cons.2 ⟨hpiece.sizeExact (by omega), ih hrest (by omega)⟩

/-- A decoded instruction starts where the sizes of those before it add up to, the sizes of all add
up to the length of the code array, and none of them is computed with a wrap-around. -/
theorem sizes_of_decode {code : Bytes} {xs : List Instruction} (h : decode code = .ok xs) :
    (∀ (i : Nat) (x : Instruction), xs[i]? = some x →
      x.offset.toNat = totalSize (xs.take i)) ∧
    totalSize xs = code.length ∧
    ∀ x ∈ xs, x.SizeExact := by
  obtain ⟨hlt, hstream⟩ := decode_eq_ok.1 h
  have hbound : 0 + code.length < 2 ^ 32 := by omega
  refine ⟨fun i x hx => ?_, (hstream.length_eq_totalSize hbound).symm, hstream.sizeExact hbound⟩
  rw [hstream.offset_eq_totalSize hbound hx, Nat.zero_add]

/-- A `wide` load and two switches, the first with one byte of padding and the second with three. -/
def switchCode : Bytes :=
  [0xc4, 0x15, 1, 44, 0x1a, 0x1a, 0xab, 9, 0, 0, 0, 52, 0, 0, 0, 1, 0, 0, 0, 7, 0, 0, 0, 20,
    0xaa, 9, 9, 9, 0, 0, 0, 20, 0xff, 0xff, 0xff, 0xff, 0, 0, 0, 0, 0, 0, 0, 16, 0, 0, 0, 20]

def switchInstructions : List Instruction :=
  [⟨0, 0xc4, .none⟩, ⟨1, 0x15, .immediateShort 300⟩, ⟨4, 0x1a, .none⟩, ⟨5, 0x1a, .none⟩,
    ⟨6, 0xab, .lookupSwitch 52 [(7, 20)]⟩, ⟨24, 0xaa, .tableSwitch 20 (-1) 0 [16, 20]⟩]

theorem sizes_of_decode_switchCode : decode switchCode = .ok switchInstructions ∧
    (∀ (i : Nat) (x : Instruction), switchInstructions[i]? = some x →
      x.offset.toNat = totalSize (switchInstructions.take i)) ∧
    totalSize switchInstructions = 48 ∧
    SwitchExact 6 8 8 1 ∧ SwitchExact 24 12 4 2 := by
  have hdecode : decode switchCode = .ok switchInstructions :=
    eq_ok_of_toOption (by decide +kernel)
  obtain ⟨hoffsets, htotal, hexact⟩ := sizes_of_decode hdecode
  have hlookup := (hexact ⟨6, 0xab, .lookupSwitch 52 [(7, 20)]⟩ (by decide)).2
  have htable := (hexact ⟨24, 0xaa, .tableSwitch 20 (-1) 0 [16, 20]⟩ (by decide)).2
  exact ⟨hdecode, hoffsets, htotal, hlookup, htable⟩

end ClassFormat.Instruction
