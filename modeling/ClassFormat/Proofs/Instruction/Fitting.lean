import ClassFormat.Proofs.Instruction.Stream

namespace ClassFormat.Instruction

/-- The number of bytes of operands at `offset`, without bound. -/
def operandLength (offset : Nat) : Operands → Nat
  | .none => 0
  | .immediateByte _ => 1
  | .immediateShort _ | .branch _ | .increment .. => 2
  | .multiNewArray .. => 3
  | .wideBranch _ | .wideIncrement .. | .invokeInterface .. | .invokeDynamic _ => 4
  | .tableSwitch _ _ _ offsets => (4 - (offset + 1) % 4) % 4 + 12 + 4 * offsets.length
  | .lookupSwitch _ pairs => (4 - (offset + 1) % 4) % 4 + 8 + 8 * pairs.length

def endAt (offset : Nat) (x : Instruction) : Nat := offset + 1 + operandLength offset x.operands

/-- Where the instruction at place `i` starts, if the first one starts at `offset`. -/
def startFrom (offset : Nat) (xs : List Instruction) (i : Nat) : Nat :=
  (xs.take i).foldl endAt offset

theorem startFrom_succ (offset : Nat) (x : Instruction) (xs : List Instruction) (i : Nat) :
    startFrom offset (x :: xs) (i + 1) = startFrom (endAt offset x) xs i := rfl

/-- Whether a `wide` stands right in front of place `i`. For the first place it is given. -/
def wideBefore (afterWide : Bool) (xs : List Instruction) : Nat → Bool
  | 0 => afterWide
  | i + 1 => xs[i]?.any (·.opcode == wide)

theorem wideBefore_succ (afterWide : Bool) (x : Instruction) (xs : List Instruction) (i : Nat) :
    wideBefore afterWide (x :: xs) (i + 1) = wideBefore (x.opcode == wide) xs i := by
  cases i <;> rfl

theorem length_bytesWith_zeros (offset : UInt32) (x : Instruction) :
    offset.toNat + (x.bytesWith (List.replicate (gap offset x.operands) 0)).length =
      endAt offset.toNat x := by
  rw [length_bytesWith, List.length_replicate, endAt]
  cases x.operands with
  | tableSwitch default low high offsets =>
    simp only [front, gap, operandLength, length_back_tableSwitch, toNat_switchPadding,
      List.length_nil]
    omega
  | lookupSwitch default pairs =>
    simp only [front, gap, operandLength, length_back_lookupSwitch, toNat_switchPadding,
      List.length_nil]
    omega
  | _ => simp [front, gap, back, operandLength]

/-- An instruction that can be encoded at `offset`. -/
structure Fits (offset : Nat) (afterWide : Bool) (x : Instruction) : Prop where
  offset_le : offset ≤ 0xffffffff
  allowed : x.Allowed afterWide

/-- What is said of an instruction that cannot be encoded at `offset`. -/
structure Refused (offset : Nat) (x : Instruction) (failure : Failure) : Prop where
  far : 0xffffffff < offset → ∃ flaw, failure = .ofFlaw flaw ∧ flaw.subject = "code"
  contexts : offset ≤ 0xffffffff → failure.contexts = [.bytecodeOffset (UInt32.ofNat offset)]
  unknown : offset ≤ 0xffffffff → kindOf x.opcode = none →
    failure.cause = .unrecognizedOpcode x.opcode (UInt32.ofNat offset)
  known : offset ≤ 0xffffffff → kindOf x.opcode ≠ none → ∃ flaw, failure.cause = .malformed flaw

theorem encodeOperands_error {opcode : UInt8} {offset : UInt32} {afterWide : Bool} {kind : Kind}
    {operands : Operands} {failure : Failure}
    (h : encodeOperands opcode offset afterWide kind operands = .error failure) :
    ∃ flaw, failure = .ofFlaw flaw := by
  unfold encodeOperands at h
  split at h
  case h_9 | h_10 =>
    split at h <;> cases h
    exact ⟨_, rfl⟩
  case h_14 =>
    cases h
    exact ⟨_, rfl⟩
  all_goals cases h

theorem Refused.of_encodeAt {offset : Nat} {afterWide : Bool} {x : Instruction} {failure : Failure}
    (hoffset : offset ≤ 0xffffffff)
    (h : x.encodeAt (UInt32.ofNat offset) afterWide = .error failure) :
    Refused offset x (failure.within (.bytecodeOffset (UInt32.ofNat offset))) := by
  unfold encodeAt at h
  cases hkind : kindOf x.opcode with
  | none =>
    rw [hkind] at h
    cases h
    exact ⟨fun hlt => absurd hoffset (by omega), fun _ => rfl, fun _ _ => rfl,
      fun _ hne => absurd hkind hne⟩
  | some kind =>
    rw [hkind] at h
    cases hoperands : encodeOperands x.opcode (UInt32.ofNat offset) afterWide kind x.operands with
    | ok bytes =>
      simp only [hoperands] at h
      cases h
    | error inner =>
      simp only [hoperands] at h
      cases h
      obtain ⟨flaw, rfl⟩ := encodeOperands_error hoperands
      refine ⟨fun hlt => absurd hoffset (by omega), fun _ => rfl, fun _ hnone => ?_,
        fun _ _ => ⟨flaw, rfl⟩⟩
      rw [hkind] at hnone
      cases hnone

section Steps

variable {offset : Nat} {afterWide : Bool} {x : Instruction}

theorem encodeFrom_cons (h : offset ≤ 0xffffffff) (before : List Bytes) (xs : List Instruction) :
    encodeFrom offset afterWide before (x :: xs) =
      inContext (.bytecodeOffset (UInt32.ofNat offset))
        (x.encodeAt (UInt32.ofNat offset) afterWide) >>= fun bytes =>
          encodeFrom (offset + bytes.length) (x.opcode == wide) (bytes :: before) xs := by
  rw [encodeFrom, if_pos (Nat.lt_succ_of_le h)]

theorem encodeFrom_of_fits (h : Fits offset afterWide x) (before : List Bytes)
    (xs : List Instruction) : ∃ bytes, encodeFrom offset afterWide before (x :: xs) =
      encodeFrom (endAt offset x) (x.opcode == wide) (bytes :: before) xs := by
  have hoffset : (UInt32.ofNat offset).toNat = offset :=
    UInt32.toNat_ofNat_of_lt' (Nat.lt_succ_of_le h.offset_le)
  have hlength := length_bytesWith_zeros (UInt32.ofNat offset) x
  have hencode : x.encodeAt (UInt32.ofNat offset) afterWide = .ok _ :=
    encodeAt_eq_ok.2 ⟨h.allowed, rfl⟩
  rw [hoffset] at hlength
  rw [encodeFrom_cons h.offset_le, hencode, ← hlength]
  exact ⟨_, rfl⟩

theorem encodeFrom_of_not_fits (h : ¬ Fits offset afterWide x) (before : List Bytes)
    (xs : List Instruction) : ∃ failure,
    encodeFrom offset afterWide before (x :: xs) = .error failure ∧ Refused offset x failure := by
  by_cases hoffset : offset ≤ 0xffffffff
  · rw [encodeFrom_cons hoffset]
    cases hencode : x.encodeAt (UInt32.ofNat offset) afterWide with
    | ok bytes => exact absurd ⟨hoffset, (encodeAt_eq_ok.1 hencode).1⟩ h
    | error failure => exact ⟨_, rfl, .of_encodeAt hoffset hencode⟩
  · rw [encodeFrom, if_neg (by omega)]
    exact ⟨_, rfl, fun _ => ⟨_, rfl, rfl⟩, fun hle => absurd hle hoffset,
      fun hle => absurd hle hoffset, fun hle => absurd hle hoffset⟩

end Steps

/-- The instruction at place `i` can be encoded there, if the first one starts at `offset`. -/
def FitsAt (offset : Nat) (afterWide : Bool) (xs : List Instruction) (i : Nat) : Prop :=
  ∀ x, xs[i]? = some x → Fits (startFrom offset xs i) (wideBefore afterWide xs i) x

theorem fitsAt_succ {offset : Nat} {afterWide : Bool} {x : Instruction} {xs : List Instruction}
    {i : Nat} : FitsAt offset afterWide (x :: xs) (i + 1) ↔
      FitsAt (endAt offset x) (x.opcode == wide) xs i := by
  unfold FitsAt
  rw [startFrom_succ, wideBefore_succ, List.getElem?_cons_succ]

theorem encodeFrom_cases (offset : Nat) (afterWide : Bool) (before : List Bytes)
    (xs : List Instruction) :
    (∃ code, encodeFrom offset afterWide before xs = .ok code) ∧
      (∀ i, FitsAt offset afterWide xs i) ∨
    ∃ failure i x, encodeFrom offset afterWide before xs = .error failure ∧
      xs[i]? = some x ∧ ¬ FitsAt offset afterWide xs i ∧
      (∀ j < i, FitsAt offset afterWide xs j) ∧
      Refused (startFrom offset xs i) x failure := by
  -- a step moves on the start and the `wide`, so the places of the others count from there
  induction xs generalizing offset afterWide before with
  | nil => exact .inl ⟨⟨_, rfl⟩, fun i x hx => by cases hx⟩
  | cons x xs ih =>
    have hzero : FitsAt offset afterWide (x :: xs) 0 ↔ Fits offset afterWide x :=
      ⟨fun h => h x rfl, fun h y hy => Option.some.inj hy ▸ h⟩
    by_cases hfits : Fits offset afterWide x
    · obtain ⟨bytes, hstep⟩ := encodeFrom_of_fits hfits before xs
      rw [hstep]
      rcases ih (endAt offset x) (x.opcode == wide) (bytes :: before) with
        ⟨hcode, hall⟩ | ⟨failure, i, y, herror, hy, hnot, hbefore, hrefused⟩
      · refine .inl ⟨hcode, fun i => ?_⟩
        cases i with
        | zero => exact hzero.2 hfits
        | succ i => exact fitsAt_succ.2 (hall i)
      · refine .inr ⟨failure, i + 1, y, herror, hy, fitsAt_succ.not.2 hnot, fun j hj => ?_,
          hrefused⟩
        cases j with
        | zero => exact hzero.2 hfits
        | succ j => exact fitsAt_succ.2 (hbefore j (Nat.lt_of_succ_lt_succ hj))
    · obtain ⟨failure, herror, hrefused⟩ := encodeFrom_of_not_fits hfits before xs
      exact .inr ⟨failure, 0, x, herror, rfl, hzero.not.2 hfits, fun j hj => absurd hj (by omega),
        hrefused⟩

/-- Instructions are encoded just if each of them fits where those before it end. If not, the
failure is about the first that does not. -/
theorem encode_ok_iff_fits (xs : List Instruction) :
    ((∃ code, encode xs = .ok code) ↔ ∀ i x, xs[i]? = some x →
      Fits (startFrom 0 xs i) (wideBefore false xs i) x) ∧
    ∀ failure, encode xs = .error failure → ∃ i x, xs[i]? = some x ∧
      ¬ Fits (startFrom 0 xs i) (wideBefore false xs i) x ∧
      (∀ j < i, ∀ y, xs[j]? = some y → Fits (startFrom 0 xs j) (wideBefore false xs j) y) ∧
      Refused (startFrom 0 xs i) x failure := by
  unfold encode
  rcases encodeFrom_cases 0 false [] xs with
    ⟨⟨code, hcode⟩, hall⟩ | ⟨failure, i, x, herror, hx, hnot, hbefore, hrefused⟩
  · refine ⟨⟨fun _ => hall, fun _ => ⟨code, hcode⟩⟩, fun failure herror => ?_⟩
    rw [hcode] at herror
    cases herror
  · refine ⟨⟨fun ⟨code, hcode⟩ => ?_, fun hall => absurd (hall i) hnot⟩, fun failure' herror' => ?_⟩
    · rw [herror] at hcode
      cases hcode
    · rw [herror] at herror'
      cases herror'
      exact ⟨i, x, hx, fun hfits => hnot fun y hy => Option.some.inj (hx.symm.trans hy) ▸ hfits,
        hbefore, hrefused⟩

/-- A load with a narrow operand after a `wide`. -/
def narrowLoad : List Instruction := [⟨0, 0xc4, .none⟩, ⟨0, 0x15, .immediateByte 1⟩]

/-- A switch with some pairs, and an instruction behind it. -/
def switchThenNop (pairs : List (Int32 × Int32)) : List Instruction :=
  [⟨0, 0xab, .lookupSwitch 0 pairs⟩, ⟨0, 0x00, .none⟩]

/-- The load is refused where it stands; behind 4 GiB the second instruction is, for its place. -/
theorem encode_ok_iff_fits_switchThenNop :
    (∃ failure flaw, encode narrowLoad = .error failure ∧
      failure.contexts = [.bytecodeOffset 1] ∧ failure.cause = .malformed flaw) ∧
    ∃ pairs failure flaw, pairs.length = 0x20000000 ∧
      encode (switchThenNop pairs) = .error failure ∧
      failure = .ofFlaw flaw ∧ flaw.subject = "code" := by
  constructor
  · obtain ⟨hall, hfirst⟩ := encode_ok_iff_fits narrowLoad
    have hkind : kindOf 0x15 = some .immediateByte := by decide
    have hwide : Fits 0 false ⟨0, 0xc4, .none⟩ := ⟨by decide, .noOperand, by decide, trivial⟩
    cases hencode : encode narrowLoad with
    | ok code =>
      obtain ⟨kind, hsome, hshaped⟩ := (hall.1 ⟨code, hencode⟩ 1 _ rfl).allowed
      rw [hkind] at hsome
      cases hsome
      exact hshaped.elim
    | error failure =>
      obtain ⟨i, x, hx, hnot, -, hrefused⟩ := hfirst failure hencode
      rcases i with _ | _ | i <;> cases hx
      · exact absurd hwide hnot
      · obtain ⟨flaw, hcause⟩ := hrefused.known (by decide) (by simp [hkind])
        exact ⟨failure, flaw, rfl, hrefused.contexts (by decide), hcause⟩
  · obtain ⟨pairs, hlength⟩ : ∃ pairs : List (Int32 × Int32), pairs.length = 0x20000000 :=
      ⟨List.replicate 0x20000000 (0, 0), List.length_replicate⟩
    obtain ⟨hall, hfirst⟩ := encode_ok_iff_fits (switchThenNop pairs)
    have hstart : startFrom 0 (switchThenNop pairs) 1 = 0x10000000c := by
      change 0 + 1 + (3 + 8 + 8 * pairs.length) = 0x10000000c
      rw [hlength]
    have hkind : kindOf 0xab = some .lookupSwitch := by decide
    have hswitch : Fits 0 false ⟨0, 0xab, .lookupSwitch 0 pairs⟩ := by
      refine ⟨by decide, .lookupSwitch, hkind, ?_⟩
      rw [Shaped, hlength]
      decide
    cases hencode : encode (switchThenNop pairs) with
    | ok code =>
      have hle := (hall.1 ⟨code, hencode⟩ 1 _ rfl).offset_le
      rw [hstart] at hle
      exact absurd hle (by decide)
    | error failure =>
      obtain ⟨i, x, hx, hnot, -, hrefused⟩ := hfirst failure hencode
      rcases i with _ | _ | i <;> cases hx
      · exact absurd hswitch hnot
      · obtain ⟨flaw, hflaw, hsubject⟩ := hrefused.far (by rw [hstart]; decide)
        exact ⟨pairs, failure, flaw, hlength, hencode, hflaw, hsubject⟩

end ClassFormat.Instruction
