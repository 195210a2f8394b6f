import ClassFormat.Instruction.Stream
import ClassFormat.Proofs.Layout

namespace ClassFormat.Instruction

/-- Operands of the shape that a layout asks for, narrow or after a `wide`. -/
def Shaped : Kind → (afterWide : Bool) → Operands → Prop
  | .noOperand, _, .none => True
  | .immediateByte, false, .immediateByte _ => True
  | .immediateByte, true, .immediateShort _ => True
  | .immediateShort, _, .immediateShort _ => True
  | .branch, _, .branch _ => True
  | .wideBranch, _, .wideBranch _ => True
  | .increment, false, .increment .. => True
  | .increment, true, .wideIncrement .. => True
  | .tableSwitch, _, .tableSwitch _ low high offsets =>
    ¬ high < low ∧ offsets.length = (high.toInt - low.toInt + 1).toNat
  | .lookupSwitch, _, .lookupSwitch _ pairs => pairs.length < 0x80000000
  | .invokeInterface, _, .invokeInterface .. => True
  | .invokeDynamic, _, .invokeDynamic _ => True
  | .multiNewArray, _, .multiNewArray .. => True
  | _, _, _ => False

def front : Operands → Bytes
  | .none | .tableSwitch .. | .lookupSwitch .. => []
  | .immediateByte value => word8 value
  | .immediateShort value => word16 value
  | .branch delta => word16 delta.toUInt16
  | .wideBranch delta => word32 delta.toUInt32
  | .increment index constant => word8 index ++ word8 constant.toUInt8
  | .wideIncrement index constant => word16 index ++ word16 constant.toUInt16
  | .invokeInterface index count => word16 index ++ word8 count
  | .invokeDynamic index => word16 index
  | .multiNewArray index dimensions => word16 index ++ word8 dimensions

/-- The number of reserved bytes, padding included. -/
def gap (offset : UInt32) : Operands → Nat
  | .tableSwitch .. | .lookupSwitch .. => (switchPadding offset).toNat
  | .invokeInterface .. => 1
  | .invokeDynamic _ => 2
  | _ => 0

/-- The padding is up to the next multiple of four, at the last offset too, where adding one to it
wraps around. -/
theorem toNat_switchPadding (offset : UInt32) :
    (switchPadding offset).toNat = (4 - (offset.toNat + 1) % 4) % 4 := by
  have hfour : UInt32.toNat 4 = 4 := rfl
  rw [switchPadding, UInt32.toNat_mod, UInt32.toNat_sub, UInt32.toNat_mod, UInt32.toNat_add, hfour,
    UInt32.toNat_one]
  omega

def back : Operands → Bytes
  | .tableSwitch default low high offsets =>
    word32 default.toUInt32 ++ word32 low.toUInt32 ++ word32 high.toUInt32 ++
      offsets.flatMap fun delta => word32 delta.toUInt32
  | .lookupSwitch default pairs =>
    word32 default.toUInt32 ++ bigEndian 4 pairs.length ++
      pairs.flatMap fun p => word32 p.1.toUInt32 ++ word32 p.2.toUInt32
  | _ => []

theorem encodeOperands_eq_ok {opcode : UInt8} {offset : UInt32} {afterWide : Bool} {kind : Kind}
    {operands : Operands} {bytes : Bytes} :
    encodeOperands opcode offset afterWide kind operands = .ok bytes ↔
      Shaped kind afterWide operands ∧
        bytes = front operands ++ List.replicate (gap offset operands) 0 ++ back operands := by
  have hzero : word16 0 = [0, 0] := rfl
  unfold encodeOperands
  split
  case h_9 default low high offsets =>
    by_cases hlow : high < low
    · simp [Shaped, hlow]
    · by_cases hcount : offsets.length = (high.toInt - low.toInt + 1).toNat
      · simp [Shaped, hlow, hcount, front, gap, back, padding, eq_comm]
      · simp [Shaped, hlow, hcount, Ne.symm hcount]
  case h_10 default pairs =>
    by_cases hcount : pairs.length < 0x80000000
    · simp [Shaped, hcount, front, gap, back, padding, eq_comm]
    · simp [Shaped, hcount]
  -- operands that have not the shape of the layout
  case h_14 =>
    unfold Shaped
    split <;> grind
  all_goals simp [Shaped, front, gap, back, hzero, eq_comm]

/-- The bytes of operands, with some for the reserved ones. -/
def Spelled (offset : UInt32) (bytes : Bytes) (operands : Operands) : Prop :=
  ∃ reserved, reserved.length = gap offset operands ∧
    bytes = front operands ++ reserved ++ back operands

/-- The layouts with padding or reserved bytes. -/
def Kind.hasGap : Kind → Bool
  | .tableSwitch | .lookupSwitch | .invokeInterface | .invokeDynamic => true
  | _ => false

theorem gap_eq_zero_of_shaped {kind : Kind} {afterWide : Bool} {operands : Operands}
    (hgap : kind.hasGap = false) (h : Shaped kind afterWide operands) (offset : UInt32) :
    gap offset operands = 0 ∧ back operands = [] := by
  unfold Shaped at h
  split at h <;> simp_all [Kind.hasGap, gap, back]

theorem plain_exact {reader : Reader Operands} {kind : Kind} {afterWide : Bool}
    (hgap : kind.hasGap = false) (offset : UInt32)
    (h : reader.Exact (.of front (Shaped kind afterWide))) :
    reader.Exact fun bytes operands =>
      Shaped kind afterWide operands ∧ Spelled offset bytes operands := by
  refine h.congr fun bytes operands => ?_
  constructor
  · intro ⟨hbytes, hshaped⟩
    obtain ⟨hzero, hback⟩ := gap_eq_zero_of_shaped hgap hshaped offset
    exact ⟨hshaped, [], by simp [hzero], by simp [hbytes, hback]⟩
  · intro ⟨hshaped, reserved, hlength, hbytes⟩
    obtain ⟨hzero, hback⟩ := gap_eq_zero_of_shaped hgap hshaped offset
    rw [hzero, List.length_eq_zero_iff] at hlength
    exact ⟨by simp [hbytes, hlength, hback], hshaped⟩

theorem tableSwitch_exact (offset : UInt32) (afterWide : Bool) :
    (readOperands offset afterWide .tableSwitch).Exact fun bytes operands =>
      Shaped .tableSwitch afterWide operands ∧ Spelled offset bytes operands := by
  refine ((Reader.Exact.take _).bind fun reserved => Reader.Exact.i32.bind fun default =>
    Reader.Exact.i32.bind fun low => Reader.Exact.i32.bind fun high => .ite (fun _ => .fail _)
      fun _ => (Reader.Exact.i32.times _).bind fun offsets => .pure _).congr
        fun bytes operands => ?_
  constructor
  · rintro ⟨_, reserved, ⟨rfl, hlength⟩, _, ⟨default, _, ⟨rfl, -⟩, _, ⟨low, _, ⟨rfl, -⟩, _,
      ⟨high, _, ⟨rfl, -⟩, _, hrest, rfl⟩, rfl⟩, rfl⟩, rfl⟩
    -- a table that ends before it starts is refused, and has no shape either
    by_cases hlow : high < low
    · rw [if_pos hlow] at hrest
      exact hrest.elim
    · rw [if_neg hlow] at hrest
      obtain ⟨offsets, _, ⟨hcount, rfl, -⟩, _, ⟨rfl, rfl⟩, rfl⟩ := hrest
      exact ⟨⟨hlow, hcount⟩, reserved, hlength, by simp [front, back]⟩
  · rintro ⟨hshaped, reserved, hlength, rfl⟩
    cases operands <;> try exact hshaped.elim
    rename_i default low high offsets
    obtain ⟨hlow, hcount⟩ := hshaped
    refine ⟨reserved, _, ⟨rfl, hlength⟩, _, ⟨default, _, ⟨rfl, trivial⟩, _,
      ⟨low, _, ⟨rfl, trivial⟩, _, ⟨high, _, ⟨rfl, trivial⟩,
      offsets.flatMap fun delta => word32 delta.toUInt32, ?_, rfl⟩, rfl⟩, rfl⟩,
      by simp [front, back]⟩
    rw [if_neg hlow]
    exact ⟨offsets, _, ⟨hcount, rfl, by simp⟩, [], ⟨rfl, rfl⟩, by simp⟩

theorem word32_count {count : Int32} (h : ¬ count < 0) :
    word32 count.toUInt32 = bigEndian 4 count.toInt.toNat := by
  have hle : 0 ≤ count := by simpa using h
  rw [word32, Int32.toNat_toUInt32_of_le hle, Int32.toNat_toInt]

theorem lookupSwitch_exact (offset : UInt32) (afterWide : Bool) :
    (readOperands offset afterWide .lookupSwitch).Exact fun bytes operands =>
      Shaped .lookupSwitch afterWide operands ∧ Spelled offset bytes operands := by
  have hpair : Reader.Exact (do return (← Reader.i32, ← Reader.i32))
      (.of fun p : Int32 × Int32 => word32 p.1.toUInt32 ++ word32 p.2.toUInt32) :=
    Reader.Exact.i32.variant₂ Reader.Exact.i32 (by simp) fun p _ => ⟨p.1, p.2, rfl⟩
  refine ((Reader.Exact.take _).bind fun reserved => Reader.Exact.i32.bind fun default =>
    Reader.Exact.i32.bind fun count => .ite (fun _ => .fail _)
      fun _ => (hpair.times _).bind fun offsets => .pure _).congr fun bytes operands => ?_
  constructor
  · rintro ⟨_, reserved, ⟨rfl, hlength⟩, _, ⟨default, _, ⟨rfl, -⟩, _, ⟨count, _, ⟨rfl, -⟩, _, hrest,
      rfl⟩, rfl⟩, rfl⟩
    by_cases hneg : count < 0
    · rw [if_pos hneg] at hrest
      exact hrest.elim
    · rw [if_neg hneg] at hrest
      obtain ⟨pairs, _, ⟨hcount, rfl, -⟩, _, ⟨rfl, rfl⟩, rfl⟩ := hrest
      have hlt : pairs.length < 0x80000000 := by
        have := count.toInt_lt
        omega
      exact ⟨hlt, reserved, hlength, by simp [front, back, word32_count hneg, hcount]⟩
  · rintro ⟨hshaped, reserved, hlength, rfl⟩
    cases operands <;> try exact hshaped.elim
    rename_i default pairs
    -- the number of pairs has to come back as the count that is read
    have hlt : pairs.length < 0x80000000 := hshaped
    have hint : (Int32.ofNat pairs.length).toInt = pairs.length := Int32.toInt_ofNat_of_lt hlt
    have hpos : ¬ Int32.ofNat pairs.length < 0 := by
      rw [Int32.lt_iff_toInt_lt, hint]
      simp
    refine ⟨reserved, _, ⟨rfl, hlength⟩, _, ⟨default, _, ⟨rfl, trivial⟩, _,
      ⟨Int32.ofNat pairs.length, _, ⟨rfl, trivial⟩, pairs.flatMap fun p => word32 p.1.toUInt32 ++
        word32 p.2.toUInt32, ?_, rfl⟩, rfl⟩, ?_⟩
    · rw [if_neg hpos, hint]
      exact ⟨pairs, _, ⟨rfl, rfl, by simp⟩, [], ⟨rfl, rfl⟩, by simp⟩
    · have hword : word32 (Int32.ofNat pairs.length).toUInt32 = bigEndian 4 pairs.length := by
        rw [word32_count hpos, hint, Int.toNat_natCast]
      simp only [front, back, hword, id, List.nil_append, List.append_assoc]

theorem exists_word16 {bytes : Bytes} (h : bytes.length = 2) : ∃ n, bytes = word16 n := by
  have hlt : ofBigEndian bytes < 2 ^ 16 := by
    have := ofBigEndian_lt bytes
    rw [h] at this
    exact this
  refine ⟨UInt16.ofNat (ofBigEndian bytes), ?_⟩
  rw [word16, UInt16.toNat_ofNat_of_lt' hlt, ← h, bigEndian_ofBigEndian]

theorem readOperands_exact (offset : UInt32) (afterWide : Bool) (kind : Kind) :
    (readOperands offset afterWide kind).Exact fun bytes operands =>
      Shaped kind afterWide operands ∧ Spelled offset bytes operands := by
  cases kind with
  | noOperand =>
    refine plain_exact rfl offset ((Reader.Exact.pure _).congr fun bytes operands => ?_)
    cases operands <;> simp [front, Shaped]
  | immediateByte =>
    cases afterWide with
    | false =>
      exact plain_exact rfl offset (Reader.Exact.u8.variant (fun a => ⟨rfl, Iff.rfl⟩)
        fun operands h => by cases operands <;> first | exact ⟨_, rfl⟩ | exact h.elim)
    | true =>
      exact plain_exact rfl offset (Reader.Exact.u16.variant (fun a => ⟨rfl, Iff.rfl⟩)
        fun operands h => by cases operands <;> first | exact ⟨_, rfl⟩ | exact h.elim)
  | immediateShort =>
    exact plain_exact rfl offset (Reader.Exact.u16.variant (fun a => ⟨rfl, Iff.rfl⟩)
      fun operands h => by cases operands <;> first | exact ⟨_, rfl⟩ | exact h.elim)
  | branch =>
    exact plain_exact rfl offset (Reader.Exact.i16.variant (fun a => ⟨rfl, Iff.rfl⟩)
      fun operands h => by cases operands <;> first | exact ⟨_, rfl⟩ | exact h.elim)
  | wideBranch =>
    exact plain_exact rfl offset (Reader.Exact.i32.variant (fun a => ⟨rfl, Iff.rfl⟩)
      fun operands h => by cases operands <;> first | exact ⟨_, rfl⟩ | exact h.elim)
  | increment =>
    cases afterWide with
    | false =>
      exact plain_exact rfl offset (Reader.Exact.u8.variant₂ Reader.Exact.i8
        (fun a b => ⟨rfl, by simp [Shaped]⟩)
        fun operands h => by cases operands <;> first | exact ⟨_, _, rfl⟩ | exact h.elim)
    | true =>
      exact plain_exact rfl offset (Reader.Exact.u16.variant₂ Reader.Exact.i16
        (fun a b => ⟨rfl, by simp [Shaped]⟩)
        fun operands h => by cases operands <;> first | exact ⟨_, _, rfl⟩ | exact h.elim)
  | multiNewArray =>
    exact plain_exact rfl offset (Reader.Exact.u16.variant₂ Reader.Exact.u8
      (fun a b => ⟨rfl, by simp [Shaped]⟩)
      fun operands h => by cases operands <;> first | exact ⟨_, _, rfl⟩ | exact h.elim)
  | tableSwitch => exact tableSwitch_exact offset afterWide
  | lookupSwitch => exact lookupSwitch_exact offset afterWide
  -- the reserved bytes of calls are read and dropped, so any of them spell the operands
  | invokeInterface =>
    refine (Reader.Exact.u16.bind fun index => Reader.Exact.u8.bind fun count =>
      Reader.Exact.u8.bind fun reserved => .pure _).congr fun bytes operands => ?_
    constructor
    · rintro ⟨index, _, ⟨rfl, -⟩, _, ⟨count, _, ⟨rfl, -⟩, _, ⟨reserved, _, ⟨rfl, -⟩, _, ⟨rfl, rfl⟩,
        rfl⟩, rfl⟩, rfl⟩
      exact ⟨trivial, [reserved], rfl, by simp [front, back]⟩
    · rintro ⟨hshaped, reserved, hlength, rfl⟩
      cases operands <;> try exact hshaped.elim
      obtain ⟨b, rfl⟩ := List.length_eq_one_iff.1 hlength
      exact ⟨_, _, ⟨rfl, trivial⟩, _, ⟨_, _, ⟨rfl, trivial⟩, _, ⟨b, _, ⟨rfl, trivial⟩, [],
        ⟨rfl, rfl⟩, rfl⟩, rfl⟩, by simp [front, back]⟩
  | invokeDynamic =>
    refine (Reader.Exact.u16.bind fun index => Reader.Exact.u16.bind fun reserved => .pure _).congr
      fun bytes operands => ?_
    constructor
    · rintro ⟨index, _, ⟨rfl, -⟩, _, ⟨reserved, _, ⟨rfl, -⟩, _, ⟨rfl, rfl⟩, rfl⟩, rfl⟩
      exact ⟨trivial, word16 reserved, by simp [gap], by simp [front, back]⟩
    · rintro ⟨hshaped, reserved, hlength, rfl⟩
      cases operands <;> try exact hshaped.elim
      obtain ⟨n, rfl⟩ := exists_word16 hlength
      exact ⟨_, _, ⟨rfl, trivial⟩, _, ⟨n, _, ⟨rfl, trivial⟩, [], ⟨rfl, rfl⟩, rfl⟩,
        by simp [front, back]⟩

end ClassFormat.Instruction
