import ClassFormat.Attribute.Basic
import ClassFormat.Proofs.Layout

namespace ClassFormat

open Layout

theorem indexList_lawful : indexList.Lawful := Lawful.u16.table 2

theorem InnerClass.lawful : layout.Lawful :=
  (Lawful.u16.both (Lawful.u16.both (Lawful.u16.both .u16))).row (fun _ => rfl) (fun _ => rfl)
    fun _ => rfl

theorem LineNumber.lawful : layout.Lawful :=
  (Lawful.u16.both .u16).row (fun _ => rfl) (fun _ => rfl) fun _ => rfl

theorem LocalVariable.lawful : layout.Lawful :=
  (Lawful.u16.both (Lawful.u16.both (Lawful.u16.both (Lawful.u16.both .u16)))).row (fun _ => rfl)
    (fun _ => rfl) fun _ => rfl

theorem BootstrapMethod.lawful : layout.Lawful :=
  (Lawful.u16.both indexList_lawful).row (fun _ => rfl) (fun _ => rfl) fun _ => rfl

theorem MethodParameter.lawful : layout.Lawful :=
  (Lawful.u16.both .u16).row (fun _ => rfl) (fun _ => rfl) fun _ => rfl

theorem ExceptionHandler.lawful : layout.Lawful :=
  (Lawful.u16.both (Lawful.u16.both (Lawful.u16.both .u16))).row (fun _ => rfl) (fun _ => rfl)
    fun _ => rfl

theorem ModuleRequirement.lawful : layout.Lawful :=
  (Lawful.u16.both (Lawful.u16.both .u16)).row (fun _ => rfl) (fun _ => rfl) fun _ => rfl

theorem ModuleGrant.lawful : layout.Lawful :=
  (Lawful.u16.both (Lawful.u16.both indexList_lawful)).row (fun _ => rfl) (fun _ => rfl)
    fun _ => (Nat.add_assoc 2 2 _).symm

theorem ModuleProvision.lawful : layout.Lawful :=
  (Lawful.u16.both indexList_lawful).row (fun _ => rfl) (fun _ => rfl) fun _ => rfl

namespace ModuleInfo

theorem requirementTable_lawful : requirementTable.Lawful := ModuleRequirement.lawful.table 2

theorem grantTable_lawful : grantTable.Lawful := ModuleGrant.lawful.table 2

theorem provisionTable_lawful : provisionTable.Lawful := ModuleProvision.lawful.table 2

theorem lawful : layout.Lawful := by
  have hlists := requirementTable_lawful.both (grantTable_lawful.both (grantTable_lawful.both
    (indexList_lawful.both provisionTable_lawful)))
  refine (Lawful.u16.both (Lawful.u16.both (Lawful.u16.both hlists))).row (fun _ => rfl)
    (fun _ => rfl) fun info => ?_
  simp only [Layout.pair, Layout.u16]
  omega

end ModuleInfo

namespace VerificationType

theorem read_exact : read.Exact (.of encode) := by
  refine .tagged (fun v => by cases v <;> simp [encode]) fun tag => ?_
  split
  case h_8 =>
    refine (Reader.Exact.u16.map object).congr fun bytes v => ?_
    cases v <;> simp [encode]
  case h_9 =>
    refine (Reader.Exact.u16.map uninitialized).congr fun bytes v => ?_
    cases v <;> simp [encode]
  case h_10 =>
    refine (Reader.Exact.fail _).congr fun bytes v => ?_
    cases v <;> simp_all [encode]
  all_goals
    refine (Reader.Exact.pure _).congr fun bytes v => ?_
    cases v <;> simp [encode]

theorem lawful : layout.Lawful where
  read := read_exact.congr (by simp [layout])
  length v := by cases v <;> simp [layout, encode, length]

end VerificationType

namespace StackMapFrame

theorem types_lawful : types.Lawful := VerificationType.lawful.table 2

theorem length_encode (frame : StackMapFrame) : frame.encode.length = frame.length := by
  have htype (v : VerificationType) : v.encode.length = v.length := VerificationType.lawful.length v
  cases frame with
  | append delta locals =>
    have htotal : (locals.flatMap (·.encode)).length = total VerificationType.length locals :=
      length_flatMap htype locals
    simp only [encode, encodeBody, length, List.length_append, word8_eq, length_word16, htotal,
      List.length_singleton]
  | _ =>
    simp only [encode, encodeBody, length, List.length_append, word8_eq, length_word16, htype,
      types_lawful.length, List.length_singleton, List.length_nil]

theorem append_frameType {tag : UInt8} {count : Nat} :
    (1 ≤ count ∧ count ≤ 3) ∧ 251 + UInt8.ofNat count = tag ↔
      251 < tag ∧ tag < 255 ∧ count = (tag - 251).toNat := by
  have htag := tag.toNat_lt
  have hlit : UInt8.toNat 251 = 251 := rfl
  have hlit' : UInt8.toNat 255 = 255 := rfl
  rw [UInt8.lt_iff_toNat_lt, UInt8.lt_iff_toNat_lt, UInt8.toNat_sub, ← UInt8.toNat_inj,
    UInt8.toNat_add, UInt8.toNat_ofNat', hlit, hlit']
  omega

/-- Each frame type belongs to one form of frames, and says the short contents of it. -/
theorem frameType?_eq_some {frame : StackMapFrame} {tag : UInt8} :
    frame.frameType? = some tag ↔ match frame with
      | .same delta => tag < 64 ∧ delta = tag
      | .sameLocals1StackItem delta _ => 64 ≤ tag ∧ tag < 128 ∧ delta = tag - 64
      | .sameLocals1StackItemExtended .. => tag = 247
      | .chop k _ => 247 < tag ∧ tag < 251 ∧ k = 251 - tag
      | .sameExtended _ => tag = 251
      | .append _ locals => 251 < tag ∧ tag < 255 ∧ locals.length = (tag - 251).toNat
      | .full .. => tag = 255 := by
  cases frame with
  | append delta locals => simp [frameType?, ← append_frameType]
  | _ => simp only [frameType?]; grind

def Fits : StackMapFrame → Prop
  | .full _ locals stack => types.check locals = .ok () ∧ types.check stack = .ok ()
  | _ => True

/-- A frame starts with its frame type, and without one it cannot be written. -/
theorem cons_eq_encode_iff {tag : UInt8} {bytes : Bytes} {frame : StackMapFrame} :
    tag :: bytes = frame.encode ∧ frame.check = .ok () ↔
      frame.frameType? = some tag ∧ bytes = frame.encodeBody ∧ frame.Fits := by
  cases h : frame.frameType? with
  | none => simp [check, h]
  | some frameType =>
    have hcheck : frame.check = .ok () ↔ frame.Fits := by
      unfold check
      rw [h]
      cases frame <;> simp [Fits, check_then_eq_ok]
    simp [encode, h, hcheck, eq_comm, and_assoc]

theorem read_exact : read.Exact (.of encode fun frame => frame.check = .ok ()) := by
  refine .tagged (fun frame => by simp [encode]) fun tag => ?_
  simp only [cons_eq_encode_iff, frameType?_eq_some]
  split
  · refine (Reader.Exact.pure _).congr fun bytes frame => ?_
    cases frame <;> simp [encodeBody, Fits] <;> grind
  split
  · refine (VerificationType.read_exact.bind fun stack => .pure _).congr fun bytes frame => ?_
    cases frame <;> simp [encodeBody, Fits, and_assoc] <;> grind
  split
  · refine (Reader.Exact.fail _).congr fun bytes frame => ?_
    cases frame <;> simp [encodeBody, Fits] <;> grind
  split
  · refine (Reader.Exact.u16.bind fun delta => VerificationType.read_exact.bind fun stack =>
      .pure _).congr fun bytes frame => ?_
    cases frame <;> simp [encodeBody, Fits, and_assoc] <;> grind
  split
  · refine (Reader.Exact.u16.bind fun delta => .pure _).congr fun bytes frame => ?_
    cases frame <;> simp [encodeBody, Fits, and_assoc] <;> grind
  split
  · refine (Reader.Exact.u16.bind fun delta => .pure _).congr fun bytes frame => ?_
    cases frame <;> simp [encodeBody, Fits, and_assoc] <;> grind
  split
  · refine (Reader.Exact.u16.bind fun delta => (VerificationType.read_exact.times _).bind
      fun locals => .pure _).congr fun bytes frame => ?_
    cases frame <;> simp [encodeBody, Fits, and_assoc] <;> grind
  · refine (Reader.Exact.u16.bind fun delta => types_lawful.read.bind fun locals =>
      types_lawful.read.bind fun stack => .pure _).congr fun bytes frame => ?_
    cases frame <;> simp [encodeBody, Fits, and_assoc] <;> grind

theorem lawful : layout.Lawful where
  read := read_exact.congr (by simp [layout])
  length := length_encode

end StackMapFrame

end ClassFormat
