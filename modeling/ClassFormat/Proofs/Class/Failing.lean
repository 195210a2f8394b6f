import ClassFormat.Class.Layout
import ClassFormat.Proofs.Reader.Failing

namespace ClassFormat

open Layout

variable {slots room size : Nat}

theorem Entry.readBody_safe (kind : Kind) : (readBody kind).Safe slots room size := by
  cases kind with
  | utf8 => exact .bind (.number 2) fun length => .bind (.take length) fun _ => .pure _
  | integer => exact .bind .i32 fun _ => .pure _
  | float => exact .bind .u32 fun _ => .pure _
  | long => exact .bind .i64 fun _ => .pure _
  | double => exact .bind .u64 fun _ => .pure _
  | classRef | stringRef | methodType | moduleRef | packageRef => exact .bind .u16 fun _ => .pure _
  | memberRef | nameAndType | dynamic => exact .bind .u16 fun _ => .bind .u16 fun _ => .pure _
  | methodHandle => exact .bind .u8 fun _ => .bind .u16 fun _ => .pure _

theorem Entry.read_safe {index : UInt16} (hpos : 1 ≤ index.toNat) (hlt : index.toNat < slots) :
    (read index).Safe slots room size := by
  apply Reader.Safe.bind .u8
  intro tag
  cases Kind.ofTag? tag with
  | some kind => exact readBody_safe kind
  | none => exact Reader.Meets.fail fun _ _ => ⟨hpos, hlt⟩

namespace Pool

theorem readEntry_safe {filled : Array (Option Entry)} (hpos : 1 ≤ filled.size)
    (hfilled : filled.size < slots) (hslots : slots < 2 ^ 16) :
    (readSlots.readEntry filled).Safe slots room size := by
  -- the index of the next entry is the number of slots filled
  have hindex : (UInt16.ofNat filled.size).toNat = filled.size :=
    UInt16.toNat_ofNat_of_lt' (Nat.lt_trans hfilled hslots)
  exact (Entry.read_safe (by omega) (by omega)).within _

theorem readSlots_safe {unfilled : Nat} {filled : Array (Option Entry)} (hpos : 1 ≤ filled.size)
    (hall : filled.size + unfilled = slots) (hslots : slots < 2 ^ 16) :
    (readSlots unfilled filled).Safe slots room size := by
  induction unfilled, filled using readSlots.induct with
  | case1 filled => exact .pure _
  | case2 filled =>
    exact (readEntry_safe hpos (by omega) hslots).bind fun entry => .ite (.malformed _) (.pure _)
  | case3 filled unfilled ihWide ihNarrow =>
    -- a wide entry fills two slots, another one a single slot
    refine (readEntry_safe hpos (by omega) hslots).bind fun entry => .ite ?_ ?_
    · apply ihWide entry
      · simp
      · simp only [Array.size_push]
        omega
    · apply ihNarrow entry
      · simp
      · simp only [Array.size_push]
        omega

/-- The number of slots stands in front of them. -/
theorem read_meets (input : Bytes) :
    read.Meets (fun c => c.rest = input ∧ c.Within room size) (fun _ => Cursor.Within room size)
      (Cause.OfReading (ofBigEndian (input.take 2)) size) := by
  have hlt : ofBigEndian (input.take 2) < 2 ^ 16 := by
    have hbound := ofBigEndian_lt (input.take 2)
    have hlength : 256 ^ (input.take 2).length ≤ 256 ^ 2 :=
      Nat.pow_le_pow_right (by decide) (List.length_take_le 2 input)
    omega
  apply ((Reader.Takes.number 2).meets input).bind
  intro count
  apply Reader.Meets.given
  rintro rfl
  apply Reader.Meets.ite
  · intro hzero
    exact .fail fun _ _ => trivial
  · intro hpos
    have hnone : (#[none] : Array (Option Entry)).size = 1 := rfl
    have hslots : Reader.Safe (readSlots (ofBigEndian (input.take 2) - 1) #[none])
        (ofBigEndian (input.take 2)) room size := readSlots_safe (by omega) (by omega) hlt
    -- of the two bytes of the count nothing more is needed
    have hbehind := hslots.bind fun filled => (Reader.Safe.record
      (.pool (ofBigEndian (input.take 2)))).bind fun _ => .pure (⟨filled⟩ : Pool)
    exact hbehind.of_imp fun c hc => hc.2.mono (Nat.sub_le room 2)

end Pool

theorem indexList_safe : indexList.read.Safe slots room size := list_safe u16_safe 2

theorem InnerClass.layout_safe : InnerClass.layout.read.Safe slots room size :=
  withLength_safe (as_safe (pair_safe u16_safe
    (pair_safe u16_safe (pair_safe u16_safe u16_safe))) _ _) _

theorem LineNumber.layout_safe : LineNumber.layout.read.Safe slots room size :=
  withLength_safe (as_safe (pair_safe u16_safe u16_safe) _ _) _

theorem LocalVariable.layout_safe : LocalVariable.layout.read.Safe slots room size :=
  withLength_safe (as_safe (pair_safe u16_safe
    (pair_safe u16_safe (pair_safe u16_safe (pair_safe u16_safe u16_safe)))) _ _) _

theorem BootstrapMethod.layout_safe : BootstrapMethod.layout.read.Safe slots room size :=
  withLength_safe (as_safe (pair_safe u16_safe indexList_safe) _ _) _

theorem MethodParameter.layout_safe : MethodParameter.layout.read.Safe slots room size :=
  withLength_safe (as_safe (pair_safe u16_safe u16_safe) _ _) _

theorem ExceptionHandler.layout_safe : ExceptionHandler.layout.read.Safe slots room size :=
  withLength_safe (as_safe (pair_safe u16_safe
    (pair_safe u16_safe (pair_safe u16_safe u16_safe))) _ _) _

theorem ModuleInfo.layout_safe : ModuleInfo.layout.read.Safe slots room size := by
  have hrequirement : ModuleRequirement.layout.read.Safe slots room size :=
    withLength_safe (as_safe (pair_safe u16_safe (pair_safe u16_safe u16_safe)) _ _) _
  have hgrant : ModuleGrant.layout.read.Safe slots room size :=
    withLength_safe (as_safe (pair_safe u16_safe (pair_safe u16_safe indexList_safe)) _ _) _
  have hprovision : ModuleProvision.layout.read.Safe slots room size :=
    withLength_safe (as_safe (pair_safe u16_safe indexList_safe) _ _) _
  apply withLength_safe
  apply as_safe
  apply pair_safe u16_safe
  apply pair_safe u16_safe
  apply pair_safe u16_safe
  apply pair_safe (list_safe hrequirement 2)
  apply pair_safe (list_safe hgrant 2)
  apply pair_safe (list_safe hgrant 2)
  exact pair_safe indexList_safe (list_safe hprovision 2)

theorem VerificationType.read_safe : VerificationType.read.Safe slots room size := by
  apply Reader.Safe.bind .u8
  intro tag
  split
  case h_8 | h_9 => exact .bind .u16 fun _ => .pure _
  case h_10 => exact .malformed _
  all_goals exact .pure _

theorem StackMapFrame.read_safe : StackMapFrame.read.Safe slots room size := by
  -- the cases are those of the frame type, in the order of reading
  have htypes : types.read.Safe slots room size := list_safe VerificationType.read_safe 2
  refine .bind .u8 fun frameType => .ite (.pure _) <|
    .ite (.bind VerificationType.read_safe fun _ => .pure _) <| .ite (.malformed _) <|
    .ite (.bind .u16 fun _ => .bind VerificationType.read_safe fun _ => .pure _) <|
    .ite (.bind .u16 fun _ => .pure _) <| .ite (.bind .u16 fun _ => .pure _) <| .ite ?_ ?_
  · exact .bind .u16 fun _ => .bind (VerificationType.read_safe.times _) fun _ => .pure _
  · exact .bind .u16 fun _ => .bind htypes fun _ => .bind htypes fun _ => .pure _

theorem ElementValue.readAnnotationWith_safe {value : Reader ElementValue}
    (h : value.Safe slots room size) : Reader.Safe (readAnnotationWith value) slots room size := by
  refine .bind .u16 fun typeIndex => .bind (.list ?_ 2) fun _ => .pure _
  exact .bind .u16 fun nameIndex => (h.within _).bind fun _ => .pure _

theorem ElementValue.readWithin_safe (levels : Nat) :
    (readWithin levels).Safe slots room size := by
  induction levels with
  | zero => exact .malformed _
  | succ levels ih =>
    refine .bind .u8 fun tag => .ite (.bind .u16 fun _ => .pure _) <|
      .ite (.bind .u16 fun _ => .bind .u16 fun _ => .pure _) <|
      .ite (.bind .u16 fun _ => .pure _) <| .ite ?_ <| .ite ?_ (.malformed _)
    · exact (readAnnotationWith_safe ih).bind fun _ => .pure _
    · exact (ih.list 2).bind fun _ => .pure _

theorem Annotation.read_safe : Annotation.read.Safe slots room size :=
  ElementValue.readAnnotationWith_safe (ElementValue.readWithin_safe _)

theorem TargetInfo.read_safe (targetType : UInt8) :
    (TargetInfo.read targetType).Safe slots room size := by
  have htable : table.read.Safe slots room size :=
    list_safe (withLength_safe (as_safe (pair_safe u16_safe
      (pair_safe u16_safe u16_safe)) _ _) _) 2
  unfold TargetInfo.read
  cases Kind.ofTargetType? targetType with
  | none => exact .malformed _
  | some kind =>
    cases kind with
    | typeParameter | formalParameter => exact .bind .u8 fun _ => .pure _
    | supertype | throws | exceptionParameter | offset => exact .bind .u16 fun _ => .pure _
    | typeParameterBound => exact .bind .u8 fun _ => .bind .u8 fun _ => .pure _
    | typeArgument => exact .bind .u16 fun _ => .bind .u8 fun _ => .pure _
    | localVar => exact .bind htable fun _ => .pure _
    | empty => exact .pure _

theorem TypeAnnotation.layout_safe : TypeAnnotation.layout.read.Safe slots room size := by
  have hpath : path.read.Safe slots room size :=
    list_safe (withLength_safe (as_safe (pair_safe u8_safe u8_safe) _ _) _) 1
  exact .bind .u8 fun targetType => .bind (TargetInfo.read_safe targetType) fun _ =>
    .bind hpath fun _ => .bind Annotation.read_safe fun _ => .pure _

section Nested

variable {nested : Reader AttributeInfo} (h : nested.Safe slots room size)

include h

theorem Code.readWith_safe : (readWith nested).Safe slots room size := by
  refine .bind .u16 fun maxStack => .bind .u16 fun maxLocals => .bind (.number 4) fun count => ?_
  refine .bind ((Reader.Safe.take count).within _) fun code => ?_
  refine .bind ((list_safe ExceptionHandler.layout_safe 2).within _) fun handlers => ?_
  exact (h.list 2).bind fun attributes => .pure _

theorem RecordComponent.readWith_safe : (readWith nested).Safe slots room size :=
  .bind .u16 fun _ => .bind .u16 fun _ => (h.list 2).bind fun _ => .pure _

theorem Attribute.readKind_safe (kind : Kind) : (readKind nested kind).Safe slots room size := by
  have hannotations : annotationList.read.Safe slots room size := list_safe Annotation.read_safe 2
  cases kind with
  | marker which => exact .pure _
  | index role => exact .bind .u16 fun _ => .pure _
  | indices role => exact indexList_safe.bind fun _ => .pure _
  | enclosingMethod => exact .bind .u16 fun _ => .bind .u16 fun _ => .pure _
  | code => exact (Code.readWith_safe h).bind fun _ => .pure _
  | stackMapTable => exact (list_safe StackMapFrame.read_safe 2).bind fun _ => .pure _
  | innerClasses => exact (list_safe InnerClass.layout_safe 2).bind fun _ => .pure _
  | sourceDebugExtension => exact .bind .takeRest fun _ => .pure _
  | lineNumberTable => exact (list_safe LineNumber.layout_safe 2).bind fun _ => .pure _
  | localVariables types => exact (list_safe LocalVariable.layout_safe 2).bind fun _ => .pure _
  | annotations visibility => exact hannotations.bind fun _ => .pure _
  | parameterAnnotations visibility => exact (list_safe hannotations 1).bind fun _ => .pure _
  | typeAnnotations visibility =>
    exact (list_safe TypeAnnotation.layout_safe 2).bind fun _ => .pure _
  | annotationDefault => exact (ElementValue.readWithin_safe _).bind fun _ => .pure _
  | bootstrapMethods => exact (list_safe BootstrapMethod.layout_safe 2).bind fun _ => .pure _
  | methodParameters => exact (list_safe MethodParameter.layout_safe 1).bind fun _ => .pure _
  | moduleInfo => exact ModuleInfo.layout_safe.bind fun _ => .pure _
  | record => exact ((RecordComponent.readWith_safe h).list 2).bind fun _ => .pure _

/-- A name that does not resolve only makes the body one that is kept as it is. -/
theorem AttributeInfo.readBody_safe (length : UInt32) (name : Except Unresolved String) :
    (readBody nested length name).Safe slots room size := by
  have hunknown (event : Event) : Reader.Safe (do
      Reader.record event
      return Attribute.unknown (← Reader.takeRest)) slots room size :=
    .bind (.record event) fun _ => .bind .takeRest fun _ => .pure _
  cases name with
  | error unresolved => exact hunknown (.unusableName unresolved)
  | ok name =>
    refine .bind (.record _) fun _ => Reader.Safe.within ?_ _
    unfold Attribute.readNamed
    -- only a known name leads to a body that can fail
    cases Attribute.Kind.ofName? name with
    | some kind => exact Attribute.readKind_safe h kind
    | none => exact hunknown (.unknownAttribute name)

end Nested

namespace AttributeInfo

/-- Bytes that a body leaves are fewer than it was declared to have. -/
theorem checkUsedUp_meets {name : Except Unresolved String} {length : UInt32} {body : Cursor}
    {pre : Cursor → Prop} (h : body.Within room length.toNat) :
    (checkUsedUp name length body).Meets pre (fun _ => pre) (Cause.OfReading slots size) := by
  -- a body without a name is kept whole and never checked
  cases name with
  | error unresolved => exact .pure fun _ hpre => hpre
  | ok name =>
    apply Reader.Meets.ite
    · intro hend
      exact .pure fun _ hpre => hpre
    · intro hleft
      apply Reader.Meets.fail
      intro _ _
      have hpos : 0 < body.rest.length := List.length_pos_iff.2 (by simpa using hleft)
      have hends := h.ends
      have hlength := length.toNat_lt
      -- the part ends before 2 ^ 32, so its position is told without a wrap-around
      have hconsumed : (UInt32.ofNat body.position).toNat = body.position :=
        UInt32.toNat_ofNat_of_lt' (by change _ < 2 ^ 32; omega)
      change UInt32.ofNat body.position < length
      rw [UInt32.lt_iff_toNat_lt, hconsumed]
      omega

/-- Where no more bytes are left than there is budget, running out of it is running out of bytes. -/
theorem readWithin_safe (pool : Pool) {budget : Nat} (h : room ≤ budget) :
    (readWithin pool budget).Safe slots room size := by
  induction budget generalizing room size with
  | zero =>
    constructor
    · intro c info c' hpre hok
      cases hok
    · intro c failure c' hpre herror
      cases herror
      have hleft := hpre.left
      exact hpre.truncation (by omega)
  | succ budget ih =>
    -- the six bytes of the header are no longer left for the body
    have hroom : room - 2 - 4 ≤ budget := by omega
    refine Reader.Takes.u16.shrinks.bind fun nameIndex => ?_
    refine Reader.Takes.u32.shrinks.bind fun length => ?_
    apply (Reader.Safe.inside (readBody_safe (ih hroom) length (pool.utf8 nameIndex))).bind
    intro (data, body)
    apply Reader.Meets.given
    intro hbody
    refine (checkUsedUp_meets hbody).bind fun _ => .pure fun c hc => hc.mono ?_
    omega

end AttributeInfo

theorem Member.readWithin_safe (pool : Pool) {budget : Nat} (h : room ≤ budget) :
    (readWithin budget pool).Safe slots room size :=
  .bind .u16 fun _ => .bind .u16 fun _ => .bind .u16 fun _ =>
    ((AttributeInfo.readWithin_safe pool h).list 2).bind fun _ => .pure _

namespace ClassFile

/-- The number of slots that a class file declares for its pool, behind magic and version. -/
def declaredSlots (bytes : Bytes) : Nat := ofBigEndian ((bytes.drop 8).take 2)

theorem record_meets (event : Event) (input : Bytes) :
    (Reader.record event).Meets (fun c => c.rest = input ∧ c.Within room size)
      (fun _ c => c.rest = input ∧ c.Within room size) (Cause.OfReading slots size) where
  ok hpre hok := by
    cases hok
    exact ⟨hpre.1, hpre.2.left, hpre.2.ends⟩
  error _ herror := by cases herror

/-- Of what is left at the end, there is less than of the whole. -/
theorem atEnd_meets {c : ClassFile} (h : room ≤ size - 1) :
    Reader.Meets (do
        let cursor ← get
        if cursor.rest.isEmpty then return c
        else Reader.fail { cause := .trailingBytes cursor.rest.length })
      (Cursor.Within room size) (fun _ _ => True) (Cause.OfReading slots size) where
  ok _ _ := trivial
  error {c' failure _} hpre herror := by
    change (if c'.rest.isEmpty then (pure c : Reader ClassFile) else Reader.fail _) c' = _ at herror
    split at herror
    · cases herror
    · rename_i hleft
      cases herror
      have hpos : 0 < c'.rest.length := List.length_pos_iff.2 (by simpa using hleft)
      have hroom := hpre.left
      constructor
      · exact hpos
      · omega

theorem readWithin_meets {budget : Nat} {bytes : Bytes} (h : bytes.length ≤ budget) :
    (readWithin budget).Meets (fun c => c.rest = bytes ∧ c.Within bytes.length bytes.length)
      (fun _ _ => True) (Cause.OfReading (declaredSlots bytes) bytes.length) := by
  have hroom : bytes.length - 4 - 2 - 2 ≤ budget := by omega
  have hslots : declaredSlots bytes = ofBigEndian ((((bytes.drop 4).drop 2).drop 2).take 2) := by
    simp only [List.drop_drop, declaredSlots]
  rw [hslots]
  apply (Reader.Takes.u32.passes bytes).bind
  intro number
  refine .ite (fun _ => .fail fun _ _ => trivial) fun _ => ?_
  apply (Reader.Takes.u16.passes _).bind
  intro minorVersion
  apply (Reader.Takes.u16.passes _).bind
  intro majorVersion
  apply (record_meets _ _).bind
  intro _
  apply ((Pool.read_meets _).within _).bind
  intro pool
  -- behind the pool only what is left matters, no longer which bytes it is
  apply Reader.Meets.bind Reader.Safe.u16
  intro accessFlags
  apply Reader.Meets.bind Reader.Safe.u16
  intro thisClass
  apply Reader.Meets.bind Reader.Safe.u16
  intro superClass
  apply Reader.Meets.bind (indexList_safe.within _)
  intro interfaces
  apply Reader.Meets.bind (((Member.readWithin_safe pool hroom).list 2).within _)
  intro fields
  apply Reader.Meets.bind (((Member.readWithin_safe pool hroom).list 2).within _)
  intro methods
  apply Reader.Meets.bind (Reader.Safe.record _)
  intro _
  apply Reader.Meets.bind (((AttributeInfo.readWithin_safe pool hroom).list 2).within _)
  intro attributes
  exact atEnd_meets (by omega)

/-- Reading fails by what is wrong with the bytes alone, and where a failure tells numbers, they lie
in the input. -/
theorem cause_of_read_eq_error {bytes : Bytes} {failure : Failure}
    (h : read bytes = .error failure) :
    failure.cause.OfReading (declaredSlots bytes) bytes.length := by
  unfold read readLogged at h
  cases hread : readWithin bytes.length { rest := bytes } with
  | ok c c' =>
    rw [hread] at h
    cases h
  | error first c' =>
    rw [hread] at h
    cases h
    apply (readWithin_meets (Nat.le_refl bytes.length)).error _ hread
    exact ⟨rfl, Nat.le_refl _, by simp⟩

/-- A pool of four slots: behind a `long`, which fills two of them, stands a tag that no entry
has. -/
def untaggedBytes : Bytes :=
  [0xca, 0xfe, 0xba, 0xbe, 0, 0, 0, 52, 0, 4, 5, 0, 0, 0, 0, 0, 0, 0, 1, 99]

theorem cause_of_read_eq_error_untagged : ∃ failure, read untaggedBytes = .error failure ∧
    failure.cause = .unknownPoolTag 99 3 ∧ failure.cause.OfReading 4 20 := by
  have hcause : (match read untaggedBytes with
      | .ok _ => none
      | .error failure => some failure.cause) = some (.unknownPoolTag 99 3) := by decide +kernel
  cases h : read untaggedBytes with
  | ok c =>
    rw [h] at hcause
    cases hcause
  | error failure =>
    rw [h] at hcause
    exact ⟨failure, rfl, Option.some.inj hcause, cause_of_read_eq_error h⟩

end ClassFile

end ClassFormat
