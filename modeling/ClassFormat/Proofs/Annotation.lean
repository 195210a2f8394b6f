import ClassFormat.Attribute.TypeAnnotation
import ClassFormat.Proofs.Layout

namespace ClassFormat

namespace ElementValue

mutual

/-- A value and all values in it, each with the number of arrays and annotations around it, where
there are `depth` around the value itself. -/
def inside (depth : Nat) : ElementValue → List (Nat × ElementValue)
  | .const tag index => [(depth, .const tag index)]
  | .enum typeNameIndex constNameIndex => [(depth, .enum typeNameIndex constNameIndex)]
  | .classInfo index => [(depth, .classInfo index)]
  | .nested ⟨typeIndex, pairs⟩ =>
    (depth, .nested ⟨typeIndex, pairs⟩) :: insidePairs (depth + 1) pairs
  | .array values => (depth, .array values) :: insideValues (depth + 1) values

def insideValues (depth : Nat) : List ElementValue → List (Nat × ElementValue)
  | [] => []
  | value :: values => value.inside depth ++ insideValues depth values

def insidePairs (depth : Nat) : List ElementPair → List (Nat × ElementValue)
  | [] => []
  | ⟨_, value⟩ :: pairs => value.inside depth ++ insidePairs depth pairs

end

def HasKnownTag : ElementValue → Prop
  | .const tag _ => tag ∈ constTags
  | _ => True

instance : DecidablePred HasKnownTag
  | .const tag _ => inferInstanceAs (Decidable (tag ∈ constTags))
  | .enum .. | .classInfo _ | .nested _ | .array _ => isTrue trivial

def AllReadable (values : List (Nat × ElementValue)) : Prop :=
  ∀ value ∈ values, value.1 < maxNesting ∧ value.2.HasKnownTag

instance : DecidablePred AllReadable := fun values =>
  inferInstanceAs (Decidable (∀ value ∈ values, value.1 < maxNesting ∧ value.2.HasKnownTag))

theorem insideValues_eq (depth : Nat) (values : List ElementValue) :
    insideValues depth values = values.flatMap (·.inside depth) := by
  induction values with
  | nil => rfl
  | cons value values ih => rw [insideValues, ih, List.flatMap_cons]

theorem insidePairs_eq (depth : Nat) (pairs : List ElementPair) :
    insidePairs depth pairs = pairs.flatMap (·.value.inside depth) := by
  induction pairs with
  | nil => rfl
  | cons pair pairs ih => obtain ⟨_, value⟩ := pair; rw [insidePairs, ih, List.flatMap_cons]

theorem allReadable_flatMap {α : Type} {as : List α} {f : α → List (Nat × ElementValue)} :
    AllReadable (as.flatMap f) ↔ ∀ a ∈ as, AllReadable (f a) := by
  simp only [AllReadable, List.mem_flatMap]
  exact ⟨fun h a ha value hv => h value ⟨a, ha, hv⟩, fun h value ⟨a, ha, hv⟩ => h a ha value hv⟩

/-- What stands in front of a value inside it is the value itself. -/
theorem not_allReadable_of_le {depth : Nat} (h : maxNesting ≤ depth) (value : ElementValue) :
    ¬ AllReadable (value.inside depth) := by
  have hmem : (depth, value) ∈ value.inside depth := by
    cases value with
    | nested a => cases a; simp [inside]
    | _ => simp [inside]
  intro hall
  have := (hall _ hmem).1
  omega

def encodePair (pair : ElementPair) : Bytes := word16 pair.nameIndex ++ pair.value.encode

theorem encodeValues_eq (values : List ElementValue) :
    encodeValues values = values.flatMap encode := by
  induction values with
  | nil => rfl
  | cons value values ih => rw [encodeValues, ih, List.flatMap_cons]

theorem encodePairs_eq (pairs : List ElementPair) :
    encodePairs pairs = pairs.flatMap encodePair := by
  induction pairs with
  | nil => rfl
  | cons pair pairs ih =>
    obtain ⟨nameIndex, value⟩ := pair
    rw [encodePairs, ih, List.flatMap_cons, encodePair]

theorem checkValues_eq_ok {values : List ElementValue} :
    checkValues values = .ok () ↔ ∀ value ∈ values, value.check = .ok () := by
  induction values with
  | nil => simp [checkValues]
  | cons value values ih => rw [checkValues, check_then_eq_ok, ih, List.forall_mem_cons]

theorem checkPairs_eq_ok {pairs : List ElementPair} :
    checkPairs pairs = .ok () ↔ ∀ pair ∈ pairs, pair.value.check = .ok () := by
  induction pairs with
  | nil => simp [checkPairs]
  | cons pair pairs ih =>
    obtain ⟨nameIndex, value⟩ := pair
    rw [checkPairs, check_then_eq_ok, ih, List.forall_mem_cons]

mutual

theorem length_encode : (value : ElementValue) → value.encode.length = value.length
  | .const .. | .enum .. | .classInfo _ => by simp [encode, length]
  | .nested ⟨_, pairs⟩ => by
    simp only [encode, length, List.length_append, word8_eq, length_word16, length_bigEndian,
      length_encodePairs pairs, List.length_singleton]
  | .array values => by
    simp only [encode, length, List.length_append, word8_eq, length_bigEndian,
      length_encodeValues values, List.length_singleton]

theorem length_encodeValues : (values : List ElementValue) →
    (encodeValues values).length = lengthValues values
  | [] => rfl
  | value :: values => by
    rw [encodeValues, lengthValues, List.length_append, length_encode value,
      length_encodeValues values]

theorem length_encodePairs : (pairs : List ElementPair) →
    (encodePairs pairs).length = lengthPairs pairs
  | [] => rfl
  | ⟨nameIndex, value⟩ :: pairs => by
    rw [encodePairs, lengthPairs, List.length_append, List.length_append, length_word16,
      length_encode value, length_encodePairs pairs]

end

theorem readPair_exact {value : Reader ElementValue} {valid : ElementValue → Prop}
    (h : value.Exact (.of encode valid)) :
    Reader.Exact (do
        let nameIndex ← Reader.u16
        let value ← Reader.within (.readingElementValue nameIndex) value
        return (⟨nameIndex, value⟩ : ElementPair))
      (.of encodePair fun pair => valid pair.value) := by
  refine (Reader.Exact.u16.field (Q := fun _ => True) ElementPair.nameIndex fun nameIndex _ =>
    (h.within _).field ElementPair.value fun value _ => .done fun pair => ?_).congr
      fun bytes pair => ?_
  · cases pair
    simp
  · simp [encodePair]

theorem readAnnotationWith_exact {value : Reader ElementValue} {valid : ElementValue → Prop}
    (h : value.Exact (.of encode valid)) :
    Reader.Exact (readAnnotationWith value) (.of Annotation.encode fun a =>
      a.pairs.length < 256 ^ 2 ∧ ∀ pair ∈ a.pairs, valid pair.value) := by
  refine (Reader.Exact.u16.field (Q := fun _ => True) Annotation.typeIndex fun typeIndex _ =>
    ((readPair_exact h).list 2).field Annotation.pairs fun pairs _ => .done fun a => ?_).congr
      fun bytes a => ?_
  · cases a
    simp
  · simp [encodePairs_eq, Annotation.encode]

def body : ElementValue → Bytes
  | .const _ index | .classInfo index => word16 index
  | .enum typeNameIndex constNameIndex => word16 typeNameIndex ++ word16 constNameIndex
  | .nested a => a.encode
  | .array values => bigEndian 2 values.length ++ values.flatMap encode

theorem encode_eq (value : ElementValue) : value.encode = value.tag :: value.body := by
  cases value with
  | nested a => cases a; simp [encode, Annotation.encode, tag, body]
  | array values => simp [encode, encodeValues_eq, tag, body]
  | _ => simp [encode, tag, body]

/-- Values that are written and read back where `depth` arrays and annotations are around them. -/
def Fits (depth : Nat) (value : ElementValue) : Prop :=
  value.check = .ok () ∧ AllReadable (value.inside depth)

theorem fits_iff {depth : Nat} (h : depth < maxNesting) (value : ElementValue) :
    value.Fits depth ↔ match value with
      | .const tag _ => tag ∈ constTags
      | .enum .. | .classInfo _ => True
      | .nested a => a.pairs.length < 256 ^ 2 ∧ ∀ pair ∈ a.pairs, pair.value.Fits (depth + 1)
      | .array values => values.length < 256 ^ 2 ∧ ∀ value ∈ values, value.Fits (depth + 1) := by
  unfold Fits
  cases value with
  | nested a =>
    obtain ⟨typeIndex, pairs⟩ := a
    have hinside : AllReadable (inside depth (.nested ⟨typeIndex, pairs⟩)) ↔
        ∀ pair ∈ pairs, AllReadable (pair.value.inside (depth + 1)) := by
      rw [inside, insidePairs_eq, ← allReadable_flatMap]
      simp [AllReadable, h, HasKnownTag]
    rw [hinside, check, check_then_eq_ok, checkCount16_eq_ok, checkPairs_eq_ok]
    grind
  | array values =>
    have hinside : AllReadable (inside depth (.array values)) ↔
        ∀ value ∈ values, AllReadable (value.inside (depth + 1)) := by
      rw [inside, insideValues_eq, ← allReadable_flatMap]
      simp [AllReadable, h, HasKnownTag]
    rw [hinside, check, check_then_eq_ok, checkCount16_eq_ok, checkValues_eq_ok]
    grind
  | _ => simp [check, inside, AllReadable, h, HasKnownTag]

/-- With room for `levels` more levels, the values are read that stay below the limit from where
they stand. -/
theorem readWithin_exact {depth levels : Nat} (h : depth + levels = maxNesting) :
    (readWithin levels).Exact (.of encode (Fits depth)) := by
  induction levels generalizing depth with
  | zero =>
    refine (Reader.Exact.fail _).congr fun bytes value => ?_
    have hdeep : ¬ value.Fits depth := fun hfits => not_allReadable_of_le (by omega) value hfits.2
    simp [hdeep]
  | succ levels ih =>
    have hdepth : depth < maxNesting := by omega
    -- one level down, all values are one deeper
    have ih : (readWithin levels).Exact (.of encode (Fits (depth + 1))) := ih (by omega)
    refine .tagged (fun value => by simp [encode_eq]) fun tag => ?_
    have htags : enumTag ∉ constTags ∧ classTag ∉ constTags ∧ annotationTag ∉ constTags ∧
        arrayTag ∉ constTags := by decide
    have hdistinct : enumTag ≠ classTag ∧ enumTag ≠ annotationTag ∧ enumTag ≠ arrayTag ∧
        classTag ≠ annotationTag ∧ classTag ≠ arrayTag ∧ annotationTag ≠ arrayTag := by decide
    simp only [encode_eq, fits_iff hdepth, List.contains_iff_mem, List.cons.injEq]
    split
    · refine (Reader.Exact.u16.bind fun index => .pure (const tag index)).congr
        fun bytes value => ?_
      cases value <;> simp [ElementValue.tag, body, and_assoc] <;> grind
    split
    · refine (Reader.Exact.u16.bind fun typeName => Reader.Exact.u16.bind fun constName =>
        .pure (enum typeName constName)).congr fun bytes value => ?_
      cases value <;> simp [ElementValue.tag, body, and_assoc] <;> grind
    split
    · refine (Reader.Exact.u16.bind fun index => .pure (classInfo index)).congr
        fun bytes value => ?_
      cases value <;> simp [ElementValue.tag, body, and_assoc] <;> grind
    split
    · refine ((readAnnotationWith_exact ih).bind fun a => .pure (nested a)).congr
        fun bytes value => ?_
      cases value <;> simp [ElementValue.tag, body, and_assoc] <;> grind
    split
    · refine ((ih.list 2).bind fun values => .pure (array values)).congr
        fun bytes value => ?_
      cases value <;> simp [ElementValue.tag, body, and_assoc] <;> grind
    · refine (Reader.Exact.fail _).congr fun bytes value => ?_
      cases value <;> simp [ElementValue.tag, body, and_assoc] <;> grind

theorem lawful : layout.Lawful fun value => AllReadable (value.inside 0) where
  read := readWithin_exact (Nat.zero_add maxNesting)
  length := length_encode

end ElementValue

namespace Annotation

open ElementValue

/-- The values of an annotation with their depths; none is around the values of its own pairs. -/
def values (a : Annotation) : List (Nat × ElementValue) := insidePairs 0 a.pairs

theorem lawful : layout.Lawful fun a => AllReadable a.values where
  read := by
    refine (readAnnotationWith_exact (readWithin_exact (Nat.zero_add maxNesting))).congr
      fun bytes a => ?_
    simp only [Format.of_iff, layout, check, check_then_eq_ok, checkCount16_eq_ok, checkPairs_eq_ok,
      values, insidePairs_eq, allReadable_flatMap, Fits]
    grind
  length a := by
    simp only [layout, encode, length, List.length_append, length_word16, length_bigEndian,
      length_encodePairs]

end Annotation

theorem LocalVarTarget.lawful : layout.Lawful :=
  (Layout.Lawful.u16.both (Layout.Lawful.u16.both .u16)).row (fun _ => rfl) (fun _ => rfl)
    fun _ => rfl

theorem TypePathStep.lawful : layout.Lawful :=
  (Layout.Lawful.u8.both .u8).row (fun _ => rfl) (fun _ => rfl) fun _ => rfl

namespace TargetInfo

theorem table_lawful : table.Lawful := LocalVarTarget.lawful.table 2

theorem readKind_exact (kind : Kind) :
    (readKind kind).Exact (.of encode fun target =>
      target.kind = kind ∧ target.check = .ok ()) := by
  cases kind with
  | empty =>
    refine (Reader.Exact.pure _).congr fun bytes target => ?_
    cases target <;> simp [encode, TargetInfo.kind, check]
  | typeParameter | formalParameter =>
    exact Reader.Exact.u8.variant (by simp [encode, TargetInfo.kind, check])
      fun target h => by cases target <;> cases h.1; exact ⟨_, rfl⟩
  | supertype | throws | exceptionParameter | offset =>
    exact Reader.Exact.u16.variant (by simp [encode, TargetInfo.kind, check])
      fun target h => by cases target <;> cases h.1; exact ⟨_, rfl⟩
  | typeParameterBound =>
    exact Reader.Exact.u8.variant₂ Reader.Exact.u8 (by simp [encode, TargetInfo.kind, check])
      fun target h => by cases target <;> cases h.1; exact ⟨_, _, rfl⟩
  | typeArgument =>
    exact Reader.Exact.u16.variant₂ Reader.Exact.u8 (by simp [encode, TargetInfo.kind, check])
      fun target h => by cases target <;> cases h.1; exact ⟨_, _, rfl⟩
  | localVar =>
    exact table_lawful.read.variant (by simp [encode, TargetInfo.kind, check])
      fun target h => by cases target <;> cases h.1; exact ⟨_, rfl⟩

theorem read_exact (targetType : UInt8) :
    (read targetType).Exact (.of encode fun target =>
      Kind.ofTargetType? targetType = some target.kind ∧ target.check = .ok ()) := by
  unfold read
  cases h : Kind.ofTargetType? targetType with
  | none => exact (Reader.Exact.fail _).congr (by simp)
  | some kind => exact (readKind_exact kind).congr (by simp [eq_comm])

theorem length_encode (target : TargetInfo) : target.encode.length = target.length := by
  cases target <;> simp [encode, length, table_lawful.length]

end TargetInfo

namespace TypeAnnotation

open ElementValue

theorem path_lawful : path.Lawful := TypePathStep.lawful.table 1

theorem length_path (steps : List TypePathStep) : path.length steps = 1 + 2 * steps.length := by
  change 1 + Layout.total (fun _ => 2) steps = _
  rw [Layout.total_const, Nat.mul_comm]

/-- The target is described in the form that the target type selects. -/
def HasOwnTarget (a : TypeAnnotation) : Prop :=
  TargetInfo.Kind.ofTargetType? a.targetType = some a.targetInfo.kind

instance : DecidablePred HasOwnTarget := fun a =>
  inferInstanceAs (Decidable (TargetInfo.Kind.ofTargetType? a.targetType = some a.targetInfo.kind))

theorem lawful : layout.Lawful fun a => a.HasOwnTarget ∧ AllReadable a.body.values where
  read := by
    refine (Reader.Exact.u8.field (Q := fun _ => True) TypeAnnotation.targetType fun targetType _ =>
      (TargetInfo.read_exact targetType).field TypeAnnotation.targetInfo fun targetInfo _ =>
        path_lawful.read.field TypeAnnotation.targetPath fun targetPath _ =>
          Annotation.lawful.read.field TypeAnnotation.body fun body _ =>
            .done fun a => ?_).congr fun bytes a => ?_
    · cases a
      simp [and_assoc]
    · simp only [Format.of_iff, layout, Annotation.layout, check_then_eq_ok, HasOwnTarget,
        List.append_assoc, List.append_nil]
      grind
  length a := by
    have hbody : a.body.encode.length = a.body.length := Annotation.lawful.length a.body
    simp only [layout, List.length_append, word8_eq, List.length_singleton, hbody,
      TargetInfo.length_encode, path_lawful.length, length_path, Nat.add_assoc]

end TypeAnnotation

end ClassFormat
