import ClassFormat.Attribute.Write
import ClassFormat.Proofs.Annotation
import ClassFormat.Proofs.Table

namespace ClassFormat

namespace Attribute

def nested : Attribute → List AttributeInfo
  | .code body => body.attributes
  | .record components => components.flatMap (·.attributes)
  | _ => []

mutual

def inside : Attribute → List AttributeInfo
  | .code ⟨_, _, _, _, attributes⟩ => insideInfos attributes
  | .record components => insideComponents components
  | _ => []

def insideInfos : List AttributeInfo → List AttributeInfo
  | [] => []
  | ⟨nameIndex, declared, data⟩ :: infos =>
    ⟨nameIndex, declared, data⟩ :: (data.inside ++ insideInfos infos)

def insideComponents : List RecordComponent → List AttributeInfo
  | [] => []
  | ⟨_, _, attributes⟩ :: components => insideInfos attributes ++ insideComponents components

end

end Attribute

def AttributeInfo.all (info : AttributeInfo) : List AttributeInfo := info :: info.data.inside

namespace Attribute

theorem insideInfos_eq (infos : List AttributeInfo) :
    insideInfos infos = infos.flatMap (·.all) := by
  induction infos with
  | nil => rfl
  | cons info infos ih =>
    obtain ⟨nameIndex, declared, data⟩ := info
    rw [insideInfos, ih, List.flatMap_cons, AttributeInfo.all, List.cons_append]

theorem insideComponents_eq (components : List RecordComponent) :
    insideComponents components = (components.flatMap (·.attributes)).flatMap (·.all) := by
  induction components with
  | nil => rfl
  | cons component components ih =>
    obtain ⟨nameIndex, descriptorIndex, attributes⟩ := component
    rw [insideComponents, ih, insideInfos_eq, List.flatMap_cons, List.flatMap_append]

theorem inside_eq (data : Attribute) : data.inside = data.nested.flatMap (·.all) := by
  cases data with
  | code body => cases body; rw [inside, insideInfos_eq, nested]
  | record components => rw [inside, insideComponents_eq, nested]
  | _ => rfl

theorem checkLengths_eq_forM (infos : List AttributeInfo) :
    checkLengths infos = forM infos AttributeInfo.checkLength := by
  induction infos with
  | nil => rfl
  | cons info infos ih =>
    obtain ⟨nameIndex, declared, data⟩ := info
    rw [checkLengths, List.forM_cons, ih, AttributeInfo.checkLength]
    simp only [bind_assoc]

theorem checkLengths_eq_ok {infos : List AttributeInfo} :
    checkLengths infos = .ok () ↔ ∀ info ∈ infos, info.checkLength = .ok () := by
  rw [checkLengths_eq_forM, forM_eq_ok]

theorem checkComponentLengths_eq_forM (components : List RecordComponent) :
    checkComponentLengths components = forM components fun component =>
      checkLengths component.attributes := by
  induction components with
  | nil => rfl
  | cons component components ih =>
    obtain ⟨nameIndex, descriptorIndex, attributes⟩ := component
    rw [checkComponentLengths, List.forM_cons, ih]

theorem checkNested_eq_ok {data : Attribute} :
    data.checkNested = .ok () ↔ ∀ info ∈ data.nested, info.checkLength = .ok () := by
  cases data with
  | code body => cases body; rw [checkNested, checkLengths_eq_ok, nested]
  | record components =>
    rw [checkNested, checkComponentLengths_eq_forM, forM_eq_ok, nested, List.forall_mem_flatMap]
    simp only [checkLengths_eq_ok]
  | _ => simp [checkNested, nested]

theorem computedLength_eq_ok {data : Attribute} {declared : UInt32} :
    data.computedLength = .ok declared ↔ declared.toNat = data.length := by
  have hdeclared := declared.toNat_lt
  unfold computedLength
  by_cases hlt : data.length < 0x100000000
  · have hof : (UInt32.ofNat data.length).toNat = data.length := UInt32.toNat_ofNat_of_lt' hlt
    rw [if_pos hlt, Except.ok.injEq, ← UInt32.toNat_inj, hof, eq_comm]
  · -- no declared length is that large
    have hne : declared.toNat ≠ data.length := by omega
    simp [hlt, hne]

theorem checkDeclared_eq_ok {nameIndex : UInt16} {declared : UInt32} {data : Attribute} :
    checkDeclared nameIndex declared data = .ok () ↔ declared.toNat = data.length := by
  rw [checkDeclared, except_bind_eq_ok, ← computedLength_eq_ok]
  constructor
  · intro ⟨computed, hcomputed, hsame⟩
    by_cases heq : computed = declared
    · rwa [← heq]
    · simp [heq] at hsame
  · intro h
    exact ⟨declared, h, if_pos rfl⟩

theorem checkInfos_eq_forM (infos : List AttributeInfo) :
    checkInfos infos = forM infos AttributeInfo.check := by
  induction infos with
  | nil => rfl
  | cons info infos ih =>
    obtain ⟨nameIndex, declared, data⟩ := info
    rw [checkInfos, List.forM_cons, ih, AttributeInfo.check, AttributeInfo.checkLength]
    simp only [bind_assoc]

theorem checkInfos_eq_ok {infos : List AttributeInfo} :
    checkInfos infos = .ok () ↔ ∀ info ∈ infos, info.check = .ok () := by
  rw [checkInfos_eq_forM, forM_eq_ok]

theorem checkComponents_eq_forM (components : List RecordComponent) :
    checkComponents components = forM components fun component =>
      checkAttributes component.attributes := by
  induction components with
  | nil => rfl
  | cons component components ih =>
    obtain ⟨nameIndex, descriptorIndex, attributes⟩ := component
    rw [checkComponents, List.forM_cons, ih, checkAttributes]
    simp only [bind_assoc]

/-- What can be written of a body, the attributes in it apart. -/
def OwnFits : Attribute → Prop
  | .marker _ | .index .. | .enclosingMethod .. | .sourceDebugExtension _ | .unknown _ => True
  | .indices _ values => indexList.check values = .ok ()
  | .code body => body.code.length < 256 ^ 4 ∧ handlerTable.check body.handlers = .ok () ∧
    body.attributes.length < 256 ^ 2
  | .stackMapTable frames => frameTable.check frames = .ok ()
  | .innerClasses classes => innerClassTable.check classes = .ok ()
  | .lineNumberTable lines => lineTable.check lines = .ok ()
  | .localVariables _ table => variableTable.check table = .ok ()
  | .annotations _ values => annotationList.check values = .ok ()
  | .parameterAnnotations _ parameters => parameterList.check parameters = .ok ()
  | .typeAnnotations _ values => typeAnnotationList.check values = .ok ()
  | .annotationDefault value => value.check = .ok ()
  | .bootstrapMethods methods => bootstrapTable.check methods = .ok ()
  | .methodParameters parameters => parameterTable.check parameters = .ok ()
  | .moduleInfo info => ModuleInfo.layout.check info = .ok ()
  | .record components => components.length < 256 ^ 2 ∧
    ∀ component ∈ components, component.attributes.length < 256 ^ 2

theorem check_eq_ok {data : Attribute} :
    data.check = .ok () ↔ data.OwnFits ∧ ∀ info ∈ data.nested, info.check = .ok () := by
  cases data with
  | code body =>
    cases body
    rw [check, check_then_eq_ok, check_then_eq_ok, check_then_eq_ok, inContext_eq_ok,
      checkCount32_eq_ok, checkCount16_eq_ok, checkInfos_eq_ok, OwnFits, nested]
    simp only [and_assoc]
  | record components =>
    rw [check, check_then_eq_ok, checkCount16_eq_ok, checkComponents_eq_forM, forM_eq_ok, OwnFits,
      nested, List.forall_mem_flatMap]
    simp only [checkAttributes, check_then_eq_ok, checkCount16_eq_ok, checkInfos_eq_ok, and_assoc]
    grind
  | _ => simp [check, OwnFits, nested]

theorem encodeInfos_eq (infos : List AttributeInfo) :
    encodeInfos infos = infos.flatMap (·.encode) := by
  induction infos with
  | nil => rfl
  | cons info infos ih =>
    obtain ⟨nameIndex, declared, data⟩ := info
    rw [encodeInfos, ih, List.flatMap_cons, AttributeInfo.encode]

def encodeComponent (component : RecordComponent) : Bytes :=
  word16 component.nameIndex ++ word16 component.descriptorIndex ++
    encodeAttributes component.attributes

theorem encodeComponents_eq (components : List RecordComponent) :
    encodeComponents components = components.flatMap encodeComponent := by
  induction components with
  | nil => rfl
  | cons component components ih =>
    obtain ⟨nameIndex, descriptorIndex, attributes⟩ := component
    rw [encodeComponents, ih, List.flatMap_cons, encodeComponent, encodeAttributes]
    simp only [List.append_assoc]

open ElementValue

theorem handlerTable_lawful : handlerTable.Lawful := ExceptionHandler.lawful.table 2

theorem frameTable_lawful : frameTable.Lawful := StackMapFrame.lawful.table 2

theorem innerClassTable_lawful : innerClassTable.Lawful := InnerClass.lawful.table 2

theorem lineTable_lawful : lineTable.Lawful := LineNumber.lawful.table 2

theorem variableTable_lawful : variableTable.Lawful := LocalVariable.lawful.table 2

theorem bootstrapTable_lawful : bootstrapTable.Lawful := BootstrapMethod.lawful.table 2

theorem parameterTable_lawful : parameterTable.Lawful := MethodParameter.lawful.table 1

theorem annotationList_lawful : annotationList.Lawful fun annotations =>
    AllReadable (annotations.flatMap (·.values)) :=
  Annotation.lawful.list 2 |>.congr (by simp [allReadable_flatMap])

theorem parameterList_lawful : parameterList.Lawful fun parameters =>
    AllReadable (parameters.flatten.flatMap (·.values)) :=
  (annotationList_lawful.list 1).congr (by simp [allReadable_flatMap]; grind)

theorem typeAnnotationList_lawful : typeAnnotationList.Lawful fun annotations =>
    (∀ a ∈ annotations, a.HasOwnTarget) ∧ AllReadable (annotations.flatMap (·.body.values)) :=
  TypeAnnotation.lawful.list 2 |>.congr (by simp [allReadable_flatMap]; grind)

mutual

theorem length_encode : (data : Attribute) → data.encode.length = data.length
  | .marker _ | .index .. | .enclosingMethod .. | .sourceDebugExtension _ | .unknown _ => by
    simp [encode, length]
  | .indices _ values => indexList_lawful.length values
  | .code ⟨maxStack, maxLocals, bytes, handlers, attributes⟩ => by
    rw [encode, length]
    simp only [List.length_append, length_word16, length_bigEndian, handlerTable_lawful.length,
      length_encodeInfos attributes]
    omega
  | .stackMapTable frames => frameTable_lawful.length frames
  | .innerClasses classes => innerClassTable_lawful.length classes
  | .lineNumberTable lines => lineTable_lawful.length lines
  | .localVariables _ table => variableTable_lawful.length table
  | .annotations _ values => annotationList_lawful.length values
  | .parameterAnnotations _ parameters => parameterList_lawful.length parameters
  | .typeAnnotations _ values => typeAnnotationList_lawful.length values
  | .annotationDefault value => ElementValue.lawful.length value
  | .bootstrapMethods methods => bootstrapTable_lawful.length methods
  | .methodParameters parameters => parameterTable_lawful.length parameters
  | .moduleInfo info => ModuleInfo.lawful.length info
  | .record components => by
    rw [encode, length, List.length_append, length_bigEndian, length_encodeComponents components]

theorem length_encodeInfos : (infos : List AttributeInfo) →
    (encodeInfos infos).length = lengthInfos infos
  | [] => rfl
  | ⟨nameIndex, declared, data⟩ :: infos => by
    rw [encodeInfos, lengthInfos, List.length_append, List.length_append, List.length_append,
      length_word16, length_word32, length_encode data, length_encodeInfos infos]

theorem length_encodeComponents : (components : List RecordComponent) →
    (encodeComponents components).length = lengthComponents components
  | [] => rfl
  | ⟨nameIndex, descriptorIndex, attributes⟩ :: components => by
    rw [encodeComponents, lengthComponents]
    simp only [List.length_append, length_word16, length_bigEndian, length_encodeInfos attributes,
      length_encodeComponents components]
    omega

end

theorem le_lengthInfos {info : AttributeInfo} {infos : List AttributeInfo} (h : info ∈ infos) :
    info.length ≤ lengthInfos infos := by
  induction infos with
  | nil => simp at h
  | cons first infos ih =>
    obtain ⟨nameIndex, declared, data⟩ := first
    rw [lengthInfos]
    rcases List.mem_cons.1 h with rfl | hmem
    · simp only [AttributeInfo.length]
      omega
    · have := ih hmem
      omega

theorem le_lengthComponents {info : AttributeInfo} {components : List RecordComponent}
    (h : info ∈ components.flatMap (·.attributes)) : info.length ≤ lengthComponents components := by
  induction components with
  | nil => simp at h
  | cons component components ih =>
    obtain ⟨nameIndex, descriptorIndex, attributes⟩ := component
    rw [lengthComponents]
    rw [List.flatMap_cons, List.mem_append] at h
    rcases h with hmem | hmem
    · have : info.length ≤ lengthInfos attributes := le_lengthInfos hmem
      omega
    · have := ih hmem
      omega

end Attribute

namespace AttributeInfo

theorem length_encode (info : AttributeInfo) : info.encode.length = info.length := by
  rw [encode, List.length_append, List.length_append, length_word16, length_word32,
    Attribute.length_encode, length]

theorem check_eq_ok {info : AttributeInfo} :
    info.check = .ok () ↔ info.declaredLength.toNat = info.data.length ∧ info.data.OwnFits ∧
      ∀ inner ∈ info.data.nested, inner.check = .ok () := by
  have hlength (inner : AttributeInfo) (h : inner.check = .ok ()) : inner.checkLength = .ok () :=
    (check_then_eq_ok.1 h).1
  rw [check, checkLength, check_then_eq_ok, check_then_eq_ok, Attribute.checkNested_eq_ok,
    Attribute.checkDeclared_eq_ok, Attribute.check_eq_ok]
  grind

theorem forall_mem_all {info : AttributeInfo} {P : AttributeInfo → Prop} :
    (∀ i ∈ info.all, P i) ↔ P info ∧ ∀ inner ∈ info.data.nested, ∀ i ∈ inner.all, P i := by
  rw [all, List.forall_mem_cons, Attribute.inside_eq, List.forall_mem_flatMap]

theorem length_nested_lt {info inner : AttributeInfo} (h : inner ∈ info.data.nested) :
    inner.length < info.length := by
  obtain ⟨nameIndex, declared, data⟩ := info
  change inner.length < 6 + data.length
  cases data with
  | code body =>
    obtain ⟨maxStack, maxLocals, bytes, handlers, attributes⟩ := body
    have hle : inner.length ≤ Attribute.lengthInfos attributes := Attribute.le_lengthInfos h
    rw [Attribute.length]
    omega
  | record components =>
    have hle : inner.length ≤ Attribute.lengthComponents components :=
      Attribute.le_lengthComponents h
    rw [Attribute.length]
    omega
  | _ => simp [Attribute.nested] at h

/-- What holds of an attribute whenever it holds of those it holds directly, holds of all. -/
theorem nested_induction {P : AttributeInfo → Prop}
    (step : ∀ info, (∀ inner ∈ info.data.nested, P inner) → P info) (info : AttributeInfo) :
    P info := by
  -- the types are mutually recursive; by length one induction does for all of them
  induction hlength : info.length using Nat.strongRecOn generalizing info with
  | ind length ih =>
    apply step
    intro inner hmem
    have hlt : inner.length < length := by
      rw [← hlength]
      exact length_nested_lt hmem
    exact ih inner.length hlt inner rfl

end AttributeInfo

theorem checkAttributes_eq_ok {infos : List AttributeInfo} :
    checkAttributes infos = .ok () ↔
      infos.length < 256 ^ 2 ∧ ∀ info ∈ infos, info.check = .ok () := by
  rw [checkAttributes, check_then_eq_ok, checkCount16_eq_ok, Attribute.checkInfos_eq_ok]

theorem length_encodeAttributes (infos : List AttributeInfo) :
    (encodeAttributes infos).length = attributesLength infos := by
  rw [encodeAttributes, List.length_append, length_bigEndian, Attribute.length_encodeInfos,
    attributesLength]

end ClassFormat
