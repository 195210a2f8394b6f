import ClassFormat.Proofs.Attribute.Nesting

namespace ClassFormat

theorem mapM_eq_self {α : Type} {step : α → Except Failure α} {as : List α}
    (h : ∀ a ∈ as, step a = .ok a) : as.mapM step = .ok as := by
  induction as with
  | nil => rfl
  | cons a as ih =>
    obtain ⟨ha, has⟩ := List.forall_mem_cons.1 h
    rw [List.mapM_cons, ha, ih has]
    rfl

/-- Steps that would keep all elements, taken where one of them was replaced. -/
theorem mapM_set {α : Type} {step : α → Except Failure α} {as : List α} {a b : α}
    (h : ∀ x ∈ as, step x = .ok x) (hstep : step a = .ok b) (i : Nat) :
    (as.set i a).mapM step = .ok (as.set i b) := by
  induction as generalizing i with
  | nil => rfl
  | cons x as ih =>
    obtain ⟨hx, has⟩ := List.forall_mem_cons.1 h
    cases i with
    | zero =>
      rw [List.set_cons_zero, List.mapM_cons, hstep, mapM_eq_self has]
      rfl
    | succ i =>
      rw [List.set_cons_succ, List.mapM_cons, hx, ih has]
      rfl

namespace Attribute

mutual

theorem updateNested_eq_self : (data : Attribute) → data.checkNested = .ok () →
    data.updateNested = .ok data
  | .code ⟨maxStack, maxLocals, bytes, handlers, attributes⟩, h => by
    rw [updateNested, updateLengths_eq_self attributes h]
    rfl
  | .record components, h => by
    rw [updateNested, updateComponentLengths_eq_self components h]
    rfl
  | .marker _, _ | .index .., _ | .indices .., _ | .enclosingMethod .., _ | .stackMapTable _, _
  | .innerClasses _, _ | .sourceDebugExtension _, _ | .lineNumberTable _, _
  | .localVariables .., _ | .annotations .., _ | .parameterAnnotations .., _
  | .typeAnnotations .., _ | .annotationDefault _, _ | .bootstrapMethods _, _
  | .methodParameters _, _ | .moduleInfo _, _ | .unknown _, _ => rfl

theorem updateLengths_eq_self : (infos : List AttributeInfo) → checkLengths infos = .ok () →
    updateLengths infos = .ok infos
  | [], _ => rfl
  | ⟨nameIndex, declared, data⟩ :: infos, h => by
    rw [checkLengths, check_then_eq_ok, check_then_eq_ok, checkDeclared_eq_ok] at h
    obtain ⟨hnested, hdeclared, hinfos⟩ := h
    rw [updateLengths, updateNested_eq_self data hnested, updateLengths_eq_self infos hinfos]
    simp only [bind, Except.bind, computedLength_eq_ok.2 hdeclared]
    rfl

theorem updateComponentLengths_eq_self : (components : List RecordComponent) →
    checkComponentLengths components = .ok () → updateComponentLengths components = .ok components
  | [], _ => rfl
  | ⟨nameIndex, descriptorIndex, attributes⟩ :: components, h => by
    rw [checkComponentLengths, check_then_eq_ok] at h
    obtain ⟨hattributes, hcomponents⟩ := h
    rw [updateComponentLengths, updateLengths_eq_self attributes hattributes,
      updateComponentLengths_eq_self components hcomponents]
    rfl

end

theorem updateLengths_eq_mapM (infos : List AttributeInfo) :
    updateLengths infos = infos.mapM (·.updateLength) := by
  induction infos with
  | nil => rfl
  | cons info infos ih =>
    obtain ⟨nameIndex, declared, data⟩ := info
    rw [updateLengths, List.mapM_cons, ih, AttributeInfo.updateLength]
    simp only [bind_assoc, pure_bind]

end Attribute

namespace AttributeInfo

theorem updateLength_of_nested {info : AttributeInfo} {data : Attribute} {declared : UInt32}
    (hnested : info.data.updateNested = .ok data) (hdeclared : declared.toNat = data.length) :
    info.updateLength = .ok ⟨info.nameIndex, declared, data⟩ := by
  rw [updateLength, hnested]
  simp only [bind, Except.bind, Attribute.computedLength_eq_ok.2 hdeclared]
  rfl

theorem updateLength_eq_self {info : AttributeInfo} (h : info.checkLength = .ok ()) :
    info.updateLength = .ok info := by
  obtain ⟨nameIndex, declared, data⟩ := info
  obtain ⟨hnested, hdeclared⟩ := check_then_eq_ok.1 h
  exact updateLength_of_nested (Attribute.updateNested_eq_self data hnested)
    (Attribute.checkDeclared_eq_ok.1 hdeclared)

end AttributeInfo

namespace Attribute

mutual

def withoutLengths : Attribute → Attribute
  | .code ⟨maxStack, maxLocals, bytes, handlers, attributes⟩ =>
    .code ⟨maxStack, maxLocals, bytes, handlers, infosWithoutLengths attributes⟩
  | .record components => .record (componentsWithoutLengths components)
  | data => data

def infosWithoutLengths : List AttributeInfo → List AttributeInfo
  | [] => []
  | ⟨nameIndex, _, data⟩ :: infos =>
    ⟨nameIndex, 0, data.withoutLengths⟩ :: infosWithoutLengths infos

def componentsWithoutLengths : List RecordComponent → List RecordComponent
  | [] => []
  | ⟨nameIndex, descriptorIndex, attributes⟩ :: components =>
    ⟨nameIndex, descriptorIndex, infosWithoutLengths attributes⟩ ::
      componentsWithoutLengths components

end

mutual

theorem length_withoutLengths (data : Attribute) : data.withoutLengths.length = data.length := by
  cases data with
  | code body =>
    obtain ⟨maxStack, maxLocals, bytes, handlers, attributes⟩ := body
    rw [withoutLengths, length, length, lengthInfos_withoutLengths attributes]
  | record components =>
    rw [withoutLengths, length, length, lengthComponents_withoutLengths components]
  | _ => rfl

theorem lengthInfos_withoutLengths : (infos : List AttributeInfo) →
    lengthInfos (infosWithoutLengths infos) = lengthInfos infos
  | [] => rfl
  | ⟨nameIndex, declared, data⟩ :: infos => by
    rw [infosWithoutLengths, lengthInfos, lengthInfos, length_withoutLengths data,
      lengthInfos_withoutLengths infos]

theorem lengthComponents_withoutLengths : (components : List RecordComponent) →
    lengthComponents (componentsWithoutLengths components) = lengthComponents components
  | [] => rfl
  | ⟨nameIndex, descriptorIndex, attributes⟩ :: components => by
    rw [componentsWithoutLengths, lengthComponents, lengthComponents,
      lengthInfos_withoutLengths attributes, lengthComponents_withoutLengths components]

end

theorem length_eq_of_withoutLengths {data other : Attribute}
    (h : data.withoutLengths = other.withoutLengths) : data.length = other.length := by
  rw [← length_withoutLengths data, h, length_withoutLengths]

mutual

theorem of_updateNested (data : Attribute) {updated : Attribute}
    (h : data.updateNested = .ok updated) :
    updated.withoutLengths = data.withoutLengths ∧ updated.checkNested = .ok () ∧
      ∀ info ∈ data.inside, info.data.length ≤ 0xffffffff := by
  cases data with
  | code body =>
    obtain ⟨maxStack, maxLocals, bytes, handlers, attributes⟩ := body
    rw [updateNested, except_bind_eq_ok] at h
    obtain ⟨infos, hinfos, hcode⟩ := h
    cases hcode
    obtain ⟨hsame, hcheck, hfit⟩ := of_updateLengths attributes hinfos
    refine ⟨?_, hcheck, hfit⟩
    rw [withoutLengths, withoutLengths, hsame]
  | record components =>
    rw [updateNested, except_bind_eq_ok] at h
    obtain ⟨recomputed, hcomponents, hrecord⟩ := h
    cases hrecord
    obtain ⟨hsame, hcheck, hfit⟩ := of_updateComponentLengths components hcomponents
    refine ⟨?_, hcheck, hfit⟩
    rw [withoutLengths, withoutLengths, hsame]
  | _ =>
    cases h
    exact ⟨rfl, rfl, by simp [inside]⟩

theorem of_updateLengths : (infos : List AttributeInfo) → {updated : List AttributeInfo} →
    updateLengths infos = .ok updated →
    infosWithoutLengths updated = infosWithoutLengths infos ∧ checkLengths updated = .ok () ∧
      ∀ info ∈ insideInfos infos, info.data.length ≤ 0xffffffff
  | [], updated, h => by
    cases h
    exact ⟨rfl, rfl, by simp [insideInfos]⟩
  | ⟨nameIndex, declared, data⟩ :: infos, updated, h => by
    simp only [updateLengths, except_bind_eq_ok] at h
    obtain ⟨newData, hdata, newDeclared, hdeclared, newInfos, hinfos, hcons⟩ := h
    cases hcons
    obtain ⟨hsameData, hcheckData, hfitData⟩ := of_updateNested data hdata
    obtain ⟨hsame, hcheck, hfit⟩ := of_updateLengths infos hinfos
    -- the length is computed from the new data, which has the old length
    have hlength : newDeclared.toNat = data.length := by
      rw [computedLength_eq_ok.1 hdeclared, length_eq_of_withoutLengths hsameData]
    have hlt := newDeclared.toNat_lt
    refine ⟨?_, ?_, ?_⟩
    · rw [infosWithoutLengths, infosWithoutLengths, hsameData, hsame]
    · rw [checkLengths, check_then_eq_ok, check_then_eq_ok, checkDeclared_eq_ok]
      exact ⟨hcheckData, computedLength_eq_ok.1 hdeclared, hcheck⟩
    · rw [insideInfos, List.forall_mem_cons, List.forall_mem_append]
      exact ⟨by change data.length ≤ _; omega, hfitData, hfit⟩

theorem of_updateComponentLengths : (components : List RecordComponent) →
    {updated : List RecordComponent} → updateComponentLengths components = .ok updated →
    componentsWithoutLengths updated = componentsWithoutLengths components ∧
      checkComponentLengths updated = .ok () ∧
      ∀ info ∈ insideComponents components, info.data.length ≤ 0xffffffff
  | [], updated, h => by
    cases h
    exact ⟨rfl, rfl, by simp [insideComponents]⟩
  | ⟨nameIndex, descriptorIndex, attributes⟩ :: components, updated, h => by
    simp only [updateComponentLengths, except_bind_eq_ok] at h
    obtain ⟨infos, hinfos, newComponents, hcomponents, hcons⟩ := h
    cases hcons
    obtain ⟨hsameInfos, hcheckInfos, hfitInfos⟩ := of_updateLengths attributes hinfos
    obtain ⟨hsame, hcheck, hfit⟩ := of_updateComponentLengths components hcomponents
    refine ⟨?_, ?_, ?_⟩
    · rw [componentsWithoutLengths, componentsWithoutLengths, hsameInfos, hsame]
    · rw [checkComponentLengths, check_then_eq_ok]
      exact ⟨hcheckInfos, hcheck⟩
    · rw [insideComponents, List.forall_mem_append]
      exact ⟨hfitInfos, hfit⟩

end

mutual

theorem exists_updateNested (data : Attribute)
    (h : ∀ info ∈ data.inside, info.data.length ≤ 0xffffffff) :
    ∃ updated, data.updateNested = .ok updated := by
  cases data with
  | code body =>
    obtain ⟨maxStack, maxLocals, bytes, handlers, attributes⟩ := body
    rw [inside] at h
    obtain ⟨infos, hinfos⟩ := exists_updateLengths attributes h
    rw [updateNested, hinfos]
    exact ⟨_, rfl⟩
  | record components =>
    rw [inside] at h
    obtain ⟨recomputed, hcomponents⟩ := exists_updateComponentLengths components h
    rw [updateNested, hcomponents]
    exact ⟨_, rfl⟩
  | _ => exact ⟨_, rfl⟩

theorem exists_updateLengths : (infos : List AttributeInfo) →
    (∀ info ∈ insideInfos infos, info.data.length ≤ 0xffffffff) →
    ∃ updated, updateLengths infos = .ok updated
  | [], _ => ⟨[], rfl⟩
  | ⟨nameIndex, declared, data⟩ :: infos, h => by
    rw [insideInfos, List.forall_mem_cons, List.forall_mem_append] at h
    obtain ⟨hlength, hinside, hinfos⟩ := h
    obtain ⟨newData, hdata⟩ := exists_updateNested data hinside
    obtain ⟨newInfos, hnewInfos⟩ := exists_updateLengths infos hinfos
    -- what is declared inside takes four bytes, whatever it is
    have hsame : newData.length = data.length :=
      length_eq_of_withoutLengths (of_updateNested data hdata).1
    have hdeclared : newData.computedLength = .ok (UInt32.ofNat data.length) := by
      rw [computedLength_eq_ok, hsame, UInt32.toNat_ofNat_of_lt']
      exact Nat.lt_succ_of_le hlength
    refine ⟨⟨nameIndex, UInt32.ofNat data.length, newData⟩ :: newInfos, ?_⟩
    rw [updateLengths, hdata, hnewInfos]
    simp only [bind, Except.bind, hdeclared]
    rfl

theorem exists_updateComponentLengths : (components : List RecordComponent) →
    (∀ info ∈ insideComponents components, info.data.length ≤ 0xffffffff) →
    ∃ updated, updateComponentLengths components = .ok updated
  | [], _ => ⟨[], rfl⟩
  | ⟨nameIndex, descriptorIndex, attributes⟩ :: components, h => by
    rw [insideComponents, List.forall_mem_append] at h
    obtain ⟨infos, hinfos⟩ := exists_updateLengths attributes h.1
    obtain ⟨newComponents, hcomponents⟩ := exists_updateComponentLengths components h.2
    refine ⟨⟨nameIndex, descriptorIndex, infos⟩ :: newComponents, ?_⟩
    rw [updateComponentLengths, hinfos, hcomponents]
    rfl

end

end Attribute

namespace AttributeInfo

theorem checkLength_iff_all (info : AttributeInfo) :
    info.checkLength = .ok () ↔ ∀ i ∈ info.all, i.declaredLength.toNat = i.data.length := by
  induction info using nested_induction with
  | step info ih =>
    have hnested : (∀ inner ∈ info.data.nested, inner.checkLength = .ok ()) ↔
        ∀ inner ∈ info.data.nested, ∀ i ∈ inner.all, i.declaredLength.toNat = i.data.length :=
      forall₂_congr ih
    rw [checkLength, check_then_eq_ok, Attribute.checkNested_eq_ok, Attribute.checkDeclared_eq_ok,
      forall_mem_all, hnested, and_comm]

end AttributeInfo

end ClassFormat
