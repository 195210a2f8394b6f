import ClassFormat.Proofs.Attribute.Nesting

namespace ClassFormat

theorem lt_two_bytes_iff {n : Nat} : n < 256 ^ 2 ↔ n ≤ 65535 := by omega

theorem lt_one_byte_iff {n : Nat} : n < 256 ^ 1 ↔ n ≤ 255 := by omega

/-- Where every element can be written, a list only has to be short enough for its count. -/
theorem rows_check_eq_ok {α : Type} {width : Nat} {row : Layout α} {rows : List α}
    (h : ∀ a, row.check a = .ok ()) :
    (Layout.list width row).check rows = .ok () ↔ rows.length < 256 ^ width := by
  simp only [Layout.list_check_eq_ok, h, implies_true, and_true]

theorem indexList_check_eq_ok {values : List UInt16} :
    indexList.check values = .ok () ↔ values.length ≤ 65535 := by
  rw [indexList, rows_check_eq_ok fun _ => rfl, lt_two_bytes_iff]

namespace StackMapFrame

/-- Short offset deltas lie below 64, and one to three locals are chopped or appended. -/
def HasType : StackMapFrame → Prop
  | .same delta | .sameLocals1StackItem delta _ => delta < 64
  | .chop k _ => 1 ≤ k ∧ k ≤ 3
  | .append _ locals => 1 ≤ locals.length ∧ locals.length ≤ 3
  | .sameLocals1StackItemExtended .. | .sameExtended _ | .full .. => True

def sizes : StackMapFrame → List Nat
  | .full _ locals stack => [locals.length, stack.length]
  | _ => []

theorem types_check_eq_ok {types : List VerificationType} :
    StackMapFrame.types.check types = .ok () ↔ types.length ≤ 65535 := by
  rw [StackMapFrame.types, rows_check_eq_ok fun _ => rfl, lt_two_bytes_iff]

theorem check_eq_ok {frame : StackMapFrame} :
    frame.check = .ok () ↔ frame.HasType ∧ ∀ size ∈ frame.sizes, size ≤ 65535 := by
  cases frame with
  | full delta locals stack =>
    simp [check, frameType?, check_then_eq_ok, types_check_eq_ok, HasType, sizes]
  | same delta | sameLocals1StackItem delta stack =>
    by_cases h : delta < 64 <;> simp [check, frameType?, HasType, sizes, h]
  | chop k delta =>
    by_cases h : 1 ≤ k ∧ k ≤ 3 <;> simp [check, frameType?, HasType, sizes, h]
  | append delta locals =>
    by_cases h : 1 ≤ locals.length ∧ locals.length ≤ 3 <;>
      simp [check, frameType?, HasType, sizes, h]
  | sameLocals1StackItemExtended delta stack | sameExtended delta =>
    simp [check, frameType?, HasType, sizes]

end StackMapFrame

namespace ElementValue

/-- The sizes of the lists of a value, those of the values in it apart. -/
def ownSizes : ElementValue → List Nat
  | .nested a => [a.pairs.length]
  | .array values => [values.length]
  | _ => []

def sizes (values : List (Nat × ElementValue)) : List Nat := values.flatMap (·.2.ownSizes)

theorem sizes_cons (depth : Nat) (value : ElementValue) (values : List (Nat × ElementValue)) :
    sizes ((depth, value) :: values) = value.ownSizes ++ sizes values :=
  List.flatMap_cons

theorem sizes_append (first second : List (Nat × ElementValue)) :
    sizes (first ++ second) = sizes first ++ sizes second :=
  List.flatMap_append

mutual

theorem check_eq_ok (depth : Nat) : (value : ElementValue) → (value.check = .ok () ↔
    ∀ size ∈ sizes (value.inside depth), size ≤ 65535)
  | .const .. | .enum .. | .classInfo _ => by simp [check, inside, sizes, ownSizes]
  | .nested ⟨typeIndex, pairs⟩ => by
    rw [check, check_then_eq_ok, checkCount16_eq_ok, checkPairs_iff (depth + 1) pairs, inside,
      sizes_cons, List.forall_mem_append, lt_two_bytes_iff, ownSizes, List.forall_mem_singleton]
  | .array values => by
    rw [check, check_then_eq_ok, checkCount16_eq_ok, checkValues_iff (depth + 1) values, inside,
      sizes_cons, List.forall_mem_append, lt_two_bytes_iff, ownSizes, List.forall_mem_singleton]

theorem checkValues_iff (depth : Nat) : (values : List ElementValue) →
    (checkValues values = .ok () ↔ ∀ size ∈ sizes (insideValues depth values), size ≤ 65535)
  | [] => by simp [checkValues, insideValues, sizes]
  | value :: values => by
    rw [checkValues, check_then_eq_ok, check_eq_ok depth value, checkValues_iff depth values,
      insideValues, sizes_append, List.forall_mem_append]

theorem checkPairs_iff (depth : Nat) : (pairs : List ElementPair) →
    (checkPairs pairs = .ok () ↔ ∀ size ∈ sizes (insidePairs depth pairs), size ≤ 65535)
  | [] => by simp [checkPairs, insidePairs, sizes]
  | ⟨nameIndex, value⟩ :: pairs => by
    rw [checkPairs, check_then_eq_ok, check_eq_ok depth value, checkPairs_iff depth pairs,
      insidePairs, sizes_append, List.forall_mem_append]

end

end ElementValue

namespace Annotation

def sizes (a : Annotation) : List Nat := a.pairs.length :: ElementValue.sizes a.values

theorem check_eq_ok {a : Annotation} : a.check = .ok () ↔ ∀ size ∈ a.sizes, size ≤ 65535 := by
  rw [check, check_then_eq_ok, checkCount16_eq_ok, ElementValue.checkPairs_iff 0, sizes,
    List.forall_mem_cons, values, lt_two_bytes_iff]

end Annotation

namespace TargetInfo

def sizes : TargetInfo → List Nat
  | .localVar table => [table.length]
  | _ => []

theorem check_eq_ok {target : TargetInfo} :
    target.check = .ok () ↔ ∀ size ∈ target.sizes, size ≤ 65535 := by
  cases target with
  | localVar entries =>
    rw [check, table, rows_check_eq_ok fun _ => rfl, lt_two_bytes_iff, sizes,
      List.forall_mem_singleton]
  | _ => simp [check, sizes]

end TargetInfo

namespace TypeAnnotation

theorem check_eq_ok {a : TypeAnnotation} :
    layout.check a = .ok () ↔ a.targetPath.length ≤ 255 ∧
      ∀ size ∈ a.targetInfo.sizes ++ a.body.sizes, size ≤ 65535 := by
  -- the path is counted by one byte, the lists behind it by two
  have hpath : path.check a.targetPath = .ok () ↔ a.targetPath.length ≤ 255 := by
    rw [path, rows_check_eq_ok fun _ => rfl, lt_one_byte_iff]
  simp only [layout, check_then_eq_ok, TargetInfo.check_eq_ok, hpath, Annotation.check_eq_ok,
    List.forall_mem_append]
  exact and_left_comm

end TypeAnnotation

/-- The sizes of a list and of the lists in its elements. -/
def listSizes {α : Type} (sizes : α → List Nat) (as : List α) : List Nat :=
  as.length :: as.flatMap sizes

theorem list_check_iff_sizes {α : Type} {item : Layout α} {sizes : α → List Nat}
    (h : ∀ a, item.check a = .ok () ↔ ∀ size ∈ sizes a, size ≤ 65535) (as : List α) :
    (Layout.list 2 item).check as = .ok () ↔ ∀ size ∈ listSizes sizes as, size ≤ 65535 := by
  rw [Layout.list_check_eq_ok, listSizes, List.forall_mem_cons, List.forall_mem_flatMap,
    lt_two_bytes_iff]
  simp only [h]

namespace ModuleInfo

def sizes (info : ModuleInfo) : List Nat :=
  [info.requirements.length, info.used.length] ++
    listSizes (fun grant => [grant.toIndices.length]) info.exported ++
    listSizes (fun grant => [grant.toIndices.length]) info.opened ++
    listSizes (fun provision => [provision.withIndices.length]) info.provided

theorem check_eq_ok {info : ModuleInfo} :
    layout.check info = .ok () ↔ ∀ size ∈ info.sizes, size ≤ 65535 := by
  have hindex (value : UInt16) : Layout.u16.check value = .ok () := rfl
  have hgrant (grant : ModuleGrant) : ModuleGrant.layout.check grant = .ok () ↔
      ∀ size ∈ [grant.toIndices.length], size ≤ 65535 := by
    rw [List.forall_mem_singleton]
    exact indexList_check_eq_ok
  have hprovision (provision : ModuleProvision) :
      ModuleProvision.layout.check provision = .ok () ↔
        ∀ size ∈ [provision.withIndices.length], size ≤ 65535 := by
    rw [List.forall_mem_singleton]
    exact indexList_check_eq_ok
  have hrequirements : requirementTable.check info.requirements = .ok () ↔
      info.requirements.length ≤ 65535 := by
    rw [requirementTable, rows_check_eq_ok fun _ => rfl, lt_two_bytes_iff]
  simp only [layout, Layout.withLength, Layout.as, Layout.pair, check_then_eq_ok, hindex,
    hrequirements, grantTable, list_check_iff_sizes hgrant, provisionTable,
    list_check_iff_sizes hprovision, indexList_check_eq_ok, sizes, List.forall_mem_append,
    List.forall_mem_cons]
  grind

end ModuleInfo

namespace Attribute

/-- The sizes of the lists behind a count of two bytes, tables of attributes among them. -/
def wideSizes : Attribute → List Nat
  | .marker _ | .index .. | .enclosingMethod .. | .sourceDebugExtension _ | .methodParameters _
  | .unknown _ => []
  | .indices _ values => [values.length]
  | .code body => [body.handlers.length, body.attributes.length]
  | .stackMapTable frames => listSizes StackMapFrame.sizes frames
  | .innerClasses classes => [classes.length]
  | .lineNumberTable lines => [lines.length]
  | .localVariables _ table => [table.length]
  | .annotations _ values => listSizes Annotation.sizes values
  | .parameterAnnotations _ parameters => parameters.flatMap (listSizes Annotation.sizes)
  | .typeAnnotations _ values =>
    listSizes (fun a => a.targetInfo.sizes ++ a.body.sizes) values
  | .annotationDefault value => ElementValue.sizes (value.inside 0)
  | .bootstrapMethods methods => listSizes (fun m => [m.arguments.length]) methods
  | .moduleInfo info => info.sizes
  | .record components => listSizes (fun component => [component.attributes.length]) components

/-- The sizes of the lists behind a count of one byte. -/
def narrowSizes : Attribute → List Nat
  | .parameterAnnotations _ parameters => [parameters.length]
  | .methodParameters parameters => [parameters.length]
  | .typeAnnotations _ values => values.map (·.targetPath.length)
  | _ => []

def frames : Attribute → List StackMapFrame
  | .stackMapTable frames => frames
  | _ => []

theorem annotationList_check_eq_ok {values : List Annotation} :
    annotationList.check values = .ok () ↔
      ∀ size ∈ listSizes Annotation.sizes values, size ≤ 65535 := by
  have hvalue (a : Annotation) : Annotation.layout.check a = .ok () ↔
      ∀ size ∈ a.sizes, size ≤ 65535 := Annotation.check_eq_ok
  exact list_check_iff_sizes hvalue values

theorem bootstrapTable_check_eq_ok {methods : List BootstrapMethod} :
    bootstrapTable.check methods = .ok () ↔
      ∀ size ∈ listSizes (fun m => [m.arguments.length]) methods, size ≤ 65535 := by
  have hmethod (m : BootstrapMethod) : BootstrapMethod.layout.check m = .ok () ↔
      ∀ size ∈ [m.arguments.length], size ≤ 65535 := by
    rw [List.forall_mem_singleton]
    exact indexList_check_eq_ok
  exact list_check_iff_sizes hmethod methods

/-- The length bounds that of a code array already, so only lists and frames are left to ask for. -/
theorem ownFits_iff {data : Attribute} (h : data.length < 256 ^ 4) :
    data.OwnFits ↔ (∀ size ∈ data.wideSizes, size ≤ 65535) ∧
      (∀ size ∈ data.narrowSizes, size ≤ 255) ∧ ∀ frame ∈ data.frames, frame.HasType := by
  cases data with
  | indices role values => simp [OwnFits, wideSizes, narrowSizes, frames, indexList_check_eq_ok]
  | code body =>
    obtain ⟨maxStack, maxLocals, bytes, handlers, attributes⟩ := body
    -- the array is part of the body, and so no longer than it
    have hbytes : bytes.length < 256 ^ 4 := by
      rw [length] at h
      omega
    have hhandlers : handlerTable.check handlers = .ok () ↔ handlers.length ≤ 65535 := by
      rw [handlerTable, rows_check_eq_ok fun _ => rfl, lt_two_bytes_iff]
    simp only [OwnFits, hbytes, hhandlers, lt_two_bytes_iff]
    simp [wideSizes, narrowSizes, frames]
  | stackMapTable frames =>
    have hframe (frame : StackMapFrame) : StackMapFrame.layout.check frame = .ok () ↔
        frame.HasType ∧ ∀ size ∈ frame.sizes, size ≤ 65535 := StackMapFrame.check_eq_ok
    simp only [OwnFits, frameTable, Layout.list_check_eq_ok, hframe, lt_two_bytes_iff, wideSizes,
      listSizes, List.forall_mem_cons, List.forall_mem_flatMap, narrowSizes, Attribute.frames]
    grind
  -- any row of these tables can be written
  | innerClasses rows | lineNumberTable rows | localVariables types rows =>
    rw [OwnFits]
    refine (rows_check_eq_ok fun _ => rfl).trans (lt_two_bytes_iff.trans ?_)
    simp [wideSizes, narrowSizes, frames]
  | methodParameters parameters =>
    rw [OwnFits, parameterTable, rows_check_eq_ok fun _ => rfl, lt_one_byte_iff]
    simp [wideSizes, narrowSizes, frames]
  | annotations visibility values =>
    simp [OwnFits, wideSizes, narrowSizes, frames, annotationList_check_eq_ok]
  | parameterAnnotations visibility parameters =>
    rw [OwnFits, parameterList, Layout.list_check_eq_ok, lt_one_byte_iff, wideSizes,
      List.forall_mem_flatMap, and_comm]
    simp [annotationList_check_eq_ok, narrowSizes, frames]
  | typeAnnotations visibility values =>
    simp only [OwnFits, typeAnnotationList, Layout.list_check_eq_ok, TypeAnnotation.check_eq_ok,
      lt_two_bytes_iff, wideSizes, listSizes, List.forall_mem_cons, List.forall_mem_flatMap,
      narrowSizes, frames, List.forall_mem_map]
    grind
  | annotationDefault value =>
    simp [OwnFits, wideSizes, narrowSizes, frames, ElementValue.check_eq_ok 0]
  | bootstrapMethods methods =>
    simp [OwnFits, wideSizes, narrowSizes, frames, bootstrapTable_check_eq_ok]
  | moduleInfo info => simp [OwnFits, wideSizes, narrowSizes, frames, ModuleInfo.check_eq_ok]
  | record components =>
    simp only [OwnFits, lt_two_bytes_iff, wideSizes, listSizes, List.forall_mem_cons,
      List.forall_mem_flatMap]
    simp [narrowSizes, frames]
  | _ => simp [OwnFits, wideSizes, narrowSizes, frames]

end Attribute

namespace AttributeInfo

/-- What writing asks of an attribute, those inside it apart. -/
structure Writable (info : AttributeInfo) : Prop where
  declares : info.declaredLength.toNat = info.data.length
  wide : ∀ size ∈ info.data.wideSizes, size ≤ 65535
  narrow : ∀ size ∈ info.data.narrowSizes, size ≤ 255
  typed : ∀ frame ∈ info.data.frames, frame.HasType

theorem writable_iff {info : AttributeInfo} :
    info.Writable ↔ info.declaredLength.toNat = info.data.length ∧ info.data.OwnFits := by
  have hlt := info.declaredLength.toNat_lt
  constructor
  · intro ⟨hdeclares, hwide, hnarrow, htyped⟩
    exact ⟨hdeclares, (Attribute.ownFits_iff (by omega)).2 ⟨hwide, hnarrow, htyped⟩⟩
  · intro ⟨hdeclares, hown⟩
    obtain ⟨hwide, hnarrow, htyped⟩ := (Attribute.ownFits_iff (by omega)).1 hown
    exact ⟨hdeclares, hwide, hnarrow, htyped⟩

theorem check_eq_ok_iff_writable (info : AttributeInfo) :
    info.check = .ok () ↔ ∀ i ∈ info.all, i.Writable := by
  induction info using nested_induction with
  | step info ih =>
    rw [check_eq_ok, forall_mem_all, writable_iff, and_assoc]
    have hnested : (∀ inner ∈ info.data.nested, inner.check = .ok ()) ↔
        ∀ inner ∈ info.data.nested, ∀ i ∈ inner.all, i.Writable :=
      forall₂_congr ih
    rw [hnested]

end AttributeInfo

section Failures

variable {allowed : Cause → Prop}

namespace ElementValue

mutual

theorem failsBy (h : ∀ flaw, allowed (.malformed flaw)) :
    (value : ElementValue) → FailsBy allowed value.check
  | .const .. | .enum .. | .classInfo _ => .ok ()
  | .nested ⟨_, pairs⟩ => .bind (.checkCount h _ _) fun _ => pairs_failsBy h pairs
  | .array values => .bind (.checkCount h _ _) fun _ => values_failsBy h values

theorem values_failsBy (h : ∀ flaw, allowed (.malformed flaw)) :
    (values : List ElementValue) → FailsBy allowed (checkValues values)
  | [] => .ok ()
  | value :: values => .bind (failsBy h value) fun _ => values_failsBy h values

theorem pairs_failsBy (h : ∀ flaw, allowed (.malformed flaw)) :
    (pairs : List ElementPair) → FailsBy allowed (checkPairs pairs)
  | [] => .ok ()
  | ⟨_, value⟩ :: pairs => .bind (failsBy h value) fun _ => pairs_failsBy h pairs

end

end ElementValue

variable (h : ∀ flaw, allowed (.malformed flaw))

include h

theorem rows_failsBy {α : Type} {width : Nat} {row : Layout α} (rows : List α)
    (hrow : ∀ a, row.check a = .ok ()) : FailsBy allowed ((Layout.list width row).check rows) := by
  apply Layout.list_failsBy h
  intro a _
  rw [hrow]
  exact .ok ()

theorem StackMapFrame.failsBy (frame : StackMapFrame) : FailsBy allowed frame.check := by
  unfold check
  split
  · exact .error (h _)
  · exact .bind (rows_failsBy h _ fun _ => rfl) fun _ => rows_failsBy h _ fun _ => rfl
  · exact .ok ()

theorem Annotation.failsBy (a : Annotation) : FailsBy allowed a.check :=
  .bind (.checkCount h _ _) fun _ => ElementValue.pairs_failsBy h a.pairs

theorem TargetInfo.failsBy (target : TargetInfo) : FailsBy allowed target.check := by
  cases target with
  | localVar entries => exact rows_failsBy h entries fun _ => rfl
  | _ => exact .ok ()

theorem TypeAnnotation.failsBy (a : TypeAnnotation) : FailsBy allowed (layout.check a) :=
  .bind (a.targetInfo.failsBy h) fun _ =>
    .bind (rows_failsBy h a.targetPath fun _ => rfl) fun _ => a.body.failsBy h

theorem indexList_failsBy (values : List UInt16) : FailsBy allowed (indexList.check values) :=
  rows_failsBy h values fun _ => rfl

theorem ModuleInfo.failsBy (info : ModuleInfo) : FailsBy allowed (layout.check info) := by
  have hgrant (grant : ModuleGrant) : FailsBy allowed (ModuleGrant.layout.check grant) :=
    indexList_failsBy h grant.toIndices
  have hprovision (provision : ModuleProvision) :
      FailsBy allowed (ModuleProvision.layout.check provision) :=
    indexList_failsBy h provision.withIndices
  -- name, flags and version are written before the lists
  exact .bind (.ok ()) fun _ => .bind (.ok ()) fun _ => .bind (.ok ()) fun _ =>
    .bind (rows_failsBy h info.requirements fun _ => rfl) fun _ =>
    .bind (Layout.list_failsBy h fun grant _ => hgrant grant) fun _ =>
    .bind (Layout.list_failsBy h fun grant _ => hgrant grant) fun _ =>
    .bind (indexList_failsBy h info.used) fun _ =>
    Layout.list_failsBy h fun provision _ => hprovision provision

theorem checkAttributes_failsBy {infos : List AttributeInfo}
    (hinfos : ∀ info ∈ infos, FailsBy allowed info.check) :
    FailsBy allowed (checkAttributes infos) := by
  rw [checkAttributes, Attribute.checkInfos_eq_forM]
  exact .bind (.checkCount h _ _) fun _ => .forM hinfos

namespace Attribute

theorem computedLength_failsBy (data : Attribute) : FailsBy allowed data.computedLength := by
  simp only [computedLength]
  split
  · exact .ok _
  · exact .error (h _)

omit h in
theorem checkNested_failsBy {data : Attribute}
    (hnested : ∀ info ∈ data.nested, FailsBy allowed info.checkLength) :
    FailsBy allowed data.checkNested := by
  cases data with
  | code body =>
    cases body
    rw [checkNested, checkLengths_eq_forM]
    exact .forM hnested
  | record components =>
    rw [checkNested, checkComponentLengths_eq_forM]
    refine .forM fun component hmem => ?_
    rw [checkLengths_eq_forM]
    exact .forM fun info hinfo => hnested info (List.mem_flatMap.2 ⟨component, hmem, hinfo⟩)
  | _ => exact .ok ()

theorem failsBy {data : Attribute} (hnested : ∀ info ∈ data.nested, FailsBy allowed info.check) :
    FailsBy allowed data.check := by
  cases data with
  | marker _ | index _ _ | enclosingMethod _ _ | sourceDebugExtension _ | unknown _ => exact .ok ()
  | indices role values => exact indexList_failsBy h values
  | code body =>
    obtain ⟨maxStack, maxLocals, bytes, handlers, attributes⟩ := body
    rw [check]
    exact .bind (.inContext (.checkCount h _ _) _) fun _ =>
      .bind (rows_failsBy h handlers fun _ => rfl) fun _ => checkAttributes_failsBy h hnested
  | stackMapTable frames => exact Layout.list_failsBy h fun frame _ => frame.failsBy h
  | innerClasses rows | lineNumberTable rows | localVariables _ rows | methodParameters rows =>
    exact rows_failsBy h rows fun _ => rfl
  | annotations visibility values => exact Layout.list_failsBy h fun a _ => a.failsBy h
  | parameterAnnotations visibility parameters =>
    exact Layout.list_failsBy h fun _ _ => Layout.list_failsBy h fun a _ => a.failsBy h
  | typeAnnotations visibility values => exact Layout.list_failsBy h fun a _ => a.failsBy h
  | annotationDefault value => exact value.failsBy h
  | bootstrapMethods methods =>
    exact Layout.list_failsBy h fun m _ => indexList_failsBy h m.arguments
  | moduleInfo info => exact info.failsBy h
  | record components =>
    rw [check, checkComponents_eq_forM]
    refine .bind (.checkCount h _ _) fun _ => .forM fun component hmem => ?_
    exact checkAttributes_failsBy h fun info hinfo =>
      hnested info (List.mem_flatMap.2 ⟨component, hmem, hinfo⟩)

end Attribute

end Failures

namespace AttributeInfo

/-- A cause that tells how the declared length of the attribute differs from that of its data. -/
def Mismatch (info : AttributeInfo) (cause : Cause) : Prop :=
  ∃ computed, computed.toNat = info.data.length ∧ info.declaredLength ≠ computed ∧
    cause = .lengthMismatch (info.data.label info.nameIndex) info.declaredLength computed

section Failures

variable {allowed : Cause → Prop} (h : ∀ flaw, allowed (.malformed flaw))

include h

theorem checkDeclared_failsBy {info : AttributeInfo}
    (hmismatch : ∀ cause, info.Mismatch cause → allowed cause) :
    FailsBy allowed (Attribute.checkDeclared info.nameIndex info.declaredLength info.data) := by
  unfold Attribute.checkDeclared
  cases hcomputed : info.data.computedLength with
  | ok computed =>
    have hlength := Attribute.computedLength_eq_ok.1 hcomputed
    -- the body is small enough, so the lengths are compared
    change FailsBy allowed (if computed = info.declaredLength then .ok () else .error _)
    split
    case isTrue => exact .ok ()
    case isFalse hne => exact .error (hmismatch _ ⟨computed, hlength, Ne.symm hne, rfl⟩)
  | error failure => exact .error (info.data.computedLength_failsBy h failure hcomputed)

/-- Checking lengths finds no more than bodies that are too large and declared lengths that
differ. -/
theorem checkLength_failsBy (info : AttributeInfo)
    (hmismatch : ∀ i ∈ info.all, ∀ cause, i.Mismatch cause → allowed cause) :
    FailsBy allowed info.checkLength := by
  induction info using nested_induction with
  | step info ih =>
    obtain ⟨hown, hnested⟩ := forall_mem_all.1 hmismatch
    have hinner : ∀ inner ∈ info.data.nested, FailsBy allowed inner.checkLength :=
      fun inner hmem => ih inner hmem (hnested inner hmem)
    exact .bind (Attribute.checkNested_failsBy hinner) fun _ => checkDeclared_failsBy h hown

theorem check_failsBy (info : AttributeInfo)
    (hmismatch : ∀ i ∈ info.all, ∀ cause, i.Mismatch cause → allowed cause) :
    FailsBy allowed info.check := by
  induction info using nested_induction with
  | step info ih =>
    have hlength := checkLength_failsBy h info hmismatch
    obtain ⟨-, hnested⟩ := forall_mem_all.1 hmismatch
    exact .bind hlength fun _ =>
      Attribute.failsBy h fun inner hmem => ih inner hmem (hnested inner hmem)

end Failures

end AttributeInfo

end ClassFormat
