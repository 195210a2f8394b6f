import ClassFormat.Attribute.Read
import ClassFormat.Proofs.Attribute.Nesting

namespace ClassFormat

namespace Attribute

open ElementValue

def values : Attribute → List (Nat × ElementValue)
  | .annotations _ list => list.flatMap (·.values)
  | .parameterAnnotations _ parameters => parameters.flatten.flatMap (·.values)
  | .typeAnnotations _ list => list.flatMap (·.body.values)
  | .annotationDefault value => value.inside 0
  | _ => []

def targeted : Attribute → List TypeAnnotation
  | .typeAnnotations _ list => list
  | _ => []

/-- Data stands under its own name, and unknown data under none that stands for known data. -/
def NamedBy (data : Attribute) (name : Except Unresolved String) : Prop :=
  match data.name? with
  | some own => name = .ok own
  | none => ∀ text, name = .ok text → Kind.ofName? text = none

/-- Bodies that are written and read back, where `valid` says it of the attributes in them. -/
def Fits (valid : AttributeInfo → Prop) (data : Attribute) : Prop :=
  data.OwnFits ∧ AllReadable data.values ∧ (∀ a ∈ data.targeted, a.HasOwnTarget) ∧
    ∀ info ∈ data.nested, valid info

theorem ofName?_name (kind : Kind) : Kind.ofName? kind.name = some kind := by
  cases kind with
  | marker role | index role | indices role | localVariables role | annotations role
  | parameterAnnotations role | typeAnnotations role => cases role <;> rfl
  | _ => rfl

theorem ofName?_eq_some {name : String} {kind : Kind} :
    Kind.ofName? name = some kind ↔ kind.name = name := by
  constructor
  · intro h
    have := List.find?_some h
    simpa using this
  · rintro rfl
    exact ofName?_name kind

theorem namedBy_ok {data : Attribute} {name : String} :
    data.NamedBy (.ok name) ↔ data.kind? = Kind.ofName? name := by
  unfold NamedBy name?
  cases hkind : data.kind? with
  | none => simp [eq_comm]
  | some kind =>
    have hname : (.ok name : Except Unresolved String) = .ok kind.name ↔ kind.name = name := by
      simp [eq_comm]
    rw [@eq_comm _ (some kind), ofName?_eq_some]
    exact hname

theorem namedBy_error {data : Attribute} {unresolved : Unresolved} :
    data.NamedBy (.error unresolved) ↔ data.kind? = none := by
  unfold NamedBy name?
  cases hkind : data.kind? <;> simp

instance (data : Attribute) : (name : Except Unresolved String) → Decidable (data.NamedBy name)
  | .ok _ => decidable_of_iff _ namedBy_ok.symm
  | .error _ => decidable_of_iff _ namedBy_error.symm

theorem kind?_eq_none {data : Attribute} : data.kind? = none ↔ ∃ bytes, data = .unknown bytes := by
  cases data <;> simp [kind?]

/-- The kind of data tells its form. -/
theorem kind?_eq_some {data : Attribute} {kind : Kind} (h : data.kind? = some kind) :
    match kind with
    | .marker which => data = .marker which
    | .index role => ∃ value, data = .index role value
    | .indices role => ∃ values, data = .indices role values
    | .enclosingMethod => ∃ classIndex methodIndex, data = .enclosingMethod classIndex methodIndex
    | .code => ∃ body, data = .code body
    | .stackMapTable => ∃ frames, data = .stackMapTable frames
    | .innerClasses => ∃ classes, data = .innerClasses classes
    | .sourceDebugExtension => ∃ bytes, data = .sourceDebugExtension bytes
    | .lineNumberTable => ∃ lines, data = .lineNumberTable lines
    | .localVariables types => ∃ table, data = .localVariables types table
    | .annotations visibility => ∃ values, data = .annotations visibility values
    | .parameterAnnotations visibility =>
      ∃ parameters, data = .parameterAnnotations visibility parameters
    | .typeAnnotations visibility => ∃ values, data = .typeAnnotations visibility values
    | .annotationDefault => ∃ value, data = .annotationDefault value
    | .bootstrapMethods => ∃ methods, data = .bootstrapMethods methods
    | .methodParameters => ∃ parameters, data = .methodParameters parameters
    | .moduleInfo => ∃ info, data = .moduleInfo info
    | .record => ∃ components, data = .record components := by
  cases data with
  | unknown bytes => cases h
  | marker which =>
    cases h
    rfl
  | enclosingMethod classIndex methodIndex =>
    cases h
    exact ⟨_, _, rfl⟩
  | _ =>
    cases h
    exact ⟨_, rfl⟩

section Bodies

variable {nested : Reader AttributeInfo} {valid : AttributeInfo → Prop}
  (h : nested.Exact (.of AttributeInfo.encode valid))

include h

theorem attributes_exact : (Reader.list 2 nested).Exact (.of encodeAttributes fun infos =>
    infos.length < 256 ^ 2 ∧ ∀ info ∈ infos, valid info) :=
  (h.list 2).congr (by simp [encodeAttributes, encodeInfos_eq])

theorem code_exact : (Code.readWith nested).Exact (.of (fun body => encode (.code body)) fun body =>
    OwnFits (.code body) ∧ ∀ info ∈ body.attributes, valid info) := by
  refine (Reader.Exact.u16.field (Q := fun _ => True) Code.maxStack fun maxStack _ =>
    Reader.Exact.u16.field Code.maxLocals fun maxLocals _ =>
      (Reader.Exact.number 4).field (fun body => body.code.length) fun size _ =>
        ((Reader.Exact.take size).within _).field Code.code fun code hsize =>
          (handlerTable_lawful.read.within _).field Code.handlers fun handlers _ =>
            (attributes_exact h).field Code.attributes fun attributes _ =>
              .done fun body => ?_).congr fun bytes body => ?_
  · cases body
    grind
  · obtain ⟨maxStack, maxLocals, code, handlers, attributes⟩ := body
    rw [Format.of_iff, Format.of_iff, encode, OwnFits]
    simp only [encodeAttributes, id, List.append_assoc, List.append_nil]
    grind

theorem component_exact : (RecordComponent.readWith nested).Exact
    (.of encodeComponent fun component => component.attributes.length < 256 ^ 2 ∧
      ∀ info ∈ component.attributes, valid info) := by
  refine (Reader.Exact.u16.field (Q := fun _ => True) RecordComponent.nameIndex fun nameIndex _ =>
    Reader.Exact.u16.field RecordComponent.descriptorIndex fun descriptorIndex _ =>
      (attributes_exact h).field RecordComponent.attributes fun attributes _ =>
        .done fun component => ?_).congr fun bytes component => ?_
  · cases component
    simp [and_assoc]
  · simp [encodeComponent]

theorem components_exact : (Reader.list 2 (RecordComponent.readWith nested)).Exact
    (.of (fun components => encode (.record components)) fun components =>
      OwnFits (.record components) ∧
        ∀ info ∈ components.flatMap (·.attributes), valid info) := by
  refine ((component_exact h).list 2).congr fun bytes components => ?_
  simp only [Format.of_iff, encode, encodeComponents_eq, OwnFits, List.forall_mem_flatMap]
  grind

end Bodies

theorem form_covers {α : Type} {reader : Reader α} {format : α → Bytes} {P : α → Prop}
    {make : α → Attribute} {kind : Kind} {valid : AttributeInfo → Prop}
    (h : reader.Exact (.of format P))
    (hmake : ∀ a, (make a).encode = format a ∧ (make a).kind? = some kind ∧
      ((make a).Fits valid ↔ P a))
    (honly : ∀ data, data.kind? = some kind → ∃ a, data = make a) :
    Reader.Covers (do return make (← reader)) (.of encode fun data =>
      data.kind? = some kind ∧ data.Fits valid) := by
  refine Reader.Exact.covers (h.variant (fun a => ?_) fun data hdata => honly data hdata.1)
  obtain ⟨hencode, hkind, hfits⟩ := hmake a
  exact ⟨hencode, by rw [hkind, hfits]; simp⟩

theorem table_covers {α : Type} {layout : Layout α} {make : α → Attribute} {kind : Kind}
    {valid : AttributeInfo → Prop} (h : layout.Lawful)
    (hmake : ∀ a, (make a).encode = layout.encode a ∧ (make a).kind? = some kind ∧
      ((make a).Fits valid ↔ layout.check a = .ok ()))
    (honly : ∀ data, data.kind? = some kind → ∃ a, data = make a) :
    Reader.Covers (do return make (← layout.read)) (.of encode fun data =>
      data.kind? = some kind ∧ data.Fits valid) :=
  form_covers (h.read.congr (by simp)) hmake honly

/-- A body with no element values and no attributes has nothing but itself to fit. -/
theorem fits_iff_ownFits {data : Attribute} {valid : AttributeInfo → Prop}
    (hvalues : data.values = []) (htargeted : data.targeted = []) (hnested : data.nested = []) :
    data.Fits valid ↔ data.OwnFits := by
  simp [Fits, hvalues, htargeted, hnested, AllReadable]

theorem readKind_covers {nested : Reader AttributeInfo} {valid : AttributeInfo → Prop}
    (h : nested.Exact (.of AttributeInfo.encode valid)) (kind : Kind) :
    (readKind nested kind).Covers (.of encode fun data =>
      data.kind? = some kind ∧ data.Fits valid) := by
  cases kind with
  | marker which =>
    refine (Reader.Exact.pure (marker which)).covers.congr fun bytes data => ?_
    constructor
    · rintro ⟨rfl, rfl⟩
      exact ⟨rfl, rfl, (fits_iff_ownFits rfl rfl rfl).2 trivial⟩
    · rintro ⟨rfl, hkind, -⟩
      have hdata : data = .marker which := kind?_eq_some hkind
      rw [hdata]
      exact ⟨rfl, rfl⟩
  | index role =>
    exact form_covers Reader.Exact.u16 (fun _ => ⟨rfl, rfl, fits_iff_ownFits rfl rfl rfl⟩)
      fun _ => kind?_eq_some
  | enclosingMethod =>
    refine Reader.Exact.covers (Reader.Exact.u16.variant₂ Reader.Exact.u16 (fun a b => ⟨rfl, ?_⟩)
      fun data hdata => kind?_eq_some hdata.1)
    rw [fits_iff_ownFits rfl rfl rfl]
    simp [kind?, OwnFits]
  | sourceDebugExtension =>
    -- takes all that is left: it covers its input, but is not exact in front of a rest
    refine (Reader.Covers.takeRest sourceDebugExtension).congr fun bytes data => ?_
    constructor
    · rintro rfl
      exact ⟨rfl, rfl, (fits_iff_ownFits rfl rfl rfl).2 trivial⟩
    · rintro ⟨rfl, hkind, -⟩
      obtain ⟨bytes, rfl⟩ := kind?_eq_some hkind
      rfl
  | indices role =>
    exact table_covers indexList_lawful (fun _ => ⟨rfl, rfl, fits_iff_ownFits rfl rfl rfl⟩)
      fun _ => kind?_eq_some
  | stackMapTable =>
    exact table_covers frameTable_lawful (fun _ => ⟨rfl, rfl, fits_iff_ownFits rfl rfl rfl⟩)
      fun _ => kind?_eq_some
  | innerClasses =>
    exact table_covers innerClassTable_lawful (fun _ => ⟨rfl, rfl, fits_iff_ownFits rfl rfl rfl⟩)
      fun _ => kind?_eq_some
  | lineNumberTable =>
    exact table_covers lineTable_lawful (fun _ => ⟨rfl, rfl, fits_iff_ownFits rfl rfl rfl⟩)
      fun _ => kind?_eq_some
  | localVariables types =>
    exact table_covers variableTable_lawful (fun _ => ⟨rfl, rfl, fits_iff_ownFits rfl rfl rfl⟩)
      fun _ => kind?_eq_some
  | bootstrapMethods =>
    exact table_covers bootstrapTable_lawful (fun _ => ⟨rfl, rfl, fits_iff_ownFits rfl rfl rfl⟩)
      fun _ => kind?_eq_some
  | methodParameters =>
    exact table_covers parameterTable_lawful (fun _ => ⟨rfl, rfl, fits_iff_ownFits rfl rfl rfl⟩)
      fun _ => kind?_eq_some
  | moduleInfo =>
    exact table_covers ModuleInfo.lawful (fun _ => ⟨rfl, rfl, fits_iff_ownFits rfl rfl rfl⟩)
      fun _ => kind?_eq_some
  | annotations visibility =>
    refine form_covers annotationList_lawful.read (fun a => ⟨rfl, rfl, ?_⟩) fun _ => kind?_eq_some
    simp [Fits, OwnFits, values, targeted, Attribute.nested]
  | parameterAnnotations visibility =>
    refine form_covers parameterList_lawful.read (fun a => ⟨rfl, rfl, ?_⟩) fun _ => kind?_eq_some
    simp [Fits, OwnFits, values, targeted, Attribute.nested]
  | annotationDefault =>
    refine form_covers ElementValue.lawful.read (fun a => ⟨rfl, rfl, ?_⟩) fun _ => kind?_eq_some
    simp [Fits, OwnFits, values, targeted, Attribute.nested, ElementValue.layout]
  | typeAnnotations visibility =>
    refine form_covers typeAnnotationList_lawful.read (fun a => ⟨rfl, rfl, ?_⟩)
      fun _ => kind?_eq_some
    simp [Fits, OwnFits, values, targeted, Attribute.nested, and_comm]
  -- from here on the bodies hold attributes, of which `h` says how they are read
  | code =>
    refine form_covers (code_exact h) (fun a => ⟨rfl, rfl, ?_⟩) fun _ => kind?_eq_some
    simp [Fits, values, targeted, Attribute.nested, AllReadable]
  | record =>
    refine form_covers (components_exact h) (fun a => ⟨rfl, rfl, ?_⟩) fun _ => kind?_eq_some
    simp [Fits, values, targeted, Attribute.nested, AllReadable]

theorem unknown_covers (event : Event) {valid : AttributeInfo → Prop} :
    Reader.Covers (do Reader.record event; return .unknown (← Reader.takeRest))
      (.of encode fun data => data.kind? = none ∧ data.Fits valid) := by
  refine (Reader.Covers.bind_of (Reader.Exact.record event) fun _ _ _ =>
    Reader.Covers.takeRest unknown).congr fun bytes data => ?_
  constructor
  · rintro ⟨_, _, ⟨rfl, -⟩, _, rfl, rfl⟩
    exact ⟨rfl, rfl, (fits_iff_ownFits rfl rfl rfl).2 trivial⟩
  · rintro ⟨rfl, hkind, -⟩
    obtain ⟨bytes, rfl⟩ := kind?_eq_none.1 hkind
    exact ⟨(), [], ⟨rfl, trivial⟩, bytes, rfl, rfl⟩

theorem readNamed_covers {nested : Reader AttributeInfo} {valid : AttributeInfo → Prop}
    (h : nested.Exact (.of AttributeInfo.encode valid)) (name : String) :
    (readNamed nested name).Covers (.of encode fun data =>
      data.NamedBy (.ok name) ∧ data.Fits valid) := by
  simp only [namedBy_ok]
  unfold readNamed
  cases hname : Kind.ofName? name with
  | some kind => exact readKind_covers h kind
  | none => exact unknown_covers (.unknownAttribute name)

end Attribute

namespace AttributeInfo

open Attribute ElementValue

theorem readBody_covers {nested : Reader AttributeInfo} {valid : AttributeInfo → Prop}
    (h : nested.Exact (.of encode valid)) (length : UInt32) (name : Except Unresolved String) :
    (readBody nested length name).Covers (.of Attribute.encode fun data =>
      data.NamedBy name ∧ data.Fits valid) := by
  cases name with
  | ok name =>
    refine (Reader.Covers.bind_of (Reader.Exact.record (.attribute name length)) fun _ _ _ =>
      (readNamed_covers h name).within (.readingAttribute name)).congr fun bytes data => ?_
    constructor
    · rintro ⟨_, _, ⟨rfl, -⟩, _, ⟨rfl, hdata⟩, rfl⟩
      exact ⟨rfl, hdata⟩
    · rintro ⟨rfl, hdata⟩
      exact ⟨(), [], ⟨rfl, trivial⟩, _, ⟨rfl, hdata⟩, rfl⟩
  | error unresolved =>
    simp only [namedBy_error]
    exact unknown_covers (.unusableName unresolved)

theorem rest_of_readBody_error {nested : Reader AttributeInfo} {length : UInt32}
    {unresolved : Unresolved} {c c' : Cursor} {data : Attribute}
    (h : readBody nested length (.error unresolved) c = .ok data c') : c'.rest = [] := by
  obtain ⟨_, _, -, hret⟩ := Reader.bind_eq_ok.1 h
  obtain ⟨_, _, htake, hpure⟩ := Reader.bind_eq_ok.1 hret
  cases htake
  cases hpure
  rfl

theorem checkUsedUp_of_end (name : Except Unresolved String) (length : UInt32) {body : Cursor}
    (h : body.rest = []) : checkUsedUp name length body = pure () := by
  cases name <;> simp [checkUsedUp, h]

theorem checkUsedUp_of_left (name : String) (length : UInt32) {body : Cursor}
    (h : body.rest ≠ []) : ∃ failure, checkUsedUp (.ok name) length body = Reader.fail failure :=
  ⟨_, by simp [checkUsedUp, h]; rfl⟩

/-- Attributes that are written and read back with `budget` for attributes around each other. -/
def Readable (pool : Pool) : (budget : Nat) → AttributeInfo → Prop
  | 0, _ => False
  | budget + 1, info => info.declaredLength.toNat = info.data.length ∧
    info.data.NamedBy (pool.utf8 info.nameIndex) ∧ info.data.Fits (Readable pool budget)

theorem readWithin_exact (pool : Pool) (budget : Nat) :
    (readWithin pool budget).Exact (.of encode (Readable pool budget)) := by
  induction budget with
  | zero =>
    -- nothing is read, and nothing is readable
    constructor
    · intro c info c' hok
      cases hok
    · rintro bytes info c rest ⟨-, hfalse⟩
      exact hfalse.elim
    · rintro bytes info c missing ⟨-, hfalse⟩
      exact hfalse.elim
  | succ budget ih =>
    -- the body is read by a cursor of its own, over as many bytes as the header declares
    refine (Reader.Exact.u16.bind fun nameIndex => Reader.Exact.u32.bind fun length =>
      (readBody_covers ih length (pool.utf8 nameIndex)).inside length.toNat
        (fun data => ⟨nameIndex, length, data⟩) ?_ ?_).congr fun bytes info => ?_
    · intro data body hend
      change (checkUsedUp (pool.utf8 nameIndex) length body >>= _) = _
      rw [checkUsedUp_of_end _ _ hend, pure_bind]
    · intro c data body hok hleft
      cases hname : pool.utf8 nameIndex with
      | ok name =>
        obtain ⟨failure, hfail⟩ := checkUsedUp_of_left name length hleft
        refine ⟨failure, ?_⟩
        change (checkUsedUp (.ok name) length body >>= _) = _
        rw [hfail]
        rfl
      | error unresolved =>
        -- bytes left are not refused here, but there are none
        rw [hname] at hok
        exact absurd (rest_of_readBody_error hok) hleft
    · obtain ⟨nameIndex, declared, data⟩ := info
      rw [Format.of_iff, Readable, encode]
      constructor
      · rintro ⟨_, _, ⟨rfl, -⟩, _, ⟨_, _, ⟨rfl, -⟩, _, ⟨_, ⟨rfl, hname, hfits⟩, hlength, heq⟩, rfl⟩,
          rfl⟩
        cases heq
        rw [Attribute.length_encode] at hlength
        exact ⟨by simp, hlength.symm, hname, hfits⟩
      · rintro ⟨rfl, hlength, hname, hfits⟩
        rw [← Attribute.length_encode] at hlength
        exact ⟨_, _, ⟨rfl, trivial⟩, _, ⟨_, _, ⟨rfl, trivial⟩, _, ⟨_, ⟨rfl, hname, hfits⟩,
          hlength.symm, rfl⟩, rfl⟩, by simp⟩

/-- What makes an attribute the one that is read from its bytes: it goes by its own name, and its
element values and type annotations are such as reading gives. -/
structure Canonical (pool : Pool) (info : AttributeInfo) : Prop where
  name : info.data.NamedBy (pool.utf8 info.nameIndex)
  values : AllReadable info.data.values
  targets : ∀ a ∈ info.data.targeted, a.HasOwnTarget

instance (pool : Pool) (info : AttributeInfo) : Decidable (info.Canonical pool) :=
  decidable_of_iff (info.data.NamedBy (pool.utf8 info.nameIndex) ∧ AllReadable info.data.values ∧
    ∀ a ∈ info.data.targeted, a.HasOwnTarget)
    ⟨fun ⟨hname, hvalues, htargets⟩ => ⟨hname, hvalues, htargets⟩,
      fun ⟨hname, hvalues, htargets⟩ => ⟨hname, hvalues, htargets⟩⟩

theorem readable_iff {pool : Pool} {budget : Nat} {info : AttributeInfo}
    (h : info.length ≤ budget) :
    Readable pool budget info ↔ info.check = .ok () ∧ ∀ i ∈ info.all, i.Canonical pool := by
  induction budget generalizing info with
  | zero =>
    rw [length] at h
    omega
  | succ budget ih =>
    -- what is nested is shorter, so the smaller budget is enough for it
    have hinner (inner : AttributeInfo) (hmem : inner ∈ info.data.nested) :
        Readable pool budget inner ↔ inner.check = .ok () ∧ ∀ i ∈ inner.all, i.Canonical pool := by
      have hlt := length_nested_lt hmem
      exact ih (by omega)
    rw [Readable, check_eq_ok, forall_mem_all, Attribute.Fits]
    constructor
    · rintro ⟨hlength, hname, hown, hvalues, htargets, hnested⟩
      have hboth (inner : AttributeInfo) (hmem : inner ∈ info.data.nested) :=
        (hinner inner hmem).1 (hnested inner hmem)
      exact ⟨⟨hlength, hown, fun inner hmem => (hboth inner hmem).1⟩, ⟨hname, hvalues, htargets⟩,
        fun inner hmem => (hboth inner hmem).2⟩
    · rintro ⟨⟨hlength, hown, hchecks⟩, ⟨hname, hvalues, htargets⟩, hall⟩
      exact ⟨hlength, hname, hown, hvalues, htargets, fun inner hmem =>
        (hinner inner hmem).2 ⟨hchecks inner hmem, hall inner hmem⟩⟩

end AttributeInfo

end ClassFormat
