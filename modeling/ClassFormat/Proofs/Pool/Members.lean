import ClassFormat.Pool.Describe
import ClassFormat.Proofs.Pool.Interning

namespace ClassFormat

namespace Pool

variable {pool later last : Pool} {index : UInt16} {owner name descriptor : String}

/-- What a lookup finds in `pool` it also finds in `later`. -/
structure KeptIn (pool later : Pool) : Prop where
  get {index : UInt16} {entry : Entry} : pool.get index = .ok entry → later.get index = .ok entry
  utf8 {index : UInt16} {text : String} : pool.utf8 index = .ok text → later.utf8 index = .ok text
  utf8Bytes {index : UInt16} {bytes : Bytes} :
    pool.utf8Bytes index = .ok bytes → later.utf8Bytes index = .ok bytes
  className {index : UInt16} {name : String} :
    pool.className index = .ok name → later.className index = .ok name
  nameAndType {index : UInt16} {both : String × String} :
    pool.nameAndType index = .ok both → later.nameAndType index = .ok both
  name {index : UInt16} {name : String} : pool.name index = .ok name → later.name index = .ok name

theorem utf8_eq_ok {text : String} :
    pool.utf8 index = .ok text ↔ ∃ bytes, pool.get index = .ok (.utf8 bytes text) := by
  unfold utf8
  cases pool.get index with
  | error _ => simp [bind, Except.bind]
  | ok entry => cases entry <;> simp [bind, Except.bind, wrongKind]

theorem className_eq_ok :
    pool.className index = .ok name ↔
      ∃ nameIndex, pool.get index = .ok (.classRef nameIndex) ∧ pool.utf8 nameIndex = .ok name := by
  unfold className
  cases pool.get index with
  | error _ => simp [bind, Except.bind]
  | ok entry => cases entry <;> simp [bind, Except.bind, wrongKind]

theorem nameAndType_eq_ok :
    pool.nameAndType index = .ok (name, descriptor) ↔ ∃ nameIndex descriptorIndex,
      pool.get index = .ok (.nameAndType nameIndex descriptorIndex) ∧
        pool.utf8 nameIndex = .ok name ∧ pool.utf8 descriptorIndex = .ok descriptor := by
  unfold nameAndType
  cases pool.get index with
  | error _ => simp [bind, Except.bind]
  | ok entry =>
    cases entry with
    | nameAndType nameIndex descriptorIndex =>
      cases hname : pool.utf8 nameIndex with
      | error _ => simp [bind, Except.bind, hname]
      | ok first =>
        cases hdescriptor : pool.utf8 descriptorIndex <;>
          simp [bind, Except.bind, pure, Except.pure, hname, hdescriptor]
    | _ => simp [bind, Except.bind, wrongKind]

theorem Extends.keptIn {valid : Entry → Prop} (h : pool.Extends valid later) :
    pool.KeptIn later := by
  have hutf8 {index : UInt16} {text : String} (hold : pool.utf8 index = .ok text) :
      later.utf8 index = .ok text := by
    obtain ⟨bytes, hget⟩ := utf8_eq_ok.1 hold
    exact utf8_eq_ok.2 ⟨bytes, h.get_eq_ok hget⟩
  refine ⟨h.get_eq_ok, hutf8, ?_, ?_, ?_, ?_⟩
  · intro index bytes hold
    -- `utf8Bytes` and `name` look at the entry itself; the other lookups are made of kept ones
    unfold utf8Bytes at hold ⊢
    cases hget : pool.get index with
    | error _ =>
      rw [hget] at hold
      cases hold
    | ok entry =>
      rw [hget] at hold
      rw [h.get_eq_ok hget]
      exact hold
  · intro index name hold
    obtain ⟨nameIndex, hget, hname⟩ := className_eq_ok.1 hold
    exact className_eq_ok.2 ⟨nameIndex, h.get_eq_ok hget, hutf8 hname⟩
  · rintro index ⟨name, descriptor⟩ hold
    obtain ⟨nameIndex, descriptorIndex, hget, hname, hdescriptor⟩ := nameAndType_eq_ok.1 hold
    exact nameAndType_eq_ok.2
      ⟨nameIndex, descriptorIndex, h.get_eq_ok hget, hutf8 hname, hutf8 hdescriptor⟩
  · intro index name hold
    unfold Pool.name at hold ⊢
    cases hget : pool.get index with
    | error _ =>
      rw [hget] at hold
      cases hold
    | ok entry =>
      rw [hget] at hold
      rw [h.get_eq_ok hget]
      cases entry with
      | utf8 _ _ => exact hold
      | classRef _ | stringRef _ | nameAndType _ _ | methodType _ | moduleRef _ | packageRef _ =>
        exact hutf8 hold
      | _ => cases hold

/-- Behind the slots of `pool` come, in their order, those of the `planned` entries that it does not
have, each of them once. -/
def Gains (planned : List Entry) (pool later : Pool) : Prop :=
  ∃ added, added.Sublist planned ∧ added.Nodup ∧ (∀ entry ∈ added, some entry ∉ pool.slots) ∧
    later.slots.toList = pool.slots.toList ++ spread added

namespace Gains

variable {planned more : List Entry}

theorem refl (pool : Pool) : pool.Gains [] pool :=
  ⟨[], List.Sublist.refl [], List.nodup_nil, by simp, by simp [spread]⟩

theorem trans (h : pool.Gains planned later) (h' : later.Gains more last) :
    pool.Gains (planned ++ more) last := by
  obtain ⟨added, hsub, hnodup, hfresh, hslots⟩ := h
  obtain ⟨added', hsub', hnodup', hfresh', hslots'⟩ := h'
  have hmem (entry : Entry) :
      some entry ∈ later.slots ↔ some entry ∈ pool.slots ∨ entry ∈ added := by
    rw [← Array.mem_toList_iff, hslots, List.mem_append, mem_spread, Array.mem_toList_iff]
  simp only [hmem, not_or] at hfresh'
  refine ⟨added ++ added', hsub.append hsub', ?_, ?_, ?_⟩
  · apply List.nodup_append.2 ⟨hnodup, hnodup', _⟩
    rintro entry hadded _ hadded' rfl
    exact (hfresh' entry hadded').2 hadded
  · exact List.forall_mem_append.2 ⟨hfresh, fun entry hadded' => (hfresh' entry hadded').1⟩
  · rw [hslots', hslots, spread_append, List.append_assoc]

theorem toExtends (h : pool.Gains planned later) : pool.Extends (fun _ => True) later := by
  obtain ⟨added, -, -, -, hslots⟩ := h
  exact ⟨added, hslots, fun _ _ => trivial⟩

theorem intern {entry : Entry} (h : Pool.intern entry pool = .ok index later) :
    pool.Gains [entry] later := by
  rcases found_or_added h with ⟨-, rfl⟩ | ⟨hfound, -, rfl⟩
  · exact ⟨[], List.nil_sublist _, List.nodup_nil, by simp, by simp [spread]⟩
  · refine ⟨[entry], List.Sublist.refl _, List.pairwise_singleton _ entry, ?_,
      toList_push pool entry⟩
    simpa using indexOf?_eq_none_iff_mem.1 hfound

end Gains

/-- A class is found at `index`, by the place where its name is found. -/
def HasClass (pool : Pool) (name : String) (index : UInt16) : Prop :=
  ∃ nameIndex, pool.indexOf? (.ofText name) = some nameIndex ∧
    pool.indexOf? (.classRef nameIndex) = some index

/-- A name with a descriptor is found at `index`, by the places where both are found. -/
def HasNameAndType (pool : Pool) (name descriptor : String) (index : UInt16) : Prop :=
  ∃ nameIndex descriptorIndex, pool.indexOf? (.ofText name) = some nameIndex ∧
    pool.indexOf? (.ofText descriptor) = some descriptorIndex ∧
    pool.indexOf? (.nameAndType nameIndex descriptorIndex) = some index

theorem HasClass.mono {valid : Entry → Prop} (h : pool.HasClass name index)
    (hlater : pool.Extends valid later) : later.HasClass name index := by
  obtain ⟨nameIndex, hname, hclass⟩ := h
  exact ⟨nameIndex, hlater.indexOf?_eq hname, hlater.indexOf?_eq hclass⟩

theorem HasNameAndType.mono {valid : Entry → Prop} (h : pool.HasNameAndType name descriptor index)
    (hlater : pool.Extends valid later) : later.HasNameAndType name descriptor index := by
  obtain ⟨nameIndex, descriptorIndex, hname, hdescriptor, hboth⟩ := h
  exact ⟨nameIndex, descriptorIndex, hlater.indexOf?_eq hname, hlater.indexOf?_eq hdescriptor,
    hlater.indexOf?_eq hboth⟩

theorem HasClass.addClass_eq (h : pool.HasClass name index) :
    addClass name pool = .ok index pool := by
  obtain ⟨nameIndex, hname, hclass⟩ := h
  exact bind_eq_ok.2 ⟨nameIndex, pool, intern_of_some hname, intern_of_some hclass⟩

theorem HasNameAndType.addNameAndType_eq (h : pool.HasNameAndType name descriptor index) :
    addNameAndType name descriptor pool = .ok index pool := by
  obtain ⟨nameIndex, descriptorIndex, hname, hdescriptor, hboth⟩ := h
  exact bind_eq_ok.2 ⟨nameIndex, pool, intern_of_some hname, bind_eq_ok.2
    ⟨descriptorIndex, pool, intern_of_some hdescriptor, intern_of_some hboth⟩⟩

section Small

variable (hsize : pool.slots.size ≤ maxSlots)

include hsize

theorem utf8_of_indexOf? {text : String} (h : pool.indexOf? (.ofText text) = some index) :
    pool.utf8 index = .ok text :=
  utf8_eq_ok.2 ⟨_, ((indexOf?_eq_some hsize).1 h).1⟩

theorem HasClass.className_eq (h : pool.HasClass name index) :
    pool.className index = .ok name := by
  obtain ⟨nameIndex, hname, hclass⟩ := h
  exact className_eq_ok.2
    ⟨nameIndex, ((indexOf?_eq_some hsize).1 hclass).1, utf8_of_indexOf? hsize hname⟩

theorem HasNameAndType.nameAndType_eq (h : pool.HasNameAndType name descriptor index) :
    pool.nameAndType index = .ok (name, descriptor) := by
  obtain ⟨nameIndex, descriptorIndex, hname, hdescriptor, hboth⟩ := h
  exact nameAndType_eq_ok.2 ⟨nameIndex, descriptorIndex, ((indexOf?_eq_some hsize).1 hboth).1,
    utf8_of_indexOf? hsize hname, utf8_of_indexOf? hsize hdescriptor⟩

end Small

theorem addClass_of_ok (h : addClass name pool = .ok index later) :
    ∃ nameIndex, later.indexOf? (.ofText name) = some nameIndex ∧
      later.indexOf? (.classRef nameIndex) = some index ∧
      pool.Gains [.ofText name, .classRef nameIndex] later := by
  obtain ⟨nameIndex, before, hname, hclass⟩ := bind_eq_ok.1 h
  have hgains := Gains.intern hclass
  exact ⟨nameIndex, hgains.toExtends.indexOf?_eq (indexOf?_of_intern hname),
    indexOf?_of_intern hclass, (Gains.intern hname).trans hgains⟩

theorem addClass_of_error {failure : Failure} (h : addClass name pool = .error failure later) :
    ∃ planned, planned <+: [.ofText name] ∧ pool.Gains planned later := by
  rcases bind_eq_error.1 h with hname | ⟨nameIndex, before, hname, hclass⟩
  · rw [eq_of_intern_error hname]
    exact ⟨[], List.nil_prefix, .refl pool⟩
  · rw [eq_of_intern_error hclass]
    exact ⟨_, List.prefix_rfl, .intern hname⟩

theorem addNameAndType_of_ok (h : addNameAndType name descriptor pool = .ok index later) :
    ∃ nameIndex descriptorIndex, later.indexOf? (.ofText name) = some nameIndex ∧
      later.indexOf? (.ofText descriptor) = some descriptorIndex ∧
      later.indexOf? (.nameAndType nameIndex descriptorIndex) = some index ∧
      pool.Gains [.ofText name, .ofText descriptor, .nameAndType nameIndex descriptorIndex]
        later := by
  obtain ⟨nameIndex, first, hname, hrest⟩ := bind_eq_ok.1 h
  obtain ⟨descriptorIndex, second, hdescriptor, hboth⟩ := bind_eq_ok.1 hrest
  have hgains := Gains.intern hboth
  have hgains' := (Gains.intern hdescriptor).trans hgains
  exact ⟨nameIndex, descriptorIndex, hgains'.toExtends.indexOf?_eq (indexOf?_of_intern hname),
    hgains.toExtends.indexOf?_eq (indexOf?_of_intern hdescriptor), indexOf?_of_intern hboth,
    (Gains.intern hname).trans hgains'⟩

theorem addNameAndType_of_error {failure : Failure}
    (h : addNameAndType name descriptor pool = .error failure later) :
    ∃ planned, planned <+: [.ofText name, .ofText descriptor] ∧ pool.Gains planned later := by
  rcases bind_eq_error.1 h with hname | ⟨nameIndex, first, hname, hrest⟩
  · rw [eq_of_intern_error hname]
    exact ⟨[], List.nil_prefix, .refl pool⟩
  · rcases bind_eq_error.1 hrest with hdescriptor | ⟨descriptorIndex, second, hdescriptor, hboth⟩
    · rw [eq_of_intern_error hdescriptor]
      exact ⟨[.ofText name], ⟨[.ofText descriptor], rfl⟩, .intern hname⟩
    · rw [eq_of_intern_error hboth]
      exact ⟨_, List.prefix_rfl, (Gains.intern hname).trans (.intern hdescriptor)⟩

/-- The entries that a member refers to, in the order of the steps that add them. The owner is found
at the first of the indices, the name and the descriptor at the others. -/
def memberParts (owner name descriptor : String) (ownerIndex nameIndex descriptorIndex : UInt16) :
    List Entry :=
  [.ofText owner, .classRef ownerIndex, .ofText name, .ofText descriptor,
    .nameAndType nameIndex descriptorIndex]

theorem addMember_of_ok {kind : MemberKind}
    (h : addMember kind owner name descriptor pool = .ok index later) :
    (∃ classIndex nameAndTypeIndex, later.HasClass owner classIndex ∧
      later.HasNameAndType name descriptor nameAndTypeIndex ∧
      later.indexOf? (.memberRef kind classIndex nameAndTypeIndex) = some index) ∧
    pool.Extends (fun _ => True) later := by
  obtain ⟨classIndex, first, hclass, hrest⟩ := bind_eq_ok.1 h
  obtain ⟨nameAndTypeIndex, second, hboth, hmember⟩ := bind_eq_ok.1 hrest
  obtain ⟨ownerIndex, howner, hfound, hgains⟩ := addClass_of_ok hclass
  obtain ⟨nameIndex, descriptorIndex, hname, hdescriptor, hfound', hgains'⟩ :=
    addNameAndType_of_ok hboth
  have hlast := (Gains.intern hmember).toExtends
  have hrest := hgains'.toExtends.trans hlast
  refine ⟨⟨classIndex, nameAndTypeIndex, ?_, ?_, indexOf?_of_intern hmember⟩,
    hgains.toExtends.trans hrest⟩
  · exact HasClass.mono ⟨ownerIndex, howner, hfound⟩ hrest
  · exact HasNameAndType.mono ⟨nameIndex, descriptorIndex, hname, hdescriptor, hfound'⟩ hlast

/-- What adding a member does if it fails: it goes through the first of the steps, the `planned`
ones. A reference among them is to the places where its texts are found. -/
def BeginsMember (owner name descriptor : String) (pool later : Pool) : Prop :=
  ∃ ownerIndex nameIndex descriptorIndex planned,
    planned <+: memberParts owner name descriptor ownerIndex nameIndex descriptorIndex ∧
    (.classRef ownerIndex ∈ planned → later.indexOf? (.ofText owner) = some ownerIndex) ∧
    (.nameAndType nameIndex descriptorIndex ∈ planned →
      later.indexOf? (.ofText name) = some nameIndex ∧
        later.indexOf? (.ofText descriptor) = some descriptorIndex) ∧
    pool.Gains planned later

theorem BeginsMember.toExtends (h : BeginsMember owner name descriptor pool later) :
    pool.Extends (fun _ => True) later := by
  obtain ⟨_, _, _, planned, -, -, -, hgains⟩ := h
  exact hgains.toExtends

theorem addMember_of_error {kind : MemberKind} {failure : Failure}
    (h : addMember kind owner name descriptor pool = .error failure later) :
    BeginsMember owner name descriptor pool later := by
  rcases bind_eq_error.1 h with hclass | ⟨classIndex, first, hclass, hrest⟩
  · obtain ⟨planned, hplanned, hgains⟩ := addClass_of_error hclass
    -- no reference is among the steps, so any indices will do
    have htexts (entry : Entry) (hmem : entry ∈ planned) : entry = .ofText owner := by
      simpa using hplanned.subset hmem
    refine ⟨0, 0, 0, planned, hplanned.trans ⟨_, rfl⟩, ?_, ?_, hgains⟩
    · intro hmem
      cases htexts _ hmem
    · intro hmem
      cases htexts _ hmem
  · obtain ⟨ownerIndex, howner, -, hgains⟩ := addClass_of_ok hclass
    rcases bind_eq_error.1 hrest with hboth | ⟨nameAndTypeIndex, second, hboth, hmember⟩
    · obtain ⟨planned, hplanned, hgains'⟩ := addNameAndType_of_error hboth
      -- the owner is there with its class, and of the name and the descriptor what came first
      have hparts : [.ofText owner, .classRef ownerIndex] ++ planned <+:
          memberParts owner name descriptor ownerIndex 0 0 :=
        ((List.prefix_append_right_inj _).2 hplanned).trans ⟨_, rfl⟩
      refine ⟨ownerIndex, 0, 0, _, hparts, ?_, ?_, hgains.trans hgains'⟩
      · exact fun _ => hgains'.toExtends.indexOf?_eq howner
      · intro hmem
        have htexts : Entry.nameAndType 0 0 ∈ planned := by simpa [Entry.ofText] using hmem
        have := hplanned.subset htexts
        simp [Entry.ofText] at this
    · rw [eq_of_intern_error hmember]
      obtain ⟨nameIndex, descriptorIndex, hname, hdescriptor, -, hgains'⟩ :=
        addNameAndType_of_ok hboth
      exact ⟨ownerIndex, nameIndex, descriptorIndex, _, List.prefix_rfl,
        fun _ => hgains'.toExtends.indexOf?_eq howner, fun _ => ⟨hname, hdescriptor⟩,
        hgains.trans hgains'⟩

theorem describe_memberRef {kind : MemberKind} {classIndex nameAndTypeIndex : UInt16}
    (hget : pool.get index = .ok (.memberRef kind classIndex nameAndTypeIndex))
    (hclass : pool.className classIndex = .ok owner)
    (hboth : pool.nameAndType nameAndTypeIndex = .ok (name, descriptor)) :
    pool.describe index = .ok (owner ++ "." ++ name ++ ":" ++ descriptor) := by
  unfold describe
  rw [hget]
  change Entry.describeWithin pool pool.slots.size _ = _
  rw [Entry.describeWithin, hclass, hboth]
  rfl

/-- A member that was added resolves to what was asked for, and is found by asking again. If there
is no room for all of it, the parts that came first are added. Either way no lookup that found
something finds anything else. -/
theorem addMember_of_reachable {pool : Pool} (h : pool.Reachable) (kind : MemberKind)
    (owner name descriptor : String) :
    (∀ index later, addMember kind owner name descriptor pool = .ok index later →
      (∃ classIndex nameAndTypeIndex,
        later.get index = .ok (.memberRef kind classIndex nameAndTypeIndex) ∧
        later.className classIndex = .ok owner ∧
        later.nameAndType nameAndTypeIndex = .ok (name, descriptor)) ∧
      later.describe index = .ok (owner ++ "." ++ name ++ ":" ++ descriptor) ∧
      addMember kind owner name descriptor later = .ok index later ∧
      pool.KeptIn later) ∧
    ∀ failure later, addMember kind owner name descriptor pool = .error failure later →
      BeginsMember owner name descriptor pool later ∧ pool.KeptIn later := by
  constructor
  · intro index later hadd
    obtain ⟨⟨classIndex, nameAndTypeIndex, hclass, hboth, hmember⟩, hextends⟩ :=
      addMember_of_ok hadd
    have hlater : later.Reachable :=
      after_of_ok hadd ▸ h.add (.member kind owner name descriptor)
    have hget := ((indexOf?_eq_some hlater.size_le).1 hmember).1
    have howner := hclass.className_eq hlater.size_le
    have hnames := hboth.nameAndType_eq hlater.size_le
    refine ⟨⟨classIndex, nameAndTypeIndex, hget, howner, hnames⟩,
      describe_memberRef hget howner hnames, ?_, hextends.keptIn⟩
    -- asked again, each step finds its entry and leaves the pool as it is
    apply bind_eq_ok.2 ⟨classIndex, later, hclass.addClass_eq, _⟩
    exact bind_eq_ok.2 ⟨nameAndTypeIndex, later, hboth.addNameAndType_eq, intern_of_some hmember⟩
  · intro failure later hadd
    have hbegins := addMember_of_error hadd
    exact ⟨hbegins, hbegins.toExtends.keptIn⟩

/-- A method whose name is that of its class, behind a number with two slots; and one whose class
name takes the last slot of a pool. -/
theorem addMember_of_reachable_numberBeforeText :
    (numberBeforeText.Reachable ∧ ∃ index later,
      addMember .method "a" "a" "()V" numberBeforeText = .ok index later ∧
      later.describe index = .ok "a.a:()V" ∧
      addMember .method "a" "a" "()V" later = .ok index later ∧
      later.get 1 = .ok (.long 7)) ∧
    (crowd 65533).Reachable ∧ ∃ failure later,
      addMember .method "a" "a" "()V" (crowd 65533) = .error failure later ∧
      BeginsMember "a" "a" "()V" (crowd 65533) later ∧ later.get 1 = .ok (.integer 0) := by
  constructor
  · have hreachable : numberBeforeText.Reachable := .add (.utf8 "a") (.add (.long 7) .empty)
    have hnumber : numberBeforeText.get 1 = .ok (.long 7) := get_eq_ok.2 (by decide +kernel)
    have hok : (match addMember .method "a" "a" "()V" numberBeforeText with
      | .ok _ _ => true
      | .error _ _ => false) = true := by decide +kernel
    cases hadd : addMember .method "a" "a" "()V" numberBeforeText with
    | ok index later =>
      obtain ⟨-, hdescribe, hagain, hkept⟩ :=
        (addMember_of_reachable hreachable .method "a" "a" "()V").1 index later hadd
      exact ⟨hreachable, index, later, rfl, hdescribe, hagain, hkept.get hnumber⟩
    | error failure later =>
      rw [hadd] at hok
      cases hok
  · have hreachable : (crowd 65533).Reachable := reachable_crowd (by decide)
    have hname : (crowd 65533).indexOf? (.ofText "a") = none :=
      (indexOf?_eq_none hreachable.size_le).2 fun index hget => by cases eq_of_get_crowd hget
    have hnamed := intern_of_none hname (by rw [size_crowd]; decide)
    have hclass : ((crowd 65533).push (.ofText "a")).indexOf? (.classRef (crowd 65533).count) =
        none := by
      rw [indexOf?_eq_none_iff_mem, ← Array.mem_toList_iff, toList_push, List.mem_append,
        slots_crowd, List.mem_cons, mem_spread, List.mem_replicate, mem_spread]
      simp [Entry.ofText]
    have hrefused := intern_of_full hclass (by rw [size_push, size_crowd]; decide)
    have hadd : addMember .method "a" "a" "()V" (crowd 65533) = .error _ _ :=
      bind_eq_error.2 (.inl (bind_eq_error.2 (.inr ⟨_, _, hnamed, hrefused⟩)))
    obtain ⟨hbegins, hkept⟩ :=
      (addMember_of_reachable hreachable .method "a" "a" "()V").2 _ _ hadd
    exact ⟨hreachable, _, _, hadd, hbegins, hkept.get (get_crowd 65532)⟩

end Pool

end ClassFormat
