import ClassFormat.Proofs.Attribute.Writable
import ClassFormat.Proofs.Class.RoundTrip
import ClassFormat.Proofs.Pool.Slots

namespace ClassFormat

namespace Pool

theorem mem_map_entries {pool : Pool} {entry : Entry} :
    entry ∈ pool.entries.map (·.2) ↔ some entry ∈ pool.slots := by
  rw [entries_map_snd, List.mem_filterMap]
  simp

theorem check_eq_ok {pool : Pool} :
    pool.check = .ok () ↔ pool.slots.size ≤ 65535 ∧
      ∀ bytes text, some (.utf8 bytes text) ∈ pool.slots → bytes.length ≤ 65535 := by
  have hentries : (∀ e ∈ pool.entries, e.2.check = .ok ()) ↔
      ∀ bytes text, some (.utf8 bytes text) ∈ pool.slots → bytes.length ≤ 65535 := by
    constructor
    · intro h bytes text hmem
      obtain ⟨e, he, heq⟩ := List.mem_map.1 (mem_map_entries.2 hmem)
      exact (Entry.check_eq_ok e.2).1 (h e he) bytes text heq
    · intro h e he
      refine (Entry.check_eq_ok e.2).2 fun bytes text heq => h bytes text ?_
      rw [← heq]
      exact mem_map_entries.1 (List.mem_map_of_mem he)
  rw [check, check_then_eq_ok, inContext_eq_ok, checkCount16_eq_ok, lt_two_bytes_iff,
    List.forM_eq_forM, forM_eq_ok]
  simp only [inContext_eq_ok, hentries]

theorem failsBy {allowed : Cause → Prop} (h : ∀ flaw, allowed (.malformed flaw)) (pool : Pool) :
    FailsBy allowed pool.check := by
  refine .bind (.inContext (.checkCount h _ _) _) fun _ => .forM fun e _ => .inContext ?_ _
  cases e.2 with
  | utf8 bytes text => exact .inContext (.checkCount h _ _) _
  | _ => exact .ok ()

end Pool

theorem Member.checkTable_failsBy {allowed : Cause → Prop} (h : ∀ flaw, allowed (.malformed flaw))
    {table : MemberTable} {members : List Member}
    (hmembers : ∀ member ∈ members, ∀ info ∈ member.attributes, FailsBy allowed info.check) :
    FailsBy allowed (checkTable table members) := by
  refine .bind (.inContext (.checkCount h _ _) _) fun _ => .forM fun m hm => .inContext ?_ _
  -- members are checked with their numbers, for the context of a failure
  have hmem : m.1 ∈ members := by
    have := List.mem_map_of_mem (f := Prod.fst) hm
    simpa using this
  exact checkAttributes_failsBy h (hmembers m.1 hmem)

namespace ClassFile

/-- What writing asks of a class file. -/
structure Writable (c : ClassFile) : Prop where
  slots : c.pool.slots.size ≤ 65535
  texts : ∀ bytes text, some (.utf8 bytes text) ∈ c.pool.slots → bytes.length ≤ 65535
  interfaces : c.interfaces.length ≤ 65535
  fields : c.fields.length ≤ 65535
  methods : c.methods.length ≤ 65535
  memberTables : ∀ member ∈ c.fields ++ c.methods, member.attributes.length ≤ 65535
  classTable : c.attributes.length ≤ 65535
  attributes : ∀ info ∈ c.allAttributes, info.Writable

theorem check_eq_ok_iff_writable (c : ClassFile) : c.check = .ok () ↔ c.Writable := by
  have hall : (∀ info ∈ c.allAttributes, info.Writable) ↔
      ∀ info ∈ c.topAttributes, info.check = .ok () := by
    simp only [allAttributes, List.forall_mem_flatMap, AttributeInfo.check_eq_ok_iff_writable]
  simp only [topAttributes, List.forall_mem_append, List.forall_mem_flatMap] at hall
  simp only [check, check_then_eq_ok, inContext_eq_ok, Pool.check_eq_ok, indexList_check_eq_ok,
    Member.checkTable_eq_ok, Member.check, checkAttributes_eq_ok, lt_two_bytes_iff]
  constructor
  · intro h
    obtain ⟨⟨hslots, htexts⟩, hinterfaces, ⟨hfields, hfield⟩, ⟨hmethods, hmethod⟩, hclass,
      hinfos⟩ := h
    refine ⟨hslots, htexts, hinterfaces, hfields, hmethods, ?_, hclass, ?_⟩
    · exact List.forall_mem_append.2 ⟨fun m hm => (hfield m hm).1, fun m hm => (hmethod m hm).1⟩
    · exact hall.2 ⟨⟨fun m hm => (hfield m hm).2, fun m hm => (hmethod m hm).2⟩, hinfos⟩
  · intro h
    obtain ⟨hslots, htexts, hinterfaces, hfields, hmethods, htables, hclass, hattributes⟩ := h
    obtain ⟨hfieldTables, hmethodTables⟩ := List.forall_mem_append.1 htables
    obtain ⟨⟨hfield, hmethod⟩, hinfos⟩ := hall.1 hattributes
    exact ⟨⟨hslots, htexts⟩, hinterfaces,
      ⟨hfields, fun m hm => ⟨hfieldTables m hm, hfield m hm⟩⟩,
      ⟨hmethods, fun m hm => ⟨hmethodTables m hm, hmethod m hm⟩⟩, hclass, hinfos⟩

theorem check_failsBy {allowed : Cause → Prop} (h : ∀ flaw, allowed (.malformed flaw))
    (c : ClassFile)
    (hmismatch : ∀ info ∈ c.allAttributes, ∀ cause, info.Mismatch cause → allowed cause) :
    FailsBy allowed c.check := by
  have hinfos : ∀ info ∈ c.topAttributes, FailsBy allowed info.check := fun info hmem =>
    info.check_failsBy h fun i hi => hmismatch i (List.mem_flatMap.2 ⟨info, hmem, hi⟩)
  rw [topAttributes, List.forall_mem_append, List.forall_mem_append, List.forall_mem_flatMap,
    List.forall_mem_flatMap] at hinfos
  obtain ⟨⟨hfields, hmethods⟩, hattributes⟩ := hinfos
  exact .bind (.inContext (c.pool.failsBy h) _) fun _ =>
    .bind (.inContext (indexList_failsBy h _) _) fun _ =>
    .bind (Member.checkTable_failsBy h hfields) fun _ =>
    .bind (Member.checkTable_failsBy h hmethods) fun _ =>
    .inContext (checkAttributes_failsBy h hattributes) _

/-- A class file is written exactly if it is writable. Otherwise it is malformed, or one of its
attributes declares a length that is not that of its data. -/
theorem write_ok_iff_writable :
    (∀ c : ClassFile, (∃ bytes, c.write = .ok bytes) ↔ c.Writable) ∧
    ∀ (c : ClassFile) (failure : Failure), c.write = .error failure →
      (∃ flaw, failure.cause = .malformed flaw) ∨
      ∃ info ∈ c.allAttributes, info.Mismatch failure.cause := by
  constructor
  · intro c
    rw [← check_eq_ok_iff_writable]
    constructor
    · intro ⟨bytes, hwrite⟩
      exact (write_eq_ok.1 hwrite).1
    · intro hcheck
      exact ⟨c.encode, write_eq_ok.2 ⟨hcheck, rfl⟩⟩
  · intro c failure hfailure
    have hcheck : FailsBy (fun cause => (∃ flaw, cause = .malformed flaw) ∨
        ∃ info ∈ c.allAttributes, info.Mismatch cause) c.check :=
      c.check_failsBy (fun flaw => .inl ⟨flaw, rfl⟩) fun info hmem cause hcause =>
        .inr ⟨info, hmem, hcause⟩
    exact hcheck.bind (fun _ => .ok c.encode) failure hfailure

/-- A class with one method, whose code has a stack map of one frame for which it declares some
length. -/
def framed (declared : UInt32) (frame : StackMapFrame) : ClassFile where
  methods :=
    [⟨0, 0, 0, [⟨0, 24, .code ⟨0, 0, [0xb1], [], [⟨0, declared, .stackMapTable [frame]⟩]⟩⟩]⟩]

theorem write_ok_iff_writable_framed :
    (framed 5 (.chop 2 0)).Writable ∧ ¬(framed 5 (.chop 4 0)).Writable ∧
    ∃ failure, (framed 6 (.chop 2 0)).write = .error failure ∧
      ((∃ flaw, failure.cause = .malformed flaw) ∨
        ∃ info ∈ (framed 6 (.chop 2 0)).allAttributes, info.Mismatch failure.cause) := by
  refine ⟨?_, ?_, ?_⟩
  · apply (write_ok_iff_writable.1 _).1
    exact ⟨(framed 5 (.chop 2 0)).encode, rfl⟩
  · intro h
    obtain ⟨bytes, hbytes⟩ := (write_ok_iff_writable.1 _).2 h
    cases hbytes
  · exact ⟨_, rfl, write_ok_iff_writable.2 _ _ rfl⟩

end ClassFile

end ClassFormat
