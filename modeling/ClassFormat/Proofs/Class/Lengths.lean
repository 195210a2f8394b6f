import ClassFormat.Proofs.Attribute.Lengths
import ClassFormat.Proofs.Class.Writable

namespace ClassFormat

namespace Member

def withoutLengths (member : Member) : Member :=
  { member with attributes := Attribute.infosWithoutLengths member.attributes }

end Member

namespace ClassFile

def withoutLengths (c : ClassFile) : ClassFile :=
  { c with
    fields := c.fields.map (·.withoutLengths)
    methods := c.methods.map (·.withoutLengths)
    attributes := Attribute.infosWithoutLengths c.attributes }

theorem update_eq_self {member : Member}
    (h : ∀ info ∈ member.attributes, info.checkLength = .ok ()) :
    updateLengths.update member = .ok member := by
  rw [updateLengths.update, Attribute.updateLengths_eq_self _ (Attribute.checkLengths_eq_ok.2 h)]
  rfl

theorem of_update {member updated : Member} (h : updateLengths.update member = .ok updated) :
    updated.withoutLengths = member.withoutLengths ∧
      Attribute.checkLengths updated.attributes = .ok () ∧
      ∀ info ∈ Attribute.insideInfos member.attributes, info.data.length ≤ 0xffffffff := by
  rw [updateLengths.update, except_bind_eq_ok] at h
  obtain ⟨infos, hinfos, hmember⟩ := h
  cases hmember
  obtain ⟨hsame, hcheck, hfit⟩ := Attribute.of_updateLengths member.attributes hinfos
  refine ⟨?_, hcheck, hfit⟩
  rw [Member.withoutLengths, Member.withoutLengths, hsame]

theorem of_update_all {members updated : List Member}
    (h : members.mapM updateLengths.update = .ok updated) :
    updated.map (·.withoutLengths) = members.map (·.withoutLengths) ∧
      (∀ member ∈ updated, Attribute.checkLengths member.attributes = .ok ()) ∧
      ∀ member ∈ members, ∀ info ∈ Attribute.insideInfos member.attributes,
        info.data.length ≤ 0xffffffff := by
  induction members generalizing updated with
  | nil =>
    cases h
    simp
  | cons member members ih =>
    simp only [List.mapM_cons, except_bind_eq_ok] at h
    obtain ⟨first, hfirst, rest, hrest, hcons⟩ := h
    cases hcons
    obtain ⟨hsame, hcheck, hfit⟩ := of_update hfirst
    obtain ⟨hsameRest, hcheckRest, hfitRest⟩ := ih hrest
    rw [List.map_cons, List.map_cons, hsame, hsameRest, List.forall_mem_cons, List.forall_mem_cons]
    exact ⟨rfl, ⟨hcheck, hcheckRest⟩, hfit, hfitRest⟩

theorem exists_update_all {members : List Member}
    (h : ∀ member ∈ members, ∀ info ∈ Attribute.insideInfos member.attributes,
      info.data.length ≤ 0xffffffff) :
    ∃ updated, members.mapM updateLengths.update = .ok updated := by
  induction members with
  | nil => exact ⟨[], rfl⟩
  | cons member members ih =>
    obtain ⟨hfirst, hrest⟩ := List.forall_mem_cons.1 h
    obtain ⟨infos, hinfos⟩ := Attribute.exists_updateLengths member.attributes hfirst
    obtain ⟨updated, hupdated⟩ := ih hrest
    refine ⟨{ member with attributes := infos } :: updated, ?_⟩
    rw [List.mapM_cons, updateLengths.update, hinfos, hupdated]
    rfl

theorem forall_mem_allAttributes {c : ClassFile} {P : AttributeInfo → Prop} :
    (∀ info ∈ c.allAttributes, P info) ↔
      ((∀ member ∈ c.fields, ∀ info ∈ Attribute.insideInfos member.attributes, P info) ∧
        ∀ member ∈ c.methods, ∀ info ∈ Attribute.insideInfos member.attributes, P info) ∧
        ∀ info ∈ Attribute.insideInfos c.attributes, P info := by
  simp only [allAttributes, topAttributes, Attribute.insideInfos_eq, List.forall_mem_flatMap,
    List.forall_mem_append]

theorem checkLengths_eq_ok {c : ClassFile} :
    c.checkLengths = .ok () ↔
      ∀ info ∈ c.allAttributes, info.declaredLength.toNat = info.data.length := by
  simp only [checkLengths, Attribute.checkLengths_eq_ok, AttributeInfo.checkLength_iff_all,
    allAttributes, List.forall_mem_flatMap]

theorem checkLengths_iff_tables {c : ClassFile} : c.checkLengths = .ok () ↔
    ((∀ member ∈ c.fields, Attribute.checkLengths member.attributes = .ok ()) ∧
      ∀ member ∈ c.methods, Attribute.checkLengths member.attributes = .ok ()) ∧
      Attribute.checkLengths c.attributes = .ok () := by
  simp only [checkLengths, topAttributes, Attribute.checkLengths_eq_ok, List.forall_mem_append,
    List.forall_mem_flatMap]

theorem updateLengths_eq_self {c : ClassFile} (h : c.checkLengths = .ok ()) :
    c.updateLengths = .ok c := by
  obtain ⟨⟨hfields, hmethods⟩, hattributes⟩ := checkLengths_iff_tables.1 h
  have hupdate {members : List Member}
      (hmembers : ∀ member ∈ members, Attribute.checkLengths member.attributes = .ok ()) :
      members.mapM updateLengths.update = .ok members :=
    mapM_eq_self fun member hmem =>
      update_eq_self (Attribute.checkLengths_eq_ok.1 (hmembers member hmem))
  rw [updateLengths, hupdate hfields, hupdate hmethods,
    Attribute.updateLengths_eq_self c.attributes hattributes]
  rfl

theorem of_updateLengths {c d : ClassFile} (h : c.updateLengths = .ok d) :
    d.withoutLengths = c.withoutLengths ∧ d.checkLengths = .ok () ∧
      ∀ info ∈ c.allAttributes, info.data.length ≤ 0xffffffff := by
  simp only [updateLengths, except_bind_eq_ok] at h
  obtain ⟨fields, hfields, methods, hmethods, attributes, hattributes, hd⟩ := h
  cases hd
  obtain ⟨hsameF, hcheckF, hfitF⟩ := of_update_all hfields
  obtain ⟨hsameM, hcheckM, hfitM⟩ := of_update_all hmethods
  obtain ⟨hsameA, hcheckA, hfitA⟩ := Attribute.of_updateLengths c.attributes hattributes
  refine ⟨?_, ?_, ?_⟩
  · simp only [withoutLengths, hsameF, hsameM, hsameA]
  · exact checkLengths_iff_tables.2 ⟨⟨hcheckF, hcheckM⟩, hcheckA⟩
  · exact forall_mem_allAttributes.2 ⟨⟨hfitF, hfitM⟩, hfitA⟩

theorem exists_updateLengths {c : ClassFile}
    (h : ∀ info ∈ c.allAttributes, info.data.length ≤ 0xffffffff) :
    ∃ d, c.updateLengths = .ok d := by
  obtain ⟨⟨hfields, hmethods⟩, hattributes⟩ := forall_mem_allAttributes.1 h
  obtain ⟨fields, hfields⟩ := exists_update_all hfields
  obtain ⟨methods, hmethods⟩ := exists_update_all hmethods
  obtain ⟨attributes, hattributes⟩ := Attribute.exists_updateLengths c.attributes hattributes
  refine ⟨{ c with fields, methods, attributes }, ?_⟩
  rw [updateLengths, hfields, hmethods, hattributes]
  rfl

theorem write_failsBy_of_checkLengths {c : ClassFile} (h : c.checkLengths = .ok ()) :
    FailsBy (∃ flaw, · = .malformed flaw) c.write := by
  have hcheck : FailsBy (∃ flaw, · = .malformed flaw) c.check := by
    refine c.check_failsBy (fun flaw => ⟨flaw, rfl⟩) ?_
    -- a mismatch would be of a length that was found right
    intro info hmem cause ⟨computed, hcomputed, hne, _⟩
    have hdeclared := checkLengths_eq_ok.1 h info hmem
    have heq : info.declaredLength = computed := by
      rw [← UInt32.toNat_inj, hdeclared, hcomputed]
    exact absurd heq hne
  exact hcheck.bind fun _ => .ok c.encode

/-- Recomputing declared lengths succeeds exactly if all of them fit. It changes nothing else, and
makes them all true: checking finds them so, a second time changes nothing, and writing does not
fail for a length. Checking passes exactly if recomputing has nothing to change. -/
theorem lengths_of_updateLengths :
    (∀ c : ClassFile, (∃ d, c.updateLengths = .ok d) ↔
      ∀ info ∈ c.allAttributes, info.data.length ≤ 0xffffffff) ∧
    (∀ c d : ClassFile, c.updateLengths = .ok d → d.withoutLengths = c.withoutLengths ∧
      d.checkLengths = .ok () ∧ d.updateLengths = .ok d ∧
      ∀ failure, d.write = .error failure →
        ∀ label declared computed, failure.cause ≠ .lengthMismatch label declared computed) ∧
    ∀ c : ClassFile, c.checkLengths = .ok () ↔ c.updateLengths = .ok c := by
  refine ⟨?_, ?_, ?_⟩
  · intro c
    exact ⟨fun ⟨d, hd⟩ => (of_updateLengths hd).2.2, exists_updateLengths⟩
  · intro c d h
    obtain ⟨hsame, hcheck, -⟩ := of_updateLengths h
    refine ⟨hsame, hcheck, updateLengths_eq_self hcheck, ?_⟩
    intro failure hfailure label declared computed hcause
    obtain ⟨flaw, hflaw⟩ := write_failsBy_of_checkLengths hcheck failure hfailure
    rw [hcause] at hflaw
    cases hflaw
  · intro c
    exact ⟨updateLengths_eq_self, fun h => (of_updateLengths h).2.1⟩

/-- The stack map in a code declares nine bytes where it has five. -/
theorem lengths_of_updateLengths_framed :
    (framed 9 (.chop 2 0)).checkLengths ≠ .ok () ∧
    (framed 9 (.chop 2 0)).updateLengths = .ok (framed 5 (.chop 2 0)) ∧
    (framed 5 (.chop 2 0)).checkLengths = .ok () ∧
    (framed 5 (.chop 2 0)).updateLengths = .ok (framed 5 (.chop 2 0)) := by
  have hupdate : (framed 9 (.chop 2 0)).updateLengths = .ok (framed 5 (.chop 2 0)) := rfl
  obtain ⟨-, hcheck, hagain, -⟩ := lengths_of_updateLengths.2.1 _ _ hupdate
  refine ⟨?_, hupdate, hcheck, hagain⟩
  intro h
  cases h

end ClassFile

end ClassFormat
