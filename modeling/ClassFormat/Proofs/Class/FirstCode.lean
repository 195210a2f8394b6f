import ClassFormat.Class.Basic

namespace ClassFormat

/-- Attribute `i` is the first `Code` attribute. -/
structure FirstCode (infos : List AttributeInfo) (i : Nat) (info : AttributeInfo) (code : Code) :
    Prop where
  get : infos[i]? = some info
  data : info.data = .code code
  before : ∀ j < i, ∀ other, infos[j]? = some other → other.data.code? = none

theorem Attribute.code?_eq_some {data : Attribute} {code : Code} :
    data.code? = some code ↔ data = .code code := by
  cases data <;> simp [code?]

theorem set_of_getElem? {α : Type} {as : List α} {i : Nat} {a : α} (h : as[i]? = some a) :
    as.set i a = as := by
  obtain ⟨hlt, rfl⟩ := List.getElem?_eq_some_iff.1 h
  exact List.set_getElem_self hlt

namespace FirstCode

variable {infos : List AttributeInfo} {i : Nat} {info : AttributeInfo} {code : Code}

theorem setFirstCode_eq (h : FirstCode infos i info code) (code' : Code) :
    Member.setFirstCode code' infos =
      infos.set i ⟨info.nameIndex, info.declaredLength, .code code'⟩ := by
  obtain ⟨hget, hdata, hbefore⟩ := h
  induction infos generalizing i with
  | nil => simp at hget
  | cons first infos ih =>
    cases i with
    | zero =>
      cases hget
      simp [Member.setFirstCode, hdata]
    | succ i =>
      have hfirst : first.data.code? = none := hbefore 0 (by omega) first rfl
      -- behind an attribute without code, the index is one less
      have hrest := ih hget fun j hj other hother => hbefore (j + 1) (by omega) other hother
      rw [Member.setFirstCode, hrest, List.set_cons_succ]
      split
      · rename_i hcode
        rw [hcode] at hfirst
        cases hfirst
      · rfl

theorem findSome?_eq (h : FirstCode infos i info code) :
    infos.findSome? (·.data.code?) = some code := by
  obtain ⟨hget, hdata, hbefore⟩ := h
  induction infos generalizing i with
  | nil => simp at hget
  | cons first infos ih =>
    cases i with
    | zero =>
      cases hget
      rw [List.findSome?_cons, hdata]
      rfl
    | succ i =>
      have hfirst : first.data.code? = none := hbefore 0 (by omega) first rfl
      have hrest := ih hget fun j hj other hother => hbefore (j + 1) (by omega) other hother
      rw [List.findSome?_cons, hfirst, hrest]

theorem set (h : FirstCode infos i info code) {info' : AttributeInfo} {code' : Code}
    (hdata : info'.data = .code code') : FirstCode (infos.set i info') i info' code' := by
  have hlt : i < infos.length := (List.getElem?_eq_some_iff.1 h.get).1
  refine ⟨List.getElem?_set_self hlt, hdata, ?_⟩
  intro j hj other hother
  rw [List.getElem?_set_ne (by omega)] at hother
  exact h.before j hj other hother

end FirstCode

namespace Member

variable {member : Member} {code : Code}

theorem exists_firstCode (h : member.code? = some code) :
    ∃ i info, FirstCode member.attributes i info code := by
  obtain ⟨before, info, after, hsplit, hcode, hbefore⟩ := List.findSome?_eq_some_iff.1 h
  refine ⟨before.length, info, by simp [hsplit], Attribute.code?_eq_some.1 hcode, ?_⟩
  intro j hj other hother
  rw [hsplit, List.getElem?_append_left hj] at hother
  exact hbefore other (List.mem_of_getElem? hother)

theorem code?_eq_some :
    member.code? = some code ↔ ∃ i info, FirstCode member.attributes i info code := by
  refine ⟨exists_firstCode, ?_⟩
  rintro ⟨i, info, hfirst⟩
  exact hfirst.findSome?_eq

theorem setCode_self (h : member.code? = some code) : member.setCode code = member := by
  obtain ⟨i, info, hfirst⟩ := exists_firstCode h
  have hinfo : (⟨info.nameIndex, info.declaredLength, .code code⟩ : AttributeInfo) = info := by
    rw [← hfirst.data]
    cases info
    rfl
  rw [setCode, hfirst.setFirstCode_eq, hinfo, set_of_getElem? hfirst.get]

end Member

end ClassFormat
