import ClassFormat.Proofs.Class.FirstCode
import ClassFormat.Proofs.Class.Lengths
import ClassFormat.Proofs.Instruction.Sizes
import Mathlib.Data.List.Basic

namespace ClassFormat

theorem forall_mem_set {α : Type} {P : α → Prop} {as : List α} {b : α} (h : ∀ a ∈ as, P a)
    (hb : P b) (i : Nat) : ∀ a ∈ as.set i b, P a := by
  intro a ha
  rcases List.mem_or_eq_of_mem_set ha with hold | rfl
  · exact h a hold
  · exact hb

namespace AttributeInfo

variable {info : AttributeInfo} {code : Code} {array : Bytes} {declared : UInt32}

theorem updateLength_setCode (hdata : info.data = .code code) (h : info.checkLength = .ok ())
    (hdeclared : declared.toNat = (Attribute.code { code with code := array }).length)
    (stale : UInt32) :
    updateLength ⟨info.nameIndex, stale, .code { code with code := array }⟩ =
      .ok ⟨info.nameIndex, declared, .code { code with code := array }⟩ := by
  have hnested : info.data.checkNested = .ok () := (check_then_eq_ok.1 h).1
  rw [hdata, Attribute.checkNested_eq_ok] at hnested
  have hsame : (Attribute.code { code with code := array }).checkNested = .ok () :=
    Attribute.checkNested_eq_ok.2 hnested
  exact updateLength_of_nested (Attribute.updateNested_eq_self _ hsame) hdeclared

theorem check_setCode (hdata : info.data = .code code) (h : info.check = .ok ())
    (hdeclared : declared.toNat = (Attribute.code { code with code := array }).length) :
    check ⟨info.nameIndex, declared, .code { code with code := array }⟩ = .ok () := by
  obtain ⟨-, hown, hnested⟩ := check_eq_ok.1 h
  rw [hdata] at hown hnested
  obtain ⟨-, hhandlers, hattributes⟩ := hown
  have hlength : 8 + array.length ≤ (Attribute.code { code with code := array }).length := by
    rw [Attribute.length]
    omega
  have hlt := declared.toNat_lt
  have harray : array.length < 256 ^ 4 := by omega
  exact check_eq_ok.2 ⟨hdeclared, ⟨harray, hhandlers, hattributes⟩, hnested⟩

theorem canonical_setCode {pool : Pool} (hdata : info.data = .code code)
    (h : ∀ i ∈ info.all, i.Canonical pool) (array : Bytes) (declared : UInt32) :
    ∀ i ∈ all ⟨info.nameIndex, declared, .code { code with code := array }⟩,
      i.Canonical pool := by
  obtain ⟨hself, hnested⟩ := forall_mem_all.1 h
  have hname := hself.name
  rw [hdata] at hname hnested
  have hvalues : ElementValue.AllReadable (Attribute.code { code with code := array }).values := by
    simp [Attribute.values, ElementValue.AllReadable]
  have htargets : ∀ a ∈ (Attribute.code { code with code := array }).targeted, a.HasOwnTarget := by
    simp [Attribute.targeted]
  exact forall_mem_all.2 ⟨⟨hname, hvalues, htargets⟩, hnested⟩

end AttributeInfo

namespace Member

def setAttribute (member : Member) (i : Nat) (info : AttributeInfo) : Member :=
  { member with attributes := member.attributes.set i info }

variable {member : Member} {info : AttributeInfo}

theorem check_setAttribute (h : member.check = .ok ()) (hinfo : info.check = .ok ()) (i : Nat) :
    (member.setAttribute i info).check = .ok () := by
  rw [check, checkAttributes_eq_ok] at h ⊢
  obtain ⟨hcount, hinfos⟩ := h
  exact ⟨by rwa [setAttribute, List.length_set], forall_mem_set hinfos hinfo i⟩

end Member

namespace ClassFile

def setMethod (c : ClassFile) (k : Nat) (method : Member) : ClassFile :=
  { c with methods := c.methods.set k method }

variable {c : ClassFile} {method : Member}

theorem check_setMethod (h : c.check = .ok ()) (hmethod : method.check = .ok ()) (k : Nat) :
    (c.setMethod k method).check = .ok () := by
  simp only [check, setMethod, check_then_eq_ok, inContext_eq_ok, Member.checkTable_eq_ok] at h ⊢
  obtain ⟨hpool, hinterfaces, hfields, ⟨hcount, hmethods⟩, hattributes⟩ := h
  exact ⟨hpool, hinterfaces, hfields,
    ⟨by rwa [List.length_set], forall_mem_set hmethods hmethod k⟩, hattributes⟩

theorem Canonical.setMethod (h : c.Canonical)
    (hmethod : ∀ info ∈ method.attributes, ∀ i ∈ info.all, i.Canonical c.pool) (k : Nat) :
    (c.setMethod k method).Canonical := by
  refine ⟨h.texts, ?_⟩
  have hall := h.attributes
  simp only [allAttributes, topAttributes, List.forall_mem_flatMap,
    List.forall_mem_append] at hall ⊢
  obtain ⟨⟨hfields, hmethods⟩, hattributes⟩ := hall
  exact ⟨⟨hfields, forall_mem_set hmethods hmethod k⟩, hattributes⟩

theorem check_of_mem_methods (h : c.check = .ok ()) (hmem : method ∈ c.methods) :
    method.check = .ok () := by
  simp only [check, check_then_eq_ok, Member.checkTable_eq_ok] at h
  obtain ⟨-, -, -, ⟨-, hmethods⟩, -⟩ := h
  exact hmethods method hmem

theorem Canonical.of_mem_methods (h : c.Canonical) (hmem : method ∈ c.methods) :
    ∀ info ∈ method.attributes, ∀ i ∈ info.all, i.Canonical c.pool := by
  have hall := h.attributes
  simp only [allAttributes, topAttributes, List.forall_mem_flatMap, List.forall_mem_append] at hall
  exact hall.1.2 method hmem

/-- Where all declared lengths were true, recomputing them changes no more than the new method. -/
theorem updateLengths_setMethod {stale : Member} (h : c.checkLengths = .ok ())
    (hmethod : updateLengths.update stale = .ok method) (k : Nat) :
    (c.setMethod k stale).updateLengths = .ok (c.setMethod k method) := by
  rw [checkLengths, Attribute.checkLengths_eq_ok, topAttributes, List.forall_mem_append,
    List.forall_mem_append, List.forall_mem_flatMap, List.forall_mem_flatMap] at h
  obtain ⟨⟨hfields, hmethods⟩, hattributes⟩ := h
  have hsame : c.fields.mapM updateLengths.update = .ok c.fields :=
    mapM_eq_self fun member hmember => update_eq_self (hfields member hmember)
  have hset : (c.methods.set k stale).mapM updateLengths.update = .ok (c.methods.set k method) :=
    mapM_set (fun member hmember => update_eq_self (hmethods member hmember)) hmethod k
  have hinfos : Attribute.updateLengths c.attributes = .ok c.attributes :=
    Attribute.updateLengths_eq_self _ (Attribute.checkLengths_eq_ok.2 hattributes)
  simp only [updateLengths, setMethod, hsame, hset, hinfos, bind, Except.bind]
  rfl

variable {k : Nat} {code : Code} {xs : List Instruction} {array : Bytes}

theorem setInstructions_of_ok (h : Instruction.encode xs = .ok array) :
    Code.setInstructions xs code = .ok () { code with code := array } := by
  unfold Code.setInstructions
  rw [h]
  rfl

theorem setInstructions_of_error {failure : Failure} (h : Instruction.encode xs = .error failure) :
    Code.setInstructions xs code = .error failure code := by
  unfold Code.setInstructions
  rw [h]
  rfl

theorem editCode_eq {α : Type} (hmethod : c.methods[k]? = some method)
    (hcode : method.code? = some code) (edit : EStateM Failure Code α) :
    editCode k edit c = match edit code with
      | .ok a code => .ok (some a) (c.setMethod k (method.setCode code))
      | .error failure code => .error failure (c.setMethod k (method.setCode code)) := by
  have hmodify (code : Code) :
      c.methods.modify k (·.setCode code) = c.methods.set k (method.setCode code) := by
    simp [List.modify_eq_set_getElem?, hmethod]
  have hbind : (c.methods[k]?).bind (·.code?) = some code := by
    rw [hmethod, Option.bind_some, hcode]
  simp only [editCode, hbind, hmodify]
  cases edit code <;> rfl

/-- What decoding makes of instructions that were encoded: the same ones, each where the sizes of
those before it add up to. -/
theorem instructions_of_encode (h : Instruction.encode xs = .ok array)
    (hlt : array.length < 2 ^ 32) :
    ∃ ys, Code.instructions { code with code := array } = .ok ys ∧
      ys.map Instruction.contents = xs.map Instruction.contents ∧
      ∀ (i : Nat) (y : Instruction), ys[i]? = some y →
        y.offset.toNat = Instruction.totalSize (ys.take i) := by
  obtain ⟨ys, hstream, hcontents⟩ := (Instruction.encode_eq_ok.1 h).decoded
  refine ⟨ys, Instruction.decode_eq_ok.2 ⟨hlt, hstream⟩, hcontents, ?_⟩
  intro i y hy
  rw [hstream.offset_eq_totalSize (by omega) hy, Nat.zero_add]

/-- The class `d` is the class `c`, but for the code array of the first `Code` attribute of a method
and for the length that this attribute declares, which is the true one. -/
def PatchedAt (c : ClassFile) (k : Nat) (array : Bytes) (d : ClassFile) : Prop :=
  ∃ method i info code declared, c.methods[k]? = some method ∧
    FirstCode method.attributes i info code ∧
    declared.toNat = (Attribute.code { code with code := array }).length ∧
    d = c.setMethod k
      (method.setAttribute i ⟨info.nameIndex, declared, .code { code with code := array }⟩)

theorem PatchedAt.read_write {d : ClassFile} (h : c.PatchedAt k array d) (hcheck : c.check = .ok ())
    (hwell : c.pool.WellFormed) (hcanonical : c.Canonical) :
    d.write = .ok d.encode ∧ read d.encode = .ok d := by
  obtain ⟨method, i, info, code, declared, hmethod, hfirst, hdeclared, rfl⟩ := h
  have hmem : method ∈ c.methods := List.mem_of_getElem? hmethod
  have hinfo : info ∈ method.attributes := List.mem_of_getElem? hfirst.get
  have hmethodCheck : method.check = .ok () := check_of_mem_methods hcheck hmem
  have hinfoCheck : info.check = .ok () := (checkAttributes_eq_ok.1 hmethodCheck).2 info hinfo
  have hcodeCheck := AttributeInfo.check_setCode hfirst.data hinfoCheck hdeclared
  -- what was asked of the old attribute holds of the new one, and nothing else has changed
  have hcheck' := check_setMethod hcheck (Member.check_setAttribute hmethodCheck hcodeCheck i) k
  have hinfos := hcanonical.of_mem_methods hmem
  have hcode := AttributeInfo.canonical_setCode hfirst.data (hinfos info hinfo) array declared
  exact ⟨write_eq_ok.2 ⟨hcheck', rfl⟩, read_eq_ok.2
    ⟨rfl, hcheck', hwell, hcanonical.setMethod (forall_mem_set hinfos hcode i) k⟩⟩

/-- The edit leaves the declared length as it was; recomputing lengths makes it true. -/
theorem update_setCode {i : Nat} {info : AttributeInfo} {declared : UInt32}
    (h : ∀ info ∈ method.attributes, info.checkLength = .ok ())
    (hfirst : FirstCode method.attributes i info code)
    (hdeclared : declared.toNat = (Attribute.code { code with code := array }).length) :
    updateLengths.update (method.setCode { code with code := array }) =
      .ok (method.setAttribute i
        ⟨info.nameIndex, declared, .code { code with code := array }⟩) := by
  have hinfo : info.checkLength = .ok () := h info (List.mem_of_getElem? hfirst.get)
  have hupdate :=
    AttributeInfo.updateLength_setCode hfirst.data hinfo hdeclared info.declaredLength
  have hinfos :=
    mapM_set (fun other hother => other.updateLength_eq_self (h other hother)) hupdate i
  rw [updateLengths.update, Member.setCode, hfirst.setFirstCode_eq,
    Attribute.updateLengths_eq_mapM, hinfos]
  rfl

theorem updateLengths_setCode (hcheck : c.check = .ok ()) (hmethod : c.methods[k]? = some method)
    (hcode : method.code? = some code)
    (hlength : (Attribute.code { code with code := array }).length ≤ 0xffffffff) :
    ∃ d, (c.setMethod k (method.setCode { code with code := array })).updateLengths = .ok d ∧
      c.PatchedAt k array d ∧
      (d.methods[k]?).bind (·.code?) = some { code with code := array } := by
  obtain ⟨i, info, hfirst⟩ := Member.exists_firstCode hcode
  have hmethodCheck : method.check = .ok () :=
    check_of_mem_methods hcheck (List.mem_of_getElem? hmethod)
  have hlengths : ∀ info ∈ method.attributes, info.checkLength = .ok () := by
    intro info hinfo
    exact (check_then_eq_ok.1 ((checkAttributes_eq_ok.1 hmethodCheck).2 info hinfo)).1
  obtain ⟨declared, hdeclared⟩ : ∃ declared : UInt32,
      declared.toNat = (Attribute.code { code with code := array }).length :=
    ⟨.ofNat _, UInt32.toNat_ofNat_of_lt' (Nat.lt_succ_of_le hlength)⟩
  have hupdate := update_setCode hlengths hfirst hdeclared
  refine ⟨_, updateLengths_setMethod (checkLengths_of_check hcheck) hupdate k,
    ⟨method, i, info, code, declared, hmethod, hfirst, hdeclared, rfl⟩, ?_⟩
  have hlt : k < c.methods.length := (List.getElem?_eq_some_iff.1 hmethod).1
  rw [setMethod, List.getElem?_set_self hlt, Option.bind_some]
  exact (hfirst.set rfl).findSome?_eq

/-- Instructions that can be encoded replace those of a method: with lengths recomputed, the class
is written and read back, nothing but the code array and the length of its attribute is different,
and the instructions are there. If they cannot be encoded, the class stays as it is. -/
theorem read_of_setInstructions {bytes : Bytes} {c : ClassFile} (hread : read bytes = .ok c)
    {k : Nat} {method : Member} {code : Code} (hmethod : c.methods[k]? = some method)
    (hcode : method.code? = some code) (xs : List Instruction) :
    (∀ array, Instruction.encode xs = .ok array →
      (Attribute.code { code with code := array }).length ≤ 0xffffffff →
      ∃ edited patched bytes',
        editCode k (Code.setInstructions xs) c = .ok (some ()) edited ∧
        edited.updateLengths = .ok patched ∧
        patched.write = .ok bytes' ∧ read bytes' = .ok patched ∧ c.PatchedAt k array patched ∧
        ∃ code' ys, (patched.methods[k]?).bind (·.code?) = some code' ∧
          code'.instructions = .ok ys ∧
          ys.map Instruction.contents = xs.map Instruction.contents ∧
          ∀ (i : Nat) (y : Instruction), ys[i]? = some y →
            y.offset.toNat = Instruction.totalSize (ys.take i)) ∧
    ∀ failure, Instruction.encode xs = .error failure →
      editCode k (Code.setInstructions xs) c = .error failure c := by
  obtain ⟨-, hcheck, hwell, hcanonical⟩ := read_eq_ok.1 hread
  refine ⟨?_, ?_⟩
  · intro array harray hlength
    have hedit : editCode k (Code.setInstructions xs) c =
        .ok (some ()) (c.setMethod k (method.setCode { code with code := array })) := by
      rw [editCode_eq hmethod hcode, setInstructions_of_ok harray]
    obtain ⟨patched, hupdate, hpatched, hcode'⟩ :=
      updateLengths_setCode hcheck hmethod hcode hlength
    obtain ⟨hwrite, hread'⟩ := hpatched.read_write hcheck hwell hcanonical
    have hlt : array.length < 2 ^ 32 := by
      rw [Attribute.length] at hlength
      omega
    obtain ⟨ys, hinstructions⟩ := instructions_of_encode harray hlt
    exact ⟨_, patched, _, hedit, hupdate, hwrite, hread', hpatched, _, ys, hcode', hinstructions⟩
  · intro failure hfailure
    rw [editCode_eq hmethod hcode, setInstructions_of_error hfailure]
    simp only [Member.setCode_self hcode, setMethod, set_of_getElem? hmethod]

/-- A class with one method, which has a `Synthetic` attribute before its code. -/
def returning : ClassFile where
  pool := Pool.after (Pool.Addition.utf8 "Synthetic").edit
    (Pool.after (Pool.Addition.utf8 "Code").edit .empty)
  methods := [⟨1, 0, 0, [⟨2, 0, .marker .synthetic⟩, ⟨1, 13, .code ⟨0, 1, [0xb1], [], []⟩⟩]⟩]

/-- A `wide` load and a return, all at the same offset. -/
def loading : List Instruction :=
  [⟨7, 0xc4, .none⟩, ⟨7, 0x15, .immediateShort 300⟩, ⟨7, 0xb1, .none⟩]

/-- The longer code is read back, and a return with an operand is refused. -/
theorem read_of_setInstructions_returning : read returning.encode = .ok returning ∧
    (∃ edited patched bytes',
      editCode 0 (Code.setInstructions loading) returning = .ok (some ()) edited ∧
      edited.updateLengths = .ok patched ∧ patched.write = .ok bytes' ∧ read bytes' = .ok patched ∧
      returning.PatchedAt 0 [0xc4, 0x15, 1, 44, 0xb1] patched) ∧
    ∃ failure, editCode 0 (Code.setInstructions [⟨0, 0xb1, .immediateByte 1⟩]) returning =
      .error failure returning := by
  have hcheck : returning.check = .ok () := eq_ok_of_toOption (by decide +kernel)
  have hpool : returning.pool.Reachable := .add (.utf8 "Synthetic") (.add (.utf8 "Code") .empty)
  have hread : read returning.encode = .ok returning :=
    read_eq_ok.2 ⟨rfl, hcheck, hpool.wellFormed, by decide +kernel⟩
  have hpatch := read_of_setInstructions hread (k := 0) rfl rfl
  have hencode : Instruction.encode loading = .ok [0xc4, 0x15, 1, 44, 0xb1] :=
    eq_ok_of_toOption (by decide +kernel)
  obtain ⟨edited, patched, bytes, hedit, hupdate, hwrite, hreread, hpatched, -⟩ :=
    (hpatch loading).1 _ hencode (by decide +kernel)
  refine ⟨hread, ⟨edited, patched, bytes, hedit, hupdate, hwrite, hreread, hpatched⟩, ?_⟩
  cases hfails : Instruction.encode [⟨0, 0xb1, .immediateByte 1⟩] with
  | ok array => cases hfails
  | error failure => exact ⟨failure, (hpatch _).2 failure hfails⟩

end ClassFile

end ClassFormat
