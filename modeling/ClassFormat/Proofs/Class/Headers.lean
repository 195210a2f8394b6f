import ClassFormat.Proofs.Class.RoundTrip

namespace ClassFormat

theorem prefix_drop_append {first second whole : Bytes} {offset : Nat}
    (h : first ++ second <+: whole.drop offset) :
    first <+: whole.drop offset ∧ second <+: whole.drop (offset + first.length) := by
  obtain ⟨rest, hrest⟩ := h
  rw [List.append_assoc] at hrest
  refine ⟨⟨second ++ rest, hrest⟩, rest, ?_⟩
  rw [← List.drop_drop, ← hrest, List.drop_left]

/-- What an attribute takes up by the length that it declares. -/
def AttributeInfo.span (info : AttributeInfo) : Nat := 6 + info.declaredLength.toNat

namespace Attribute

mutual

/-- The attributes in a body that starts at `offset`, each with the offset of its header. -/
def headersInside (offset : Nat) : Attribute → List (Nat × AttributeInfo)
  | .code ⟨_, _, bytes, handlers, attributes⟩ =>
    headersOf (offset + (8 + bytes.length + handlerTable.length handlers + 2)) attributes
  | .record components => headersOfComponents (offset + 2) components
  | _ => []

/-- Attributes one behind the other, with those inside them. The next one stands where the declared
length of the last one ends. -/
def headersOf (offset : Nat) : List AttributeInfo → List (Nat × AttributeInfo)
  | [] => []
  | ⟨nameIndex, declared, data⟩ :: infos =>
    (offset, ⟨nameIndex, declared, data⟩) ::
      (headersInside (offset + 6) data ++ headersOf (offset + (6 + declared.toNat)) infos)

def headersOfComponents (offset : Nat) : List RecordComponent → List (Nat × AttributeInfo)
  | [] => []
  | ⟨_, _, attributes⟩ :: components =>
    headersOf (offset + 6) attributes ++
      headersOfComponents (offset + (6 + Layout.total AttributeInfo.span attributes)) components

end

end Attribute

def AttributeInfo.headers (offset : Nat) (info : AttributeInfo) : List (Nat × AttributeInfo) :=
  (offset, info) :: info.data.headersInside (offset + 6)

/-- The header of the attribute stands at the offset, and behind it its data, of as many bytes as
the header says. -/
def HeaderAt (bytes : Bytes) (header : Nat × AttributeInfo) : Prop :=
  ∃ body, header.2.data.write = .ok body ∧ body.length = header.2.declaredLength.toNat ∧
    word16 header.2.nameIndex ++ word32 header.2.declaredLength ++ body <+: bytes.drop header.1

/-- All headers of an attribute are found, wherever its bytes stand. -/
def AttributeInfo.Found (bytes : Bytes) (info : AttributeInfo) : Prop :=
  ∀ offset, info.encode <+: bytes.drop offset →
    ∀ header ∈ info.headers offset, HeaderAt bytes header

theorem AttributeInfo.length_encode_of_check {info : AttributeInfo} (h : info.check = .ok ()) :
    info.encode.length = info.span := by
  rw [length_encode, length, span, (check_eq_ok.1 h).1]

namespace Attribute

theorem headersOf_cons (offset : Nat) (info : AttributeInfo) (infos : List AttributeInfo) :
    headersOf offset (info :: infos) =
      info.headers offset ++ headersOf (offset + info.span) infos := by
  obtain ⟨nameIndex, declared, data⟩ := info
  rw [headersOf, AttributeInfo.headers, List.cons_append, AttributeInfo.span]

theorem write_eq_ok {data : Attribute} {bytes : Bytes} :
    data.write = .ok bytes ↔ data.check = .ok () ∧ bytes = data.encode :=
  check_return_eq_ok

theorem length_encodeInfos_of_check {infos : List AttributeInfo}
    (h : ∀ info ∈ infos, info.check = .ok ()) :
    (encodeInfos infos).length = Layout.total AttributeInfo.span infos := by
  rw [encodeInfos_eq]
  exact Layout.length_flatMap_of_mem fun info hmem =>
    AttributeInfo.length_encode_of_check (h info hmem)

section Found

variable {bytes : Bytes}

theorem headerAt_of_headersOf {infos : List AttributeInfo} {offset : Nat}
    (hcheck : ∀ info ∈ infos, info.check = .ok ()) (hfound : ∀ info ∈ infos, info.Found bytes)
    (hat : encodeInfos infos <+: bytes.drop offset) :
    ∀ header ∈ headersOf offset infos, HeaderAt bytes header := by
  induction infos generalizing offset with
  | nil => simp [headersOf]
  | cons info infos ih =>
    obtain ⟨hcheckFirst, hcheckRest⟩ := List.forall_mem_cons.1 hcheck
    obtain ⟨hfirst, hrest⟩ := List.forall_mem_cons.1 hfound
    rw [encodeInfos_eq, List.flatMap_cons, ← encodeInfos_eq] at hat
    obtain ⟨hatFirst, hatRest⟩ := prefix_drop_append hat
    -- the first attribute is as long as it declares, so the others stand where it says
    rw [AttributeInfo.length_encode_of_check hcheckFirst] at hatRest
    rw [headersOf_cons, List.forall_mem_append]
    exact ⟨hfirst offset hatFirst, ih hcheckRest hrest hatRest⟩

theorem headerAt_of_headersOfComponents {components : List RecordComponent} {offset : Nat}
    (hcheck : ∀ info ∈ components.flatMap (·.attributes), info.check = .ok ())
    (hfound : ∀ info ∈ components.flatMap (·.attributes), info.Found bytes)
    (hat : encodeComponents components <+: bytes.drop offset) :
    ∀ header ∈ headersOfComponents offset components, HeaderAt bytes header := by
  induction components generalizing offset with
  | nil => simp [headersOfComponents]
  | cons component components ih =>
    obtain ⟨nameIndex, descriptorIndex, attributes⟩ := component
    rw [List.flatMap_cons, List.forall_mem_append] at hcheck hfound
    -- two indices and the count stand in front of the attributes of a component
    have hlength : (word16 nameIndex ++ word16 descriptorIndex ++
        bigEndian 2 attributes.length).length = 6 := by simp
    rw [encodeComponents, List.append_assoc] at hat
    obtain ⟨-, hatBoth⟩ := prefix_drop_append hat
    obtain ⟨hatFirst, hatRest⟩ := prefix_drop_append hatBoth
    rw [hlength] at hatFirst hatRest
    rw [length_encodeInfos_of_check hcheck.1, Nat.add_assoc] at hatRest
    rw [headersOfComponents, List.forall_mem_append]
    exact ⟨headerAt_of_headersOf hcheck.1 hfound.1 hatFirst, ih hcheck.2 hfound.2 hatRest⟩

theorem headerAt_of_headersInside {data : Attribute} {offset : Nat} (hcheck : data.check = .ok ())
    (hfound : ∀ info ∈ data.nested, info.Found bytes) (hat : data.encode <+: bytes.drop offset) :
    ∀ header ∈ data.headersInside offset, HeaderAt bytes header := by
  obtain ⟨-, hnested⟩ := check_eq_ok.1 hcheck
  cases data with
  | code body =>
    obtain ⟨maxStack, maxLocals, array, handlers, attributes⟩ := body
    rw [encode] at hat
    obtain ⟨-, hatInfos⟩ := prefix_drop_append hat
    simp only [List.length_append, length_word16, length_bigEndian, handlerTable_lawful.length]
      at hatInfos
    exact headerAt_of_headersOf hnested hfound hatInfos
  | record components =>
    rw [encode] at hat
    obtain ⟨-, hatComponents⟩ := prefix_drop_append hat
    rw [length_bigEndian] at hatComponents
    exact headerAt_of_headersOfComponents hnested hfound hatComponents
  | _ => simp [headersInside]

end Found

end Attribute

theorem AttributeInfo.found_of_check {bytes : Bytes} {info : AttributeInfo}
    (h : info.check = .ok ()) : info.Found bytes := by
  induction info using nested_induction with
  | step info ih =>
    obtain ⟨hdeclared, hown, hnested⟩ := check_eq_ok.1 h
    have hcheck : info.data.check = .ok () := Attribute.check_eq_ok.2 ⟨hown, hnested⟩
    intro offset hat
    rw [headers, List.forall_mem_cons]
    refine ⟨⟨info.data.encode, Attribute.write_eq_ok.2 ⟨hcheck, rfl⟩, ?_, hat⟩, ?_⟩
    · rw [Attribute.length_encode, hdeclared]
    · obtain ⟨-, hatBody⟩ := prefix_drop_append hat
      rw [List.length_append, length_word16, length_word32] at hatBody
      exact Attribute.headerAt_of_headersInside hcheck (fun inner hmem => ih inner hmem
        (hnested inner hmem)) hatBody

namespace Attribute

theorem headersOf_map_snd {infos : List AttributeInfo}
    (h : ∀ info ∈ infos, ∀ offset, (info.headers offset).map (·.2) = info.all) (offset : Nat) :
    (headersOf offset infos).map (·.2) = infos.flatMap (·.all) := by
  induction infos generalizing offset with
  | nil => simp [headersOf]
  | cons info infos ih =>
    obtain ⟨hfirst, hrest⟩ := List.forall_mem_cons.1 h
    rw [headersOf_cons, List.map_append, hfirst, ih hrest, List.flatMap_cons]

theorem headersOfComponents_map_snd {components : List RecordComponent}
    (h : ∀ info ∈ components.flatMap (·.attributes), ∀ offset,
      (info.headers offset).map (·.2) = info.all) (offset : Nat) :
    (headersOfComponents offset components).map (·.2) =
      (components.flatMap (·.attributes)).flatMap (·.all) := by
  induction components generalizing offset with
  | nil => simp [headersOfComponents]
  | cons component components ih =>
    obtain ⟨nameIndex, descriptorIndex, attributes⟩ := component
    rw [List.flatMap_cons, List.forall_mem_append] at h
    rw [headersOfComponents, List.map_append, headersOf_map_snd h.1, ih h.2, List.flatMap_cons,
      List.flatMap_append]

end Attribute

theorem AttributeInfo.headers_map_snd (info : AttributeInfo) (offset : Nat) :
    (info.headers offset).map (·.2) = info.all := by
  induction info using nested_induction generalizing offset with
  | step info ih =>
    obtain ⟨nameIndex, declared, data⟩ := info
    rw [headers, List.map_cons, all, Attribute.inside_eq]
    congr 1
    cases data with
    | code body =>
      cases body
      exact Attribute.headersOf_map_snd ih _
    | record components => exact Attribute.headersOfComponents_map_snd ih _
    | _ => simp [Attribute.headersInside, Attribute.nested]

namespace Member

def span (member : Member) : Nat := 8 + Layout.total AttributeInfo.span member.attributes

/-- The attributes of members, the first of which starts at `offset`. -/
def headers (offset : Nat) : List Member → List (Nat × AttributeInfo)
  | [] => []
  | member :: members =>
    Attribute.headersOf (offset + 8) member.attributes ++ headers (offset + member.span) members

theorem length_encode_of_check {member : Member} (h : member.check = .ok ()) :
    member.encode.length = member.span := by
  obtain ⟨-, hinfos⟩ := checkAttributes_eq_ok.1 h
  rw [encode, encodeAttributes, span, ← Attribute.length_encodeInfos_of_check hinfos]
  simp only [List.length_append, length_word16, length_bigEndian]
  omega

theorem headerAt_of_headers {bytes : Bytes} {members : List Member} {offset : Nat}
    (h : ∀ member ∈ members, member.check = .ok ())
    (hat : members.flatMap encode <+: bytes.drop offset) :
    ∀ header ∈ headers offset members, HeaderAt bytes header := by
  induction members generalizing offset with
  | nil => simp [headers]
  | cons member members ih =>
    obtain ⟨hfirst, hrest⟩ := List.forall_mem_cons.1 h
    obtain ⟨-, hinfos⟩ := checkAttributes_eq_ok.1 hfirst
    rw [List.flatMap_cons] at hat
    obtain ⟨hatFirst, hatRest⟩ := prefix_drop_append hat
    rw [length_encode_of_check hfirst] at hatRest
    rw [encode, encodeAttributes, ← List.append_assoc] at hatFirst
    obtain ⟨-, hatInfos⟩ := prefix_drop_append hatFirst
    simp only [List.length_append, length_word16, length_bigEndian] at hatInfos
    rw [headers, List.forall_mem_append]
    refine ⟨?_, ih hrest hatRest⟩
    apply Attribute.headerAt_of_headersOf hinfos _ hatInfos
    exact fun info hmem => AttributeInfo.found_of_check (hinfos info hmem)

theorem length_encodeTable_of_check {members : List Member}
    (h : ∀ member ∈ members, member.check = .ok ()) :
    (encodeTable members).length = 2 + Layout.total span members := by
  have hmembers : (members.flatMap encode).length = Layout.total span members :=
    Layout.length_flatMap_of_mem fun member hmem => length_encode_of_check (h member hmem)
  rw [encodeTable, List.length_append, length_bigEndian, hmembers]

theorem headers_map_snd (members : List Member) (offset : Nat) :
    (headers offset members).map (·.2) =
      (members.flatMap (·.attributes)).flatMap (·.all) := by
  induction members generalizing offset with
  | nil => rfl
  | cons member members ih =>
    rw [headers, List.map_append, ih, List.flatMap_cons, List.flatMap_append,
      Attribute.headersOf_map_snd fun info _ => info.headers_map_snd]

end Member

namespace ClassFile

def fieldsOffset (c : ClassFile) : Nat := 8 + c.pool.length + 6 + indexList.length c.interfaces

def methodsOffset (c : ClassFile) : Nat := c.fieldsOffset + (2 + Layout.total Member.span c.fields)

def attributesOffset (c : ClassFile) : Nat :=
  c.methodsOffset + (2 + Layout.total Member.span c.methods)

/-- All attributes of a class, each with the offset of its header. -/
def headers (c : ClassFile) : List (Nat × AttributeInfo) :=
  Member.headers (c.fieldsOffset + 2) c.fields ++ Member.headers (c.methodsOffset + 2) c.methods ++
    Attribute.headersOf (c.attributesOffset + 2) c.attributes

theorem headers_map_snd (c : ClassFile) : c.headers.map (·.2) = c.allAttributes := by
  rw [headers, allAttributes, topAttributes, List.map_append, List.map_append,
    Member.headers_map_snd, Member.headers_map_snd,
    Attribute.headersOf_map_snd fun info _ => info.headers_map_snd, List.flatMap_append,
    List.flatMap_append]

theorem exists_front (c : ClassFile) : ∃ front : Bytes, front.length = c.fieldsOffset ∧
    c.encode = front ++ Member.encodeTable c.fields ++ Member.encodeTable c.methods ++
      encodeAttributes c.attributes := by
  refine ⟨_, ?_, rfl⟩
  simp only [List.length_append, length_word16, length_word32, Pool.length_encode,
    indexList_lawful.length, fieldsOffset]

theorem headerAt_of_check {bytes : Bytes} {c : ClassFile} (h : c.check = .ok ())
    (hat : c.encode <+: bytes.drop 0) : ∀ header ∈ c.headers, HeaderAt bytes header := by
  simp only [check, check_then_eq_ok, inContext_eq_ok, Member.checkTable_eq_ok,
    checkAttributes_eq_ok] at h
  obtain ⟨-, -, ⟨-, hfields⟩, ⟨-, hmethods⟩, -, hinfos⟩ := h
  obtain ⟨front, hfront, hencode⟩ := c.exists_front
  rw [hencode] at hat
  -- the tables are split off from the last one to the first
  obtain ⟨hat, hatAttributes⟩ := prefix_drop_append hat
  obtain ⟨hat, hatMethods⟩ := prefix_drop_append hat
  obtain ⟨-, hatFields⟩ := prefix_drop_append hat
  simp only [List.length_append, hfront, Member.length_encodeTable_of_check hfields,
    Member.length_encodeTable_of_check hmethods, Nat.zero_add]
    at hatAttributes hatMethods hatFields
  -- each of them starts with its count
  obtain ⟨-, hatFields⟩ := prefix_drop_append hatFields
  obtain ⟨-, hatMethods⟩ := prefix_drop_append hatMethods
  obtain ⟨-, hatInfos⟩ := prefix_drop_append hatAttributes
  rw [length_bigEndian] at hatFields hatMethods hatInfos
  rw [headers, List.forall_mem_append, List.forall_mem_append]
  refine ⟨⟨?_, ?_⟩, ?_⟩
  · exact Member.headerAt_of_headers hfields hatFields
  · exact Member.headerAt_of_headers hmethods hatMethods
  · apply Attribute.headerAt_of_headersOf hinfos _ hatInfos
    exact fun info hmem => AttributeInfo.found_of_check (hinfos info hmem)

/-- What is written has the computed length, of a class file as of the body of an attribute. So
behind every header there are as many bytes of data as it says. -/
theorem length_of_write :
    (∀ (c : ClassFile) (bytes : Bytes), c.write = .ok bytes → bytes.length = c.length ∧
      c.headers.map (·.2) = c.allAttributes ∧ ∀ header ∈ c.headers, HeaderAt bytes header) ∧
    ∀ (data : Attribute) (bytes : Bytes), data.write = .ok bytes → bytes.length = data.length := by
  constructor
  · intro c bytes hwrite
    obtain ⟨hcheck, rfl⟩ := write_eq_ok.1 hwrite
    exact ⟨c.length_encode, c.headers_map_snd, headerAt_of_check hcheck (List.prefix_refl _)⟩
  · intro data bytes hwrite
    obtain ⟨-, rfl⟩ := Attribute.write_eq_ok.1 hwrite
    exact data.length_encode

/-- A class with a record of one component, which has an attribute of its own. -/
def recorded : ClassFile where
  attributes :=
    [⟨0, 16, .record [⟨0, 0, [⟨0, 2, .index .signature 7⟩]⟩]⟩, ⟨0, 0, .marker .synthetic⟩]

theorem length_of_write_recorded :
    recorded.write = .ok recorded.encode ∧ recorded.encode.length = 52 ∧
    recorded.headers.map (·.1) = [24, 38, 46] ∧
    ∀ header ∈ recorded.headers, HeaderAt recorded.encode header := by
  have hwrite : recorded.write = .ok recorded.encode := rfl
  obtain ⟨hlength, -, hheaders⟩ := length_of_write.1 _ _ hwrite
  exact ⟨hwrite, hlength, rfl, hheaders⟩

end ClassFile

end ClassFormat
