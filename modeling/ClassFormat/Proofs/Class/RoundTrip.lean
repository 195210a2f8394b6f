import ClassFormat.Class.Layout
import ClassFormat.Proofs.Attribute.Reading
import ClassFormat.Proofs.Pool

namespace ClassFormat

/-- Attribute tables that are written and read back, with the attributes in them at any depth. -/
def ReadableAttributes (pool : Pool) (budget : Nat) (infos : List AttributeInfo) : Prop :=
  infos.length < 256 ^ 2 ∧ ∀ info ∈ infos, info.Readable pool budget

theorem readableAttributes_iff {pool : Pool} {budget : Nat} {infos : List AttributeInfo}
    (h : ∀ info ∈ infos, info.length ≤ budget) :
    ReadableAttributes pool budget infos ↔
      checkAttributes infos = .ok () ∧ ∀ info ∈ infos, ∀ i ∈ info.all, i.Canonical pool := by
  have hinfo (info : AttributeInfo) (hmem : info ∈ infos) : info.Readable pool budget ↔
      info.check = .ok () ∧ ∀ i ∈ info.all, i.Canonical pool :=
    AttributeInfo.readable_iff (h info hmem)
  rw [checkAttributes_eq_ok, ReadableAttributes]
  grind

theorem attributes_exact (pool : Pool) (budget : Nat) :
    (Reader.list 2 (AttributeInfo.readWithin pool budget)).Exact
      (.of encodeAttributes (ReadableAttributes pool budget)) :=
  Attribute.attributes_exact (AttributeInfo.readWithin_exact pool budget)

namespace Member

theorem length_encode (member : Member) : member.encode.length = member.length := by
  simp only [encode, length, List.length_append, length_word16, length_encodeAttributes]

theorem length_encodeTable (members : List Member) :
    (encodeTable members).length = tableLength members := by
  rw [encodeTable, tableLength, List.length_append, length_bigEndian,
    Layout.length_flatMap length_encode]

theorem checkTable_eq_ok {table : MemberTable} {members : List Member} :
    checkTable table members = .ok () ↔
      members.length < 256 ^ 2 ∧ ∀ member ∈ members, member.check = .ok () := by
  have hfst : members = members.zipIdx.map (·.1) := by simp
  have hall : (∀ m ∈ members.zipIdx, m.1.check = .ok ()) ↔
      ∀ member ∈ members, member.check = .ok () := by
    rw [hfst, List.forall_mem_map, ← hfst]
  rw [checkTable, check_then_eq_ok, inContext_eq_ok, checkCount16_eq_ok, List.forM_eq_forM,
    forM_eq_ok]
  simp only [inContext_eq_ok, hall]

theorem readWithin_exact (budget : Nat) (pool : Pool) :
    (readWithin budget pool).Exact
      (.of encode fun member => ReadableAttributes pool budget member.attributes) := by
  refine (Reader.Exact.u16.field (Q := fun _ => True) accessFlags fun flags _ =>
    Reader.Exact.u16.field nameIndex fun name _ =>
      Reader.Exact.u16.field descriptorIndex fun descriptor _ =>
        (attributes_exact pool budget).field attributes fun infos _ =>
          .done fun member => ?_).congr fun bytes member => ?_
  · cases member
    simp [and_assoc]
  · simp [encode]

def ReadableTable (pool : Pool) (budget : Nat) (members : List Member) : Prop :=
  members.length < 256 ^ 2 ∧ ∀ member ∈ members, ReadableAttributes pool budget member.attributes

theorem table_exact (budget : Nat) (pool : Pool) :
    (Reader.list 2 (readWithin budget pool)).Exact (.of encodeTable (ReadableTable pool budget)) :=
  (readWithin_exact budget pool).list 2

theorem readableTable_iff {pool : Pool} {budget : Nat} {table : MemberTable} {members : List Member}
    (h : ∀ info ∈ members.flatMap (·.attributes), info.length ≤ budget) :
    ReadableTable pool budget members ↔ checkTable table members = .ok () ∧
      ∀ info ∈ members.flatMap (·.attributes), ∀ i ∈ info.all, i.Canonical pool := by
  rw [List.forall_mem_flatMap] at h
  have hmember (member : Member) (hmem : member ∈ members) :
      ReadableAttributes pool budget member.attributes ↔ member.check = .ok () ∧
        ∀ info ∈ member.attributes, ∀ i ∈ info.all, i.Canonical pool :=
    readableAttributes_iff (h member hmem)
  rw [checkTable_eq_ok, List.forall_mem_flatMap, ReadableTable]
  grind

theorem length_le_tableLength {info : AttributeInfo} {members : List Member}
    (h : info ∈ members.flatMap (·.attributes)) : info.length ≤ tableLength members := by
  obtain ⟨member, hmember, hinfo⟩ := List.mem_flatMap.1 h
  have hinfos : info.length ≤ Attribute.lengthInfos member.attributes :=
    Attribute.le_lengthInfos hinfo
  have htotal : member.length ≤ Layout.total length members := Layout.le_total hmember
  rw [length, attributesLength] at htotal
  rw [tableLength]
  omega

end Member

namespace ClassFile

/-- The attributes of the class at any depth. -/
def allAttributes (c : ClassFile) : List AttributeInfo := c.topAttributes.flatMap (·.all)

/-- What makes a class the one that is read from its bytes: the texts of its pool are those of their
bytes, and its attributes, also those inside others, are canonical. -/
structure Canonical (c : ClassFile) : Prop where
  texts : c.pool.HasOwnTexts
  attributes : ∀ info ∈ c.allAttributes, info.Canonical c.pool

instance (c : ClassFile) : Decidable c.Canonical :=
  decidable_of_iff (c.pool.HasOwnTexts ∧ ∀ info ∈ c.allAttributes, info.Canonical c.pool)
    ⟨fun ⟨htexts, hattributes⟩ => ⟨htexts, hattributes⟩,
      fun ⟨htexts, hattributes⟩ => ⟨htexts, hattributes⟩⟩

theorem length_encode (c : ClassFile) : c.encode.length = c.length := by
  simp only [encode, length, List.length_append, length_word16, length_word32, Pool.length_encode,
    indexList_lawful.length, Member.length_encodeTable, length_encodeAttributes]

theorem length_le {c : ClassFile} {info : AttributeInfo} (h : info ∈ c.topAttributes) :
    info.length ≤ c.length := by
  rw [length]
  rw [topAttributes, List.mem_append, List.mem_append] at h
  obtain (hfield | hmethod) | hclass := h
  · have := Member.length_le_tableLength hfield
    omega
  · have := Member.length_le_tableLength hmethod
    omega
  · have := Attribute.le_lengthInfos hclass
    rw [attributesLength]
    omega

/-- Class files that are written and read back with `budget` for nested attributes. -/
structure Readable (budget : Nat) (c : ClassFile) : Prop where
  pool : c.pool.check = .ok () ∧ c.pool.WellFormed ∧ c.pool.HasOwnTexts
  interfaces : indexList.check c.interfaces = .ok ()
  fields : Member.ReadableTable c.pool budget c.fields
  methods : Member.ReadableTable c.pool budget c.methods
  attributes : ReadableAttributes c.pool budget c.attributes

theorem readable_iff {budget : Nat} {c : ClassFile} (h : c.length ≤ budget) :
    c.Readable budget ↔ c.check = .ok () ∧ c.pool.WellFormed ∧ c.Canonical := by
  have hle (info : AttributeInfo) (hmem : info ∈ c.topAttributes) : info.length ≤ budget :=
    Nat.le_trans (length_le hmem) h
  simp only [topAttributes, List.forall_mem_append] at hle
  have hfields : Member.ReadableTable c.pool budget c.fields ↔
      Member.checkTable .fields c.fields = .ok () ∧
        ∀ info ∈ c.fields.flatMap (·.attributes), ∀ i ∈ info.all, i.Canonical c.pool :=
    Member.readableTable_iff hle.1.1
  have hmethods : Member.ReadableTable c.pool budget c.methods ↔
      Member.checkTable .methods c.methods = .ok () ∧
        ∀ info ∈ c.methods.flatMap (·.attributes), ∀ i ∈ info.all, i.Canonical c.pool :=
    Member.readableTable_iff hle.1.2
  have hattributes : ReadableAttributes c.pool budget c.attributes ↔
      checkAttributes c.attributes = .ok () ∧
        ∀ info ∈ c.attributes, ∀ i ∈ info.all, i.Canonical c.pool :=
    readableAttributes_iff hle.2
  have hall : (∀ info ∈ c.allAttributes, info.Canonical c.pool) ↔
      ((∀ info ∈ c.fields.flatMap (·.attributes), ∀ i ∈ info.all, i.Canonical c.pool) ∧
        ∀ info ∈ c.methods.flatMap (·.attributes), ∀ i ∈ info.all, i.Canonical c.pool) ∧
        ∀ info ∈ c.attributes, ∀ i ∈ info.all, i.Canonical c.pool := by
    rw [allAttributes, topAttributes, List.forall_mem_flatMap, List.forall_mem_append,
      List.forall_mem_append]
  -- each table is readable if it can be written and all in it is canonical; so is the class
  simp only [check, check_then_eq_ok, inContext_eq_ok]
  constructor
  · intro ⟨⟨hpool, hwell, htexts⟩, hinterfaces, hf, hm, ha⟩
    obtain ⟨hcheckF, hcanonicalF⟩ := hfields.1 hf
    obtain ⟨hcheckM, hcanonicalM⟩ := hmethods.1 hm
    obtain ⟨hcheckA, hcanonicalA⟩ := hattributes.1 ha
    exact ⟨⟨hpool, hinterfaces, hcheckF, hcheckM, hcheckA⟩, hwell, htexts,
      hall.2 ⟨⟨hcanonicalF, hcanonicalM⟩, hcanonicalA⟩⟩
  · intro ⟨⟨hpool, hinterfaces, hcheckF, hcheckM, hcheckA⟩, hwell, htexts, hcanonical⟩
    obtain ⟨⟨hcanonicalF, hcanonicalM⟩, hcanonicalA⟩ := hall.1 hcanonical
    exact ⟨⟨hpool, hwell, htexts⟩, hinterfaces, hfields.2 ⟨hcheckF, hcanonicalF⟩,
      hmethods.2 ⟨hcheckM, hcanonicalM⟩, hattributes.2 ⟨hcheckA, hcanonicalA⟩⟩

theorem readWithin_delimited (budget : Nat) :
    (readWithin budget).Delimited (.of encode (Readable budget)) := by
  refine (Reader.Delimited.field (Q := fun _ => True) (fun _ => magic) Reader.Exact.u32
    fun number _ => .expecting <|
    .field minorVersion Reader.Exact.u16 fun minor _ =>
    .field majorVersion Reader.Exact.u16 fun major _ =>
    .field (fun _ => ()) (Reader.Exact.record _) fun _ _ =>
    .field pool (Pool.read_exact.within _) fun constants _ =>
    .field accessFlags Reader.Exact.u16 fun flags _ =>
    .field thisClass Reader.Exact.u16 fun this _ =>
    .field superClass Reader.Exact.u16 fun super _ =>
    .field interfaces (indexList_lawful.read.within _) fun indices _ =>
    .field fields ((Member.table_exact budget constants).within _) fun fieldTable _ =>
    .field methods ((Member.table_exact budget constants).within _) fun methodTable _ =>
    .field (fun _ => ()) (Reader.Exact.record _) fun _ _ =>
    .field attributes ((attributes_exact constants budget).within _) fun infos _ =>
    .atEnd fun c => ?_).congr fun bytes c => ?_
  · cases c
    simp [and_assoc]
  · have hencode : c.encode = word32 magic ++ (word16 c.minorVersion ++ (word16 c.majorVersion ++
        (c.pool.encode ++ (word16 c.accessFlags ++ (word16 c.thisClass ++ (word16 c.superClass ++
          (indexList.encode c.interfaces ++ (Member.encodeTable c.fields ++
            (Member.encodeTable c.methods ++ encodeAttributes c.attributes))))))))) := by
      simp only [encode, List.append_assoc]
    simp only [Format.of_iff, List.nil_append, List.append_nil, ← hencode]
    constructor
    · rintro ⟨rfl, -, -, -, -, -, hpool, -, -, -, ⟨hinterfaces, -⟩, hfields, hmethods, -,
        hattributes, -⟩
      exact ⟨rfl, hpool, hinterfaces, hfields, hmethods, hattributes⟩
    · rintro ⟨rfl, hpool, hinterfaces, hfields, hmethods, hattributes⟩
      simp [hpool, hinterfaces, hfields, hmethods, hattributes]

theorem read_eq_ok {bytes : Bytes} {c : ClassFile} :
    read bytes = .ok c ↔
      bytes = c.encode ∧ c.check = .ok () ∧ c.pool.WellFormed ∧ c.Canonical := by
  have hread : read bytes = .ok c ↔
      ∃ c', readWithin bytes.length { rest := bytes } = .ok c c' ∧ True := by
    unfold read readLogged
    cases readWithin bytes.length { rest := bytes } <;> simp
  rw [hread, (readWithin_delimited bytes.length).covers, Format.of_iff]
  -- the budget is the length of the input, and no attribute in it is longer
  refine and_congr_right fun hbytes => readable_iff ?_
  have hlength : bytes.length = c.length := by rw [← length_encode, ← hbytes]
  exact Nat.le_of_eq hlength.symm

theorem write_eq_ok {bytes : Bytes} {c : ClassFile} :
    c.write = .ok bytes ↔ c.check = .ok () ∧ bytes = c.encode :=
  check_return_eq_ok

theorem checkLengths_of_check {c : ClassFile} (h : c.check = .ok ()) : c.checkLengths = .ok () := by
  have hlength (info : AttributeInfo) (hinfo : info.check = .ok ()) : info.checkLength = .ok () :=
    (check_then_eq_ok.1 hinfo).1
  simp only [check, check_then_eq_ok, inContext_eq_ok, Member.checkTable_eq_ok, Member.check,
    checkAttributes_eq_ok] at h
  obtain ⟨-, -, ⟨-, hfields⟩, ⟨-, hmethods⟩, -, hattributes⟩ := h
  rw [checkLengths, Attribute.checkLengths_eq_ok, topAttributes, List.forall_mem_append,
    List.forall_mem_append, List.forall_mem_flatMap, List.forall_mem_flatMap]
  refine ⟨⟨fun member hmember info hinfo => ?_, fun member hmember info hinfo => ?_⟩,
    fun info hinfo => ?_⟩
  · exact hlength info ((hfields member hmember).2 info hinfo)
  · exact hlength info ((hmethods member hmember).2 info hinfo)
  · exact hlength info (hattributes info hinfo)

/-- A class file that is read is written back as the same bytes, to the last one, and the lengths
that it declares are true. -/
theorem write_of_read {bytes : Bytes} {c : ClassFile} (h : read bytes = .ok c) :
    c.write = .ok bytes ∧ c.length = bytes.length ∧ c.checkLengths = .ok () := by
  obtain ⟨hbytes, hcheck, -, -⟩ := read_eq_ok.1 h
  have hwrite : c.write = .ok bytes := write_eq_ok.2 ⟨hcheck, hbytes⟩
  have hlength : c.length = bytes.length := by rw [hbytes, length_encode]
  exact ⟨hwrite, hlength, checkLengths_of_check hcheck⟩

/-- A class whose pool has a text that is no UTF-8 and a NaN, which names itself by an index to
nowhere, and whose one method has code that does not decode, with an unknown attribute in it. -/
def oddBytes : Bytes :=
  [0xca, 0xfe, 0xba, 0xbe, 0, 0, 0, 52, 0, 4, 1, 0, 4, 67, 111, 100, 101, 1, 0, 1, 0xff,
    4, 0x7f, 0xc0, 0, 0, 0, 0, 0, 99, 0, 0, 0, 0, 0, 0, 0, 1, 0, 0, 0, 1, 0, 2, 0, 1,
    0, 1, 0, 0, 0, 20, 0, 0, 0, 0, 0, 0, 0, 1, 0xfe, 0, 0, 0, 1, 0, 2, 0, 0, 0, 1, 7, 0, 0]

theorem write_of_read_oddBytes : ∃ c, read oddBytes = .ok c ∧ c.write = .ok oddBytes ∧
    c.length = oddBytes.length ∧ c.checkLengths = .ok () := by
  have hok : (read oddBytes).isOk = true := by decide +kernel
  cases h : read oddBytes with
  | ok c => exact ⟨c, rfl, write_of_read h⟩
  | error failure =>
    rw [h] at hok
    cases hok

/-- A class file that is written is read back as itself exactly if it is canonical, and all that is
read is canonical. -/
theorem read_write_iff_canonical :
    (∀ (c : ClassFile) (bytes : Bytes), c.pool.Reachable → c.write = .ok bytes →
      (read bytes = .ok c ↔ c.Canonical)) ∧
    ∀ (bytes : Bytes) (c : ClassFile), read bytes = .ok c → c.Canonical := by
  constructor
  · intro c bytes hpool hwrite
    obtain ⟨hcheck, hbytes⟩ := write_eq_ok.1 hwrite
    rw [read_eq_ok]
    exact ⟨fun h => h.2.2.2, fun h => ⟨hbytes, hcheck, hpool.wellFormed, h⟩⟩
  · intro bytes c h
    exact (read_eq_ok.1 h).2.2.2

/-- A class with one attribute, which its pool calls `Synthetic`. -/
def marked (which : Marker) : ClassFile where
  pool := Pool.after (Pool.Addition.utf8 "Synthetic").edit .empty
  attributes := [⟨1, 0, .marker which⟩]

/-- Two markers are written as the same bytes, and the name decides for one of them. -/
theorem read_write_iff_canonical_marked :
    (marked .deprecated).encode = (marked .synthetic).encode ∧
    read (marked .synthetic).encode = .ok (marked .synthetic) ∧
    read (marked .deprecated).encode ≠ .ok (marked .deprecated) := by
  have hpool (which : Marker) : (marked which).pool.Reachable := .add (.utf8 "Synthetic") .empty
  have hwrite (which : Marker) : (marked which).write = .ok (marked which).encode := by
    have hcheck : (marked which).check = .ok () :=
      eq_ok_of_toOption (by cases which <;> decide +kernel)
    exact write_eq_ok.2 ⟨hcheck, rfl⟩
  have hsynthetic := read_write_iff_canonical.1 _ _ (hpool .synthetic) (hwrite .synthetic)
  have hdeprecated := read_write_iff_canonical.1 _ _ (hpool .deprecated) (hwrite .deprecated)
  refine ⟨rfl, hsynthetic.2 (by decide +kernel), ?_⟩
  rw [ne_eq, hdeprecated]
  decide +kernel

end ClassFile

end ClassFormat
