import ClassFormat.Proofs.Class.RoundTrip
import ClassFormat.Proofs.Pool.Adding

namespace ClassFormat

namespace ClassFile

def withPool (c : ClassFile) (pool : Pool) : ClassFile := { c with pool }

/-- No attribute whose name index is behind the last slot of the pool, at whatever depth it stands,
gets the name of a known attribute in `later`. -/
def LeavesUnnamed (c : ClassFile) (later : Pool) : Prop :=
  ∀ info ∈ c.allAttributes, c.pool.slots.size ≤ info.nameIndex.toNat →
    ∀ name, later.utf8 info.nameIndex = .ok name → Attribute.Kind.ofName? name = none

variable {c : ClassFile} {later : Pool}

theorem check_withPool (h : c.check = .ok ()) (hlater : later.check = .ok ()) :
    (c.withPool later).check = .ok () := by
  simp only [check, withPool, check_then_eq_ok, inContext_eq_ok] at h ⊢
  exact ⟨hlater, h.2⟩

theorem pool_check_of_check (h : c.check = .ok ()) : c.pool.check = .ok () := by
  simp only [check, check_then_eq_ok, inContext_eq_ok] at h
  exact h.1

theorem namedBy_withPool {valid : Entry → Prop} (hextends : c.pool.Extends valid later)
    {info : AttributeInfo} (h : info.data.NamedBy (c.pool.utf8 info.nameIndex)) :
    info.data.NamedBy (later.utf8 info.nameIndex) ↔
      (c.pool.slots.size ≤ info.nameIndex.toNat →
        ∀ name, later.utf8 info.nameIndex = .ok name → Attribute.Kind.ofName? name = none) := by
  by_cases hrange : c.pool.slots.size ≤ info.nameIndex.toNat
  · -- the data was kept as bytes, so any name but a known one will do
    rw [Pool.utf8_of_size_le hrange, Attribute.namedBy_error] at h
    have hname : info.data.name? = none := by rw [Attribute.name?, h, Option.map_none]
    simp only [Attribute.NamedBy, hname, hrange, forall_const]
  · rw [hextends.utf8_eq (by omega)]
    exact iff_of_true h fun habove => absurd habove hrange

theorem canonical_withPool_iff {valid : Entry → Prop} (hextends : c.pool.Extends valid later)
    (htexts : later.HasOwnTexts) (h : c.Canonical) :
    (c.withPool later).Canonical ↔ c.LeavesUnnamed later := by
  have hname (info : AttributeInfo) (hmem : info ∈ c.allAttributes) :=
    namedBy_withPool hextends (h.attributes info hmem).name
  constructor
  · intro hcanonical info hmem
    exact (hname info hmem).1 (hcanonical.attributes info hmem).name
  · intro hunnamed
    refine ⟨htexts, fun info hmem => ?_⟩
    obtain ⟨-, hvalues, htargets⟩ := h.attributes info hmem
    exact ⟨(hname info hmem).2 (hunnamed info hmem), hvalues, htargets⟩

/-- With constants added to its pool, a class that was read can be written. It is read back as it
is, with every attribute as it was, exactly if no attribute that had no name gets a known one. -/
theorem read_of_additions {bytes : Bytes} {c : ClassFile} (hread : read bytes = .ok c)
    {additions : List Pool.Addition} (hshort : ∀ addition ∈ additions, addition.IsShort)
    {indices : List UInt16} {later : Pool}
    (hadd : additions.mapM (·.edit) c.pool = .ok indices later) :
    ∃ bytes', (c.withPool later).write = .ok bytes' ∧
      (read bytes' = .ok (c.withPool later) ↔ c.LeavesUnnamed later) := by
  obtain ⟨-, hcheck, hwell, hcanonical⟩ := read_eq_ok.1 hread
  have hpool : c.pool.check = .ok () := pool_check_of_check hcheck
  have hsize : c.pool.slots.size ≤ Pool.maxSlots := by
    obtain ⟨entries, hslots⟩ := hwell
    have hlt := ((Pool.check_of_slots hslots).1 hpool).1
    unfold Pool.maxSlots
    omega
  obtain ⟨hextends, hlater⟩ := Pool.extends_of_additions hsize hshort hadd
  obtain ⟨hwell', hpool', htexts⟩ := hextends.read_back hwell hpool hcanonical.texts hlater
  have hcheck' : (c.withPool later).check = .ok () := check_withPool hcheck hpool'
  refine ⟨_, write_eq_ok.2 ⟨hcheck', rfl⟩, ?_⟩
  rw [read_eq_ok, ← canonical_withPool_iff hextends htexts hcanonical]
  exact ⟨fun h => h.2.2.2, fun h => ⟨rfl, hcheck', hwell', h⟩⟩

/-- A class with an empty pool and an attribute without data, whose name index leads nowhere. -/
def nameless : ClassFile where
  attributes := [⟨1, 0, .unknown []⟩]

def named (text : String) : Pool := nameless.pool.push (.ofText text)

theorem read_nameless : read nameless.encode = .ok nameless := by
  have hcheck : nameless.check = .ok () := eq_ok_of_toOption (by decide +kernel)
  have hwell : nameless.pool.WellFormed := ⟨[], rfl⟩
  exact read_eq_ok.2 ⟨rfl, hcheck, hwell, by decide +kernel⟩

theorem add_to_nameless (text : String) :
    [Pool.Addition.utf8 text].mapM (·.edit) nameless.pool = .ok [1] (named text) := by
  have hindex : nameless.pool.indexOf? (.ofText text) = none := by
    simp [Pool.indexOf?, nameless]
  have hedit : (Pool.Addition.utf8 text).edit nameless.pool = .ok 1 (named text) := by
    change Pool.intern (.ofText text) nameless.pool = _
    unfold Pool.intern
    rw [hindex]
    rfl
  change EStateM.bind _ _ _ = _
  simp only [EStateM.bind, hedit]
  rfl

/-- A name that no known attribute has leaves the attribute alone. -/
theorem read_of_additions_nameless :
    [Pool.Addition.utf8 "Custom"].mapM (·.edit) nameless.pool = .ok [1] (named "Custom") ∧
    ∃ bytes', (nameless.withPool (named "Custom")).write = .ok bytes' ∧
      read bytes' = .ok (nameless.withPool (named "Custom")) := by
  have hshort (addition : Pool.Addition) (hmem : addition ∈ [Pool.Addition.utf8 "Custom"]) :
      addition.IsShort := by
    rw [List.mem_singleton.1 hmem]
    intro text htext
    rw [List.mem_singleton.1 htext]
    decide +kernel
  have hadd := add_to_nameless "Custom"
  obtain ⟨bytes', hwrite, hiff⟩ := read_of_additions read_nameless hshort hadd
  refine ⟨hadd, bytes', hwrite, hiff.2 ?_⟩
  intro info hmem _ name hname
  rw [show info = ⟨1, 0, .unknown []⟩ from List.mem_singleton.1 hmem] at hname
  cases hname
  decide +kernel

/-- The name of a known attribute does not: what was kept as bytes is then read by this name. -/
theorem nameless_not_read_back :
    read nameless.encode = .ok nameless ∧ (Modified.encode "Synthetic").length ≤ 65535 ∧
    [Pool.Addition.utf8 "Synthetic"].mapM (·.edit) nameless.pool = .ok [1] (named "Synthetic") ∧
    ∃ bytes', (nameless.withPool (named "Synthetic")).write = .ok bytes' ∧
      read bytes' ≠ .ok (nameless.withPool (named "Synthetic")) := by
  have hcheck : (nameless.withPool (named "Synthetic")).check = .ok () :=
    eq_ok_of_toOption (by decide +kernel)
  have hnot : ¬ (nameless.withPool (named "Synthetic")).Canonical := by decide +kernel
  refine ⟨read_nameless, by decide +kernel, add_to_nameless "Synthetic", _,
    write_eq_ok.2 ⟨hcheck, rfl⟩, fun hread => ?_⟩
  exact hnot (read_eq_ok.1 hread).2.2.2

end ClassFile

end ClassFormat
