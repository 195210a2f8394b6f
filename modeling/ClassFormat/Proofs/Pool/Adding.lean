import ClassFormat.Proofs.Pool.Slots
import ClassFormat.Proofs.Text.Modified

namespace ClassFormat

namespace Entry

theorem ofText_hasOwnText (text : String) : (ofText text).HasOwnText :=
  (Modified.decode_encode text).symm

end Entry

namespace Pool

/-- The pool `later` has more entries than `pool`, which are `valid`, behind the same slots. -/
def Extends (valid : Entry → Prop) (pool later : Pool) : Prop :=
  ∃ added, later.slots.toList = pool.slots.toList ++ spread added ∧ ∀ entry ∈ added, valid entry

namespace Extends

variable {valid : Entry → Prop} {pool later last : Pool}

theorem refl (pool : Pool) : pool.Extends valid pool := ⟨[], by simp [spread], by simp⟩

theorem trans (h : pool.Extends valid later) (h' : later.Extends valid last) :
    pool.Extends valid last := by
  obtain ⟨added, hslots, hvalid⟩ := h
  obtain ⟨more, hslots', hvalid'⟩ := h'
  refine ⟨added ++ more, ?_, List.forall_mem_append.2 ⟨hvalid, hvalid'⟩⟩
  rw [hslots', hslots, spread_append, List.append_assoc]

theorem push {entry : Entry} (h : valid entry) (pool : Pool) :
    pool.Extends valid (pool.push entry) :=
  ⟨[entry], toList_push pool entry, by simpa using h⟩

theorem intern {entry : Entry} (h : valid entry) (pool : Pool) :
    pool.Extends valid (after (intern entry) pool) := by
  rcases after_intern entry pool with hsame | ⟨-, hpush⟩
  · rw [hsame]
    exact refl pool
  · rw [hpush]
    exact push h pool

theorem size_le (h : pool.Extends valid later) : pool.slots.size ≤ later.slots.size := by
  obtain ⟨added, hslots, -⟩ := h
  rw [← Array.length_toList, ← Array.length_toList, hslots, List.length_append]
  omega

theorem getElem?_eq (h : pool.Extends valid later) {i : Nat} (hi : i < pool.slots.size) :
    later.slots[i]? = pool.slots[i]? := by
  obtain ⟨added, hslots, -⟩ := h
  rw [← Array.getElem?_toList, hslots, List.getElem?_append_left (by simpa using hi),
    Array.getElem?_toList]

theorem get_eq (h : pool.Extends valid later) {index : UInt16}
    (hi : index.toNat < pool.slots.size) : later.get index = pool.get index := by
  have hsome : pool.slots[index.toNat]? = some (pool.slots[index.toNat]) :=
    Array.getElem?_eq_getElem hi
  unfold get
  rw [h.getElem?_eq hi, hsome]
  cases pool.slots[index.toNat] <;> rfl

theorem utf8_eq (h : pool.Extends valid later) {index : UInt16}
    (hi : index.toNat < pool.slots.size) : later.utf8 index = pool.utf8 index := by
  unfold utf8
  rw [h.get_eq hi]

theorem forall_mem (h : pool.Extends valid later)
    (hpool : ∀ entry, some entry ∈ pool.slots → valid entry) :
    ∀ entry, some entry ∈ later.slots → valid entry := by
  obtain ⟨added, hslots, hvalid⟩ := h
  intro entry hentry
  rw [← Array.mem_toList_iff, hslots, List.mem_append, mem_spread] at hentry
  rcases hentry with hold | hnew
  · exact hpool entry (Array.mem_toList_iff.1 hold)
  · exact hvalid entry hnew

theorem wellFormed (h : pool.Extends valid later) (hpool : pool.WellFormed) : later.WellFormed := by
  obtain ⟨added, hslots, -⟩ := h
  obtain ⟨entries, hentries⟩ := hpool
  exact ⟨entries ++ added, by rw [hslots, hentries, spread_append, List.cons_append]⟩

end Extends

theorem forall_fits_iff {pool : Pool} (h : pool.WellFormed) (hsize : pool.slots.size ≤ maxSlots) :
    (∀ entry, some entry ∈ pool.slots → Fits entry) ↔ pool.check = .ok () ∧ pool.HasOwnTexts := by
  obtain ⟨entries, hslots⟩ := h
  unfold maxSlots at hsize
  have hlt : pool.slots.size < 256 ^ 2 := by omega
  simp only [check_of_slots hslots, hasOwnTexts_of_slots hslots, mem_of_slots hslots, hlt, Fits,
    true_and]
  exact forall₂_and

/-- A pool that is written and read back stays so with more such entries, if they have room. -/
theorem Extends.read_back {pool later : Pool} (h : pool.Extends Fits later)
    (hwell : pool.WellFormed) (hcheck : pool.check = .ok ()) (htexts : pool.HasOwnTexts)
    (hsize : later.slots.size ≤ maxSlots) :
    later.WellFormed ∧ later.check = .ok () ∧ later.HasOwnTexts := by
  have hwell' := h.wellFormed hwell
  have hsize' : pool.slots.size ≤ maxSlots := Nat.le_trans h.size_le hsize
  exact ⟨hwell', (forall_fits_iff hwell' hsize).1
    (h.forall_mem ((forall_fits_iff hwell hsize').2 ⟨hcheck, htexts⟩))⟩

theorem utf8_of_size_le {pool : Pool} {index : UInt16} (h : pool.slots.size ≤ index.toNat) :
    pool.utf8 index = .error ⟨index, .outOfRange pool.slots.size⟩ := by
  have hnone : pool.slots[index.toNat]? = none := Array.getElem?_eq_none h
  unfold utf8 get
  rw [hnone]
  rfl

theorem after_mapM {α β : Type} {P : Pool → Prop} {edit : α → Edit β} {as : List α}
    (h : ∀ a ∈ as, ∀ pool, P pool → P (after (edit a) pool)) (pool : Pool) (hpool : P pool) :
    P (after (as.mapM edit) pool) := by
  induction as generalizing pool with
  | nil => exact hpool
  | cons a as ih =>
    obtain ⟨ha, has⟩ := List.forall_mem_cons.1 h
    -- returning the results leaves the pool as the last edit made it
    have hdone (bs : List β) (pool : Pool) (hpool : P pool) : P (after (pure bs : Edit _) pool) :=
      hpool
    rw [List.mapM_cons]
    exact after_bind ha (fun b => after_bind (ih has) fun bs => hdone (b :: bs)) pool hpool

/-- A call gives only entries that can be written: texts that are not too long, and entries as they
are only with the text of their bytes. -/
def Addition.IsShort : Addition → Prop
  | .verbatim entry => Fits entry
  | addition => ∀ text ∈ addition.texts, (Modified.encode text).length ≤ 65535

theorem Addition.IsShort.adds {addition : Addition} (h : addition.IsShort) :
    addition.Adds Fits := by
  have htext (text : String) (hshort : (Modified.encode text).length ≤ 65535) :
      Fits (.ofText text) := by
    refine ⟨(Entry.check_eq_ok _).2 ?_, Entry.ofText_hasOwnText text⟩
    intro bytes text' heq
    cases heq
    exact hshort
  cases addition with
  | verbatim entry => exact h
  | _ => exact fun text hmem => htext text (h text hmem)

theorem extends_of_additions {additions : List Addition} {pool later : Pool} {indices : List UInt16}
    (hsize : pool.slots.size ≤ maxSlots) (hshort : ∀ addition ∈ additions, addition.IsShort)
    (h : additions.mapM (·.edit) pool = .ok indices later) :
    pool.Extends Fits later ∧ later.slots.size ≤ maxSlots := by
  -- only a text can be too long, or differ from its bytes
  have hother (entry : Entry) (hkind : entry.kind ≠ .utf8) : Fits entry := by
    cases entry <;> simp_all [Fits, Entry.check, Entry.HasOwnText, Entry.kind]
  have hstep (addition : Addition) (hmem : addition ∈ additions) (current : Pool)
      (hcurrent : pool.Extends Fits current ∧ current.slots.size ≤ maxSlots) :
      pool.Extends Fits (after addition.edit current) ∧
        (after addition.edit current).slots.size ≤ maxSlots := by
    refine after_addition_of (P := fun p => pool.Extends Fits p ∧ p.slots.size ≤ maxSlots)
      (fun entry hentry p hp => ?_) hother (hshort addition hmem).adds hcurrent
    exact ⟨hp.1.trans (.intern hentry p), size_intern_le hp.2 entry⟩
  have hafter := after_mapM hstep pool ⟨.refl pool, hsize⟩
  unfold after at hafter
  rwa [h] at hafter

end Pool

end ClassFormat
