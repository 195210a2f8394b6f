import ClassFormat.Proofs.Pool.Adding

namespace ClassFormat

namespace Pool

variable {α β : Type}

theorem bind_apply (edit : Edit α) (next : α → Edit β) (pool : Pool) :
    (edit >>= next) pool = match edit pool with
      | .ok a later => next a later
      | .error failure later => .error failure later := by
  change EStateM.bind edit next pool = _
  unfold EStateM.bind
  cases edit pool <;> rfl

theorem bind_eq_ok {edit : Edit α} {next : α → Edit β} {pool last : Pool} {b : β} :
    (edit >>= next) pool = .ok b last ↔
      ∃ a later, edit pool = .ok a later ∧ next a later = .ok b last := by
  rw [bind_apply]
  cases edit pool <;> simp [and_assoc]

theorem bind_eq_error {edit : Edit α} {next : α → Edit β} {pool last : Pool} {failure : Failure} :
    (edit >>= next) pool = .error failure last ↔ edit pool = .error failure last ∨
      ∃ a later, edit pool = .ok a later ∧ next a later = .error failure last := by
  rw [bind_apply]
  cases edit pool <;> simp [and_assoc]

theorem after_of_ok {edit : Edit α} {pool later : Pool} {a : α} (h : edit pool = .ok a later) :
    after edit pool = later := by
  unfold after
  rw [h]

theorem get_eq_ok {pool : Pool} {index : UInt16} {entry : Entry} :
    pool.get index = .ok entry ↔ pool.slots[index.toNat]? = some (some entry) := by
  unfold get
  split <;> simp_all

theorem mem_entries {pool : Pool} (h : pool.slots.size ≤ maxSlots) {index : UInt16}
    {entry : Entry} : (index, entry) ∈ pool.entries ↔ pool.get index = .ok entry := by
  have hinjective : Function.Injective fun e : UInt16 × Entry => (e.1.toNat, e.2) := by
    rintro ⟨i, entry⟩ ⟨j, entry'⟩ hsame
    simp only [Prod.mk.injEq, UInt16.toNat_inj] at hsame
    rw [hsame.1, hsame.2]
  rw [← List.mem_map_of_injective hinjective, entries_toNat h, get_eq_ok]
  simp [List.mem_zipIdx_iff_getElem?]

theorem toNat_lt_size {pool : Pool} {index : UInt16} {entry : Entry}
    (h : pool.get index = .ok entry) : index.toNat < pool.slots.size := by
  rw [get_eq_ok] at h
  exact (Array.getElem?_eq_some_iff.1 h).1

theorem indexOf?_eq_idxOf? (pool : Pool) (entry : Entry) :
    pool.indexOf? entry = (pool.slots.toList.idxOf? (some entry)).map UInt16.ofNat := by
  rw [indexOf?, ← List.idxOf?_toArray, Array.toArray_toList]

theorem slots_idxOf?_eq_some {pool : Pool} {entry : Entry} {i : Nat} :
    pool.slots.toList.idxOf? (some entry) = some i ↔ pool.slots[i]? = some (some entry) ∧
      ∀ j < i, pool.slots[j]? ≠ some (some entry) := by
  simp only [← Array.getElem?_toList]
  rw [List.idxOf?_eq_some_iff]
  constructor
  · rintro ⟨hi, hfound, hfirst⟩
    refine ⟨by rw [List.getElem?_eq_getElem hi, hfound], ?_⟩
    intro j hj hsame
    rw [List.getElem?_eq_getElem (by omega)] at hsame
    exact hfirst j hj (Option.some.inj hsame)
  · rintro ⟨hfound, hfirst⟩
    obtain ⟨hi, heq⟩ := List.getElem?_eq_some_iff.1 hfound
    refine ⟨hi, heq, ?_⟩
    intro j hj hsame
    apply hfirst j hj
    rw [List.getElem?_eq_getElem (by omega), hsame]

theorem indexOf?_eq_none_iff_mem {pool : Pool} {entry : Entry} :
    pool.indexOf? entry = none ↔ some entry ∉ pool.slots := by
  rw [indexOf?, Option.map_eq_none_iff, Array.idxOf?_eq_none_iff]

section Small

variable {pool : Pool} {entry : Entry} (h : pool.slots.size ≤ maxSlots)

include h

theorem toNat_ofNat_of_lt_size {i : Nat} (hi : i < pool.slots.size) :
    (UInt16.ofNat i).toNat = i := by
  unfold maxSlots at h
  rw [UInt16.toNat_ofNat', Nat.mod_eq_of_lt (by omega)]

/-- No index is cut short, so the first slot with an entry has the smallest index. -/
theorem indexOf?_eq_some {index : UInt16} :
    pool.indexOf? entry = some index ↔ pool.get index = .ok entry ∧
      ∀ other, pool.get other = .ok entry → index ≤ other := by
  simp only [indexOf?_eq_idxOf?, Option.map_eq_some_iff, slots_idxOf?_eq_some, get_eq_ok,
    UInt16.le_iff_toNat_le]
  constructor
  · rintro ⟨i, ⟨hfound, hfirst⟩, rfl⟩
    rw [toNat_ofNat_of_lt_size h (Array.getElem?_eq_some_iff.1 hfound).1]
    refine ⟨hfound, ?_⟩
    intro other hother
    apply Nat.le_of_not_lt
    intro hlt
    exact hfirst _ hlt hother
  · rintro ⟨hfound, hfirst⟩
    refine ⟨index.toNat, ⟨hfound, ?_⟩, UInt16.ofNat_toNat⟩
    intro j hj hsame
    have hsmall := toNat_ofNat_of_lt_size h (Array.getElem?_eq_some_iff.1 hsame).1
    have hle := hfirst (UInt16.ofNat j) (by rw [hsmall, hsame])
    omega

theorem indexOf?_eq_none :
    pool.indexOf? entry = none ↔ ∀ index, pool.get index ≠ .ok entry := by
  constructor
  · intro hnone index hget
    exact indexOf?_eq_none_iff_mem.1 hnone (Array.mem_of_getElem? (get_eq_ok.1 hget))
  · intro hall
    cases hfound : pool.indexOf? entry with
    | none => rfl
    | some index => exact absurd ((indexOf?_eq_some h).1 hfound).1 (hall index)

end Small

theorem Extends.indexOf?_eq {valid : Entry → Prop} {pool later : Pool} {entry : Entry}
    {index : UInt16} (h : pool.Extends valid later) (hindex : pool.indexOf? entry = some index) :
    later.indexOf? entry = some index := by
  rw [indexOf?_eq_idxOf?] at hindex ⊢
  obtain ⟨i, hfound, rfl⟩ := Option.map_eq_some_iff.1 hindex
  obtain ⟨added, hslots, -⟩ := h
  have hprefix : pool.slots.toList <+: later.slots.toList := ⟨spread added, hslots.symm⟩
  have hlater : later.slots.toList.idxOf? (some entry) = some i := hprefix.findIdx?_eq_some hfound
  rw [hlater, Option.map_some]

theorem Extends.get_eq_ok {valid : Entry → Prop} {pool later : Pool} {entry : Entry}
    {index : UInt16} (h : pool.Extends valid later) (hget : pool.get index = .ok entry) :
    later.get index = .ok entry := by
  rw [h.get_eq (toNat_lt_size hget), hget]

theorem getElem?_push (pool : Pool) (entry : Entry) {i : Nat} {found : Entry} :
    (pool.push entry).slots[i]? = some (some found) ↔
      pool.slots[i]? = some (some found) ∨ i = pool.slots.size ∧ found = entry := by
  have hspread (j : Nat) : (spread [entry])[j]? = some (some found) ↔ j = 0 ∧ found = entry := by
    unfold spread
    split <;> rcases j with _ | _ | j <;> simp [spread, eq_comm]
  rw [← Array.getElem?_toList, toList_push, List.getElem?_append, Array.length_toList,
    Array.getElem?_toList]
  by_cases hi : i < pool.slots.size
  · rw [if_pos hi]
    have hne : i ≠ pool.slots.size := by omega
    simp [hne]
  · have hout : pool.slots[i]? = none := Array.getElem?_eq_none (Nat.le_of_not_lt hi)
    have hzero : i - pool.slots.size = 0 ↔ i = pool.slots.size := by omega
    rw [if_neg hi, hspread, hout, hzero]
    simp

theorem indexOf?_push {pool : Pool} {entry : Entry} (h : pool.indexOf? entry = none) :
    (pool.push entry).indexOf? entry = some pool.count := by
  rw [indexOf?_eq_none_iff_mem] at h
  have hfirst : (pool.push entry).slots.toList.idxOf? (some entry) = some pool.slots.size := by
    rw [slots_idxOf?_eq_some]
    refine ⟨(getElem?_push pool entry).2 (.inr ⟨rfl, rfl⟩), ?_⟩
    intro j hj hsame
    rcases (getElem?_push pool entry).1 hsame with hold | ⟨hnew, -⟩
    · exact h (Array.mem_of_getElem? hold)
    · omega
  rw [indexOf?_eq_idxOf?, hfirst]
  rfl

theorem intern_of_some {pool : Pool} {entry : Entry} {index : UInt16}
    (h : pool.indexOf? entry = some index) : intern entry pool = .ok index pool := by
  unfold intern
  rw [h]

theorem intern_of_none {pool : Pool} {entry : Entry} (h : pool.indexOf? entry = none)
    (hroom : pool.slots.size + entry.slots ≤ maxSlots) :
    intern entry pool = .ok pool.count (pool.push entry) := by
  unfold intern
  rw [h]
  exact if_neg (Nat.not_lt.2 hroom)

theorem intern_of_full {pool : Pool} {entry : Entry} (h : pool.indexOf? entry = none)
    (hfull : maxSlots < pool.slots.size + entry.slots) :
    intern entry pool = .error (.ofFlaw (.fullPool entry.kind)) pool := by
  unfold intern
  rw [h]
  exact if_pos hfull

theorem found_or_added {pool later : Pool} {entry : Entry} {index : UInt16}
    (h : intern entry pool = .ok index later) :
    pool.indexOf? entry = some index ∧ later = pool ∨
      pool.indexOf? entry = none ∧ index = pool.count ∧ later = pool.push entry := by
  cases hfound : pool.indexOf? entry with
  | some first =>
    rw [intern_of_some hfound] at h
    cases h
    exact .inl ⟨rfl, rfl⟩
  | none =>
    by_cases hroom : pool.slots.size + entry.slots ≤ maxSlots
    · rw [intern_of_none hfound hroom] at h
      cases h
      exact .inr ⟨rfl, rfl, rfl⟩
    · rw [intern_of_full hfound (Nat.lt_of_not_le hroom)] at h
      cases h

theorem eq_of_intern_error {pool later : Pool} {entry : Entry} {failure : Failure}
    (h : intern entry pool = .error failure later) : later = pool := by
  unfold intern at h
  split at h
  · cases h
  · split at h <;> cases h
    rfl

theorem indexOf?_of_intern {pool later : Pool} {entry : Entry} {index : UInt16}
    (h : intern entry pool = .ok index later) : later.indexOf? entry = some index := by
  rcases found_or_added h with ⟨hfound, rfl⟩ | ⟨hfound, rfl, rfl⟩
  · exact hfound
  · exact indexOf?_push hfound

def Distinct (pool : Pool) : Prop :=
  ∀ i j entry, pool.get i = .ok entry → pool.get j = .ok entry → i = j

theorem Distinct.push {pool : Pool} {entry : Entry} (h : pool.Distinct)
    (hsize : pool.slots.size ≤ maxSlots) (hnone : pool.indexOf? entry = none) :
    (pool.push entry).Distinct := by
  rw [indexOf?_eq_none hsize] at hnone
  intro i j found hi hj
  rw [get_eq_ok, getElem?_push, ← get_eq_ok] at hi hj
  -- of two equal entries both are old, or both are the new one, which equals none of the old
  rcases hi with hi | ⟨hi, rfl⟩
  · rcases hj with hj | ⟨-, rfl⟩
    · exact h i j found hi hj
    · exact absurd hi (hnone i)
  · rcases hj with hj | ⟨hj, -⟩
    · exact absurd hj (hnone j)
    · exact UInt16.toNat_inj.1 (hi.trans hj.symm)

theorem Distinct.intern {pool : Pool} (h : pool.Distinct) (hsize : pool.slots.size ≤ maxSlots)
    (entry : Entry) : (after (Pool.intern entry) pool).Distinct := by
  unfold after
  cases hintern : Pool.intern entry pool with
  | ok index later =>
    rcases found_or_added hintern with ⟨-, rfl⟩ | ⟨hfound, -, rfl⟩
    · exact h
    · exact h.push hsize hfound
  | error failure later =>
    rw [eq_of_intern_error hintern]
    exact h

/-- The pool after additions one by one, also behind such as fail. -/
def afterAll (additions : List Addition) (pool : Pool) : Pool :=
  additions.foldl (fun pool addition => after addition.edit pool) pool

theorem Extends.addition (addition : Addition) (pool : Pool) :
    pool.Extends (fun _ => True) (after addition.edit pool) := by
  apply after_addition (P := fun later => pool.Extends (fun _ => True) later)
  · intro entry later hlater
    exact hlater.trans (.intern trivial later)
  · exact .refl pool

theorem Extends.afterAll (additions : List Addition) (pool : Pool) :
    pool.Extends (fun _ => True) (afterAll additions pool) := by
  induction additions generalizing pool with
  | nil => exact .refl pool
  | cons addition additions ih => exact (Extends.addition addition pool).trans (ih _)

/-- Every addition ends with interning the entry whose index it gives. -/
theorem Addition.exists_intern {addition : Addition} {pool later : Pool} {index : UInt16}
    (h : addition.edit pool = .ok index later) :
    ∃ entry before, Pool.intern entry before = .ok index later := by
  cases addition with
  | verbatim entry => exact ⟨entry, pool, h⟩
  | utf8 _ | integer _ | float _ | long _ | double _ => exact ⟨_, pool, h⟩
  | classRef _ | string _ =>
    obtain ⟨_, before, -, hlast⟩ := bind_eq_ok.1 h
    exact ⟨_, before, hlast⟩
  | nameAndType _ _ =>
    obtain ⟨_, _, -, hnext⟩ := bind_eq_ok.1 h
    obtain ⟨_, before, -, hlast⟩ := bind_eq_ok.1 hnext
    exact ⟨_, before, hlast⟩
  | member _ _ _ _ =>
    obtain ⟨_, _, -, hnext⟩ := bind_eq_ok.1 h
    obtain ⟨_, before, -, hlast⟩ := bind_eq_ok.1 hnext
    exact ⟨_, before, hlast⟩

theorem Reachable.get_of_addition {pool later : Pool} (h : pool.Reachable) {addition : Addition}
    {index : UInt16} (hedit : addition.edit pool = .ok index later) :
    ∃ entry, later.get index = .ok entry := by
  obtain ⟨entry, before, hlast⟩ := Addition.exists_intern hedit
  have hlater : later.Reachable := after_of_ok hedit ▸ h.add addition
  exact ⟨entry, ((indexOf?_eq_some hlater.size_le).1 (indexOf?_of_intern hlast)).1⟩

/-- Interning disturbs nothing. An entry that is there is found at the smallest index that has it;
another one gets the next index if there is room for it, and is refused otherwise. Interning it
again changes nothing, entries that differed still do, and whatever is added later, each index that
was handed out keeps its entry. -/
theorem intern_of_reachable {pool : Pool} (h : pool.Reachable) (entry : Entry) :
    ((∃ index, pool.get index = .ok entry) → ∃ index, intern entry pool = .ok index pool ∧
      pool.get index = .ok entry ∧ ∀ other, pool.get other = .ok entry → index ≤ other) ∧
    ((∀ index, pool.get index ≠ .ok entry) → pool.slots.size + entry.slots ≤ 65535 →
      ∃ index later, intern entry pool = .ok index later ∧ index.toNat = pool.slots.size ∧
        later.get index = .ok entry ∧
        ∀ other : UInt16, other.toNat < pool.slots.size → later.get other = pool.get other) ∧
    ((∀ index, pool.get index ≠ .ok entry) → 65535 < pool.slots.size + entry.slots →
      intern entry pool = .error (.ofFlaw (.fullPool entry.kind)) pool) ∧
    (∀ index later, intern entry pool = .ok index later →
      later.get index = .ok entry ∧ intern entry later = .ok index later) ∧
    (pool.Distinct → (after (intern entry) pool).Distinct) ∧
    ∀ (addition : Addition) (index : UInt16) (later : Pool), addition.edit pool = .ok index later →
      ∃ found, later.get index = .ok found ∧
        ∀ additions, (afterAll additions later).get index = .ok found := by
  have hsize := h.size_le
  refine ⟨?_, ?_, ?_, ?_, fun hdistinct => hdistinct.intern hsize entry, ?_⟩
  · rintro ⟨index, hget⟩
    cases hfound : pool.indexOf? entry with
    | some first => exact ⟨first, intern_of_some hfound, (indexOf?_eq_some hsize).1 hfound⟩
    | none => exact absurd hget ((indexOf?_eq_none hsize).1 hfound index)
  · intro hnone hroom
    have hfound := (indexOf?_eq_none hsize).2 hnone
    refine ⟨pool.count, pool.push entry, intern_of_none hfound hroom, toNat_count hsize, ?_, ?_⟩
    · rw [get_eq_ok, getElem?_push]
      exact .inr ⟨toNat_count hsize, rfl⟩
    · intro other hother
      have hextends : pool.Extends (fun _ => True) (pool.push entry) := .push trivial pool
      exact hextends.get_eq hother
  · intro hnone hfull
    exact intern_of_full ((indexOf?_eq_none hsize).2 hnone) hfull
  · intro index later hintern
    have hlater : later.Reachable := after_of_ok hintern ▸ h.add (.verbatim entry)
    have hfound := indexOf?_of_intern hintern
    exact ⟨((indexOf?_eq_some hlater.size_le).1 hfound).1, intern_of_some hfound⟩
  · intro addition index later hedit
    -- an index is handed out by an interning, and later additions only extend the pool
    obtain ⟨found, hget⟩ := h.get_of_addition hedit
    exact ⟨found, hget, fun additions => (Extends.afterAll additions later).get_eq_ok hget⟩

/-- A pool that holds one number many times. -/
def crowd (count : Nat) : Pool := ⟨(none :: List.replicate count (some (.integer 0))).toArray⟩

theorem slots_crowd (count : Nat) :
    (crowd count).slots.toList = none :: spread (List.replicate count (.integer 0)) := by
  have hspread : spread (List.replicate count (.integer 0)) =
      List.replicate count (some (.integer 0)) := by
    induction count with
    | zero => rfl
    | succ count ih => rw [List.replicate_succ, List.replicate_succ, spread, ih]; rfl
  rw [hspread, crowd, List.toList_toArray]

theorem size_crowd (count : Nat) : (crowd count).slots.size = count + 1 := by
  simp [crowd]

theorem eq_of_get_crowd {count : Nat} {index : UInt16} {entry : Entry}
    (h : (crowd count).get index = .ok entry) : entry = .integer 0 := by
  have hmem := (mem_of_slots (slots_crowd count) entry).1 (Array.mem_of_getElem? (get_eq_ok.1 h))
  exact (List.mem_replicate.1 hmem).2

theorem get_crowd (count : Nat) : (crowd (count + 1)).get 1 = .ok (.integer 0) := by
  rw [get_eq_ok, crowd, List.replicate_succ]
  rfl

/-- Such a pool can be read: entries may be equal in what is read. -/
theorem reachable_crowd {count : Nat} (h : count < 65535) : (crowd count).Reachable := by
  have hall (entry : Entry) (hmem : entry ∈ List.replicate count (.integer 0)) :
      entry.check = .ok () ∧ entry.HasOwnText := by
    rw [(List.mem_replicate.1 hmem).2]
    exact ⟨rfl, trivial⟩
  have hcheck : (crowd count).check = .ok () := by
    rw [check_of_slots (slots_crowd count), size_crowd]
    exact ⟨by omega, fun entry hmem => (hall entry hmem).1⟩
  have htexts : (crowd count).HasOwnTexts :=
    (hasOwnTexts_of_slots (slots_crowd count)).2 fun entry hmem => (hall entry hmem).2
  obtain ⟨c', hread, -⟩ := read_exact.complete (c := { rest := (crowd count).encode })
    ⟨rfl, hcheck, ⟨_, slots_crowd count⟩, htexts⟩ (List.append_nil _).symm
  exact .read hread

/-- With one slot left, a number of two slots is refused and one of a single slot is not. -/
theorem intern_of_reachable_crowd : (crowd 65533).Reachable ∧
    (∃ index, intern (.integer 0) (crowd 65533) = .ok index (crowd 65533) ∧ index ≤ 1) ∧
    intern (.long 7) (crowd 65533) = .error (.ofFlaw (.fullPool .long)) (crowd 65533) ∧
    ∃ index later, intern (.integer 1) (crowd 65533) = .ok index later ∧ index.toNat = 65534 ∧
      intern (.integer 1) later = .ok index later ∧
      ∀ additions, (afterAll additions later).get index = .ok (.integer 1) := by
  have hreachable : (crowd 65533).Reachable := reachable_crowd (by decide)
  have hnone (entry : Entry) (hne : entry ≠ .integer 0) (index : UInt16) :
      (crowd 65533).get index ≠ .ok entry := fun hget => hne (eq_of_get_crowd hget)
  have hfirst : (crowd 65533).get 1 = .ok (.integer 0) := get_crowd 65532
  obtain ⟨hold, -⟩ := intern_of_reachable hreachable (.integer 0)
  obtain ⟨-, -, hfull, -⟩ := intern_of_reachable hreachable (.long 7)
  obtain ⟨-, hnew, -, hagain, -, hlasting⟩ := intern_of_reachable hreachable (.integer 1)
  obtain ⟨first, hfound, -, hleast⟩ := hold ⟨1, hfirst⟩
  have hrefused := hfull (hnone _ (by decide)) (by rw [size_crowd]; decide)
  obtain ⟨index, later, hintern, hindex, hget, -⟩ :=
    hnew (hnone _ (by decide)) (by rw [size_crowd]; decide)
  obtain ⟨found, hkept, hall⟩ := hlasting (.verbatim (.integer 1)) index later hintern
  rw [hget] at hkept
  cases hkept
  exact ⟨hreachable, ⟨first, hfound, hleast 1 hfirst⟩, hrefused, index, later, hintern,
    hindex.trans (size_crowd 65533), (hagain index later hintern).2, hall⟩

end Pool

end ClassFormat
