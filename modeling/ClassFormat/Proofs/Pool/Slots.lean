import ClassFormat.Proofs.Pool
import Mathlib.Data.List.Basic

namespace ClassFormat

namespace Entry

theorem isWide_iff (entry : Entry) :
    entry.isWide = true ↔ entry.kind = .long ∨ entry.kind = .double := by
  cases entry <;> simp [isWide, kind, Kind.isWide]

theorem check_eq_ok (entry : Entry) :
    entry.check = .ok () ↔ ∀ bytes text, entry = .utf8 bytes text → bytes.length ≤ 65535 := by
  cases entry with
  | utf8 bytes text =>
    have hcheck : (Entry.utf8 bytes text).check = .ok () ↔ bytes.length < 256 ^ 2 := by
      rw [check, inContext_eq_ok, checkCount16_eq_ok]
    rw [hcheck]
    constructor
    · intro hlt bytes' text' heq
      cases heq
      omega
    · intro hall
      have := hall bytes text rfl
      omega
  | _ => simp [check]

end Entry

namespace Pool

/-- The slots of a pool, as an index of two bytes can tell them apart. -/
structure Regular (pool : Pool) : Prop where
  first : pool.slots[0]? = some none
  /-- Behind the first, the unused slots are the upper halves of entries. -/
  unused_iff (i : Nat) (h : i + 1 < pool.slots.size) : pool.slots[i + 1]? = some none ↔
    ∃ entry, pool.slots[i]? = some (some entry) ∧ (entry.kind = .long ∨ entry.kind = .double)
  upper_lt (i : Nat) (entry : Entry) (h : pool.slots[i]? = some (some entry))
    (hkind : entry.kind = .long ∨ entry.kind = .double) : i + 1 < pool.slots.size
  one_le : 1 ≤ pool.slots.size
  size_le : pool.slots.size ≤ 65535

/-- Behind a slot that is no lower half, a slot is unused just if the one before it is. -/
theorem unused_spread_iff (entries : List Entry) (slot : Option Entry)
    (hslot : ∀ entry ∈ slot, entry.isWide = false) (i : Nat) :
    (slot :: spread entries)[i + 1]? = some none ↔
      ∃ entry, (slot :: spread entries)[i]? = some (some entry) ∧ entry.isWide = true := by
  -- the slot in front changes along the induction: it is the last one that was passed
  induction entries generalizing slot i with
  | nil => cases i <;> simp_all [spread]
  | cons first entries ih =>
    by_cases hwide : first.isWide = true
    · rw [spread, if_pos hwide]
      cases i with
      | zero => simp_all
      | succ i =>
        cases i with
        | zero => simp [hwide]
        | succ i => exact ih none (by simp) i
    · rw [spread, if_neg hwide]
      cases i with
      | zero => simp_all
      | succ i => exact ih (some first) (by simpa using hwide) i

theorem size_push (pool : Pool) (entry : Entry) :
    (pool.push entry).slots.size = pool.slots.size + entry.slots := by
  have hone := length_spread_cons entry []
  rw [← Array.length_toList, toList_push, List.length_append, hone, Array.length_toList]
  rfl

theorem size_intern_le {pool : Pool} (h : pool.slots.size ≤ maxSlots) (entry : Entry) :
    (after (intern entry) pool).slots.size ≤ maxSlots := by
  rcases after_intern entry pool with hsame | ⟨hroom, hpush⟩
  · rwa [hsame]
  · rwa [hpush, size_push]

theorem Reachable.size_le {pool : Pool} (h : pool.Reachable) : pool.slots.size ≤ maxSlots := by
  apply h.invariant (P := fun pool => pool.slots.size ≤ maxSlots)
  · decide
  · intro pool hcheck hwell
    obtain ⟨entries, hslots⟩ := hwell
    have hlt := ((check_of_slots hslots).1 hcheck).1
    unfold maxSlots
    omega
  · exact fun entry pool hle => size_intern_le hle entry

theorem Reachable.regular {pool : Pool} (h : pool.Reachable) : pool.Regular := by
  obtain ⟨entries, hslots⟩ := h.wellFormed
  have hget (i : Nat) : pool.slots[i]? = (none :: spread entries)[i]? := by
    rw [← hslots, Array.getElem?_toList]
  have hunused (i : Nat) : pool.slots[i + 1]? = some none ↔
      ∃ entry, pool.slots[i]? = some (some entry) ∧
        (entry.kind = .long ∨ entry.kind = .double) := by
    simp only [hget, ← Entry.isWide_iff]
    exact unused_spread_iff entries none (by simp) i
  refine ⟨hget 0, fun i _ => hunused i, ?_, ?_, h.size_le⟩
  · intro i entry hentry hkind
    have hupper := (hunused i).2 ⟨entry, hentry, hkind⟩
    exact (Array.getElem?_eq_some_iff.1 hupper).1
  · have hsize := size_of_slots hslots
    omega

section Small

variable {pool : Pool} (h : pool.slots.size ≤ maxSlots)

include h

theorem toNat_count : pool.count.toNat = pool.slots.size := by
  unfold maxSlots at h
  rw [count, UInt16.toNat_ofNat', Nat.mod_eq_of_lt (by omega)]

theorem entries_toNat :
    pool.entries.map (fun e => (e.1.toNat, e.2)) =
      pool.slots.toList.zipIdx.filterMap fun s => s.1.map fun entry => (s.2, entry) := by
  unfold maxSlots at h
  rw [entries, List.map_filterMap]
  refine List.filterMap_congr ?_
  intro s hs
  have hlt := List.snd_lt_of_mem_zipIdx hs
  have hs : s.2 < 65536 := by simp at hlt; omega
  rw [Option.map_map]
  congr 1
  funext entry
  show ((UInt16.ofNat s.2).toNat, entry) = (s.2, entry)
  rw [UInt16.toNat_ofNat', Nat.mod_eq_of_lt hs]

theorem pairwise_entries : (pool.entries.map (·.1)).Pairwise (· < ·) := by
  have hsorted : (pool.entries.map fun e => (e.1.toNat, e.2)).Pairwise (·.1 < ·.1) := by
    rw [entries_toNat h, List.pairwise_filterMap]
    -- the positions in a list with positions are those of a range
    have hpositions : (pool.slots.toList.zipIdx.map (·.2)).Pairwise (· < ·) := by
      rw [List.zipIdx_map_snd]
      exact List.pairwise_lt_range'
    refine (List.pairwise_map.1 hpositions).imp ?_
    rintro ⟨slot, i⟩ ⟨slot', j⟩ hlt entry hentry entry' hentry'
    obtain ⟨_, -, rfl⟩ := Option.map_eq_some_iff.1 hentry
    obtain ⟨_, -, rfl⟩ := Option.map_eq_some_iff.1 hentry'
    exact hlt
  rw [List.pairwise_map] at hsorted ⊢
  exact hsorted.imp fun hlt => UInt16.lt_iff_toNat_lt.2 hlt

end Small

theorem check_eq_ok_iff {pool : Pool} (h : pool.WellFormed) (hsize : pool.slots.size ≤ maxSlots) :
    pool.check = .ok () ↔
      ∀ bytes text, some (.utf8 bytes text) ∈ pool.slots → bytes.length ≤ 65535 := by
  obtain ⟨entries, hslots⟩ := h
  unfold maxSlots at hsize
  simp only [check_of_slots hslots, Entry.check_eq_ok, mem_of_slots hslots]
  constructor
  · intro hall bytes text hutf8
    exact hall.2 _ hutf8 bytes text rfl
  · intro hall
    refine ⟨by omega, ?_⟩
    intro entry hentry bytes text heq
    exact hall bytes text (heq ▸ hentry)

/-- Whatever is read and then added, also by additions that fail half way, the unused slots are the
first and the upper halves of `long` and `double` entries, and no count or index is cut short. So a
pool can be written unless a text is too long, and is then read back. -/
theorem slots_of_reachable {pool : Pool} (h : pool.Reachable) :
    pool.Regular ∧
    pool.count.toNat = pool.slots.size ∧
    pool.entries.map (fun e => (e.1.toNat, e.2)) =
      (pool.slots.toList.zipIdx.filterMap fun s => s.1.map fun entry => (s.2, entry)) ∧
    ((∃ bytes, layout.write pool = .ok bytes) ↔
      ∀ bytes text, some (.utf8 bytes text) ∈ pool.slots → bytes.length ≤ 65535) ∧
    ∀ bytes, layout.write pool = .ok bytes → pool.HasOwnTexts →
      ∀ (c : Cursor) (rest : Bytes), c.rest = bytes ++ rest →
        ∃ c', Pool.read c = .ok pool c' ∧ c'.rest = rest := by
  refine ⟨h.regular, toNat_count h.size_le, entries_toNat h.size_le, ?_, ?_⟩
  · simp only [Layout.write_eq_ok, exists_and_left, exists_eq, and_true]
    exact check_eq_ok_iff h.wellFormed h.size_le
  · intro bytes hwrite htexts c rest hc
    obtain ⟨hcheck, rfl⟩ := Layout.write_eq_ok.1 hwrite
    obtain ⟨c', hread, hmoves⟩ := read_exact.complete ⟨rfl, hcheck, h.wellFormed, htexts⟩ hc
    exact ⟨c', hread, hmoves.rest_eq hc⟩

/-- A pool in which an entry with two slots stands before one with a single slot. -/
def numberBeforeText : Pool :=
  after (Addition.utf8 "a").edit (after (Addition.long 7).edit Pool.empty)

theorem slots_of_reachable_numberBeforeText :
    numberBeforeText.slots = #[none, some (.long 7), none, some (.utf8 [0x61] "a")] ∧
    numberBeforeText.Regular ∧
    ∃ bytes c', layout.write numberBeforeText = .ok bytes ∧
      Pool.read { rest := bytes } = .ok numberBeforeText c' ∧ c'.rest = [] := by
  have hslots : numberBeforeText.slots =
      #[none, some (.long 7), none, some (.utf8 [0x61] "a")] := by decide +kernel
  have hreachable : numberBeforeText.Reachable := .add (.utf8 "a") (.add (.long 7) .empty)
  obtain ⟨hregular, -, -, hwrite, hread⟩ := slots_of_reachable hreachable
  have hshort (bytes : Bytes) (text : String)
      (h : some (.utf8 bytes text) ∈ numberBeforeText.slots) : bytes.length ≤ 65535 := by
    simp [hslots] at h
    simp [h.1]
  obtain ⟨bytes, hbytes⟩ := hwrite.2 hshort
  obtain ⟨c', hc, hrest⟩ := hread bytes hbytes (by decide +kernel) { rest := bytes } []
    (List.append_nil _).symm
  exact ⟨hslots, hregular, bytes, c', hbytes, hc, hrest⟩

end Pool

end ClassFormat
