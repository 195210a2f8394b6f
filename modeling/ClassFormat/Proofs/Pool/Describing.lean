import ClassFormat.Pool.Describe
import ClassFormat.Proofs.Pool.Interning
import Mathlib.Order.Interval.Finset.Nat

namespace ClassFormat

namespace Pool

/-- The kind of the method handle at an index, and the index it refers to. -/
def handle? (pool : Pool) (index : UInt16) : Option (UInt8 × UInt16) :=
  match pool.get index with
  | .ok (.methodHandle kind target) => some (kind, target)
  | _ => none

/-- The index that so many links from handle to handle lead to. -/
def follow (pool : Pool) : (links : Nat) → UInt16 → Option UInt16
  | 0, index => some index
  | links + 1, index => (pool.handle? index).bind fun handle => pool.follow links handle.2

def kindsAlong (pool : Pool) : (links : Nat) → UInt16 → List UInt8
  | 0, _ => []
  | links + 1, index => match pool.handle? index with
    | some (kind, target) => kind :: pool.kindsAlong links target
    | none => []

/-- The chain of handles never comes to an index a second time. -/
def NeverReturns (pool : Pool) (index : UInt16) : Prop :=
  ∀ m n visited, pool.follow m index = some visited → pool.follow n index = some visited → m = n

def describeWithin (pool : Pool) (links : Nat) (index : UInt16) : Except Unresolved String := do
  (← pool.get index).describeWithin pool links

theorem describe_eq (pool : Pool) (index : UInt16) :
    pool.describe index = pool.describeWithin pool.slots.size index := rfl

variable {pool : Pool} {index target last : UInt16} {kind : UInt8} {links : Nat}

theorem handle?_eq_some :
    pool.handle? index = some (kind, target) ↔
      pool.get index = .ok (.methodHandle kind target) := by
  unfold handle?
  split <;> simp_all

theorem follow_add (pool : Pool) (m n : Nat) (index : UInt16) :
    pool.follow (m + n) index = (pool.follow m index).bind (pool.follow n) := by
  induction m generalizing index with
  | zero => rw [Nat.zero_add]; rfl
  | succ m ih =>
    rw [Nat.succ_add, follow, follow, Option.bind_assoc]
    congr 1
    funext handle
    exact ih handle.2

theorem isSome_follow_of_le {m n : Nat} (hle : m ≤ n) (h : (pool.follow n index).isSome) :
    (pool.follow m index).isSome := by
  obtain ⟨k, rfl⟩ := Nat.exists_eq_add_of_le hle
  rw [follow_add] at h
  cases hm : pool.follow m index with
  | none => rw [hm] at h; exact h
  | some visited => rfl

/-- A chain that comes to an index again has no end. -/
theorem isSome_follow_of_return {m n : Nat} {visited : UInt16} (hlt : m < n)
    (hm : pool.follow m index = some visited) (hn : pool.follow n index = some visited) (k : Nat) :
    (pool.follow k index).isSome := by
  induction k using Nat.strong_induction_on with
  | _ k ih =>
    by_cases hle : k ≤ n
    · exact isSome_follow_of_le hle (by rw [hn]; rfl)
    · -- from the index on, the chain goes on as it did before
      obtain ⟨t, rfl⟩ := Nat.exists_eq_add_of_le (Nat.le_of_not_le hle)
      have hsame : pool.follow (n + t) index = pool.follow (m + t) index := by
        rw [follow_add, follow_add, hn, hm]
      rw [hsame]
      exact ih (m + t) (by omega)

theorem neverReturns_of_end {n : Nat} (h : pool.follow n index = none) :
    pool.NeverReturns index := by
  intro m m' visited hm hm'
  apply Nat.le_antisymm <;> apply Nat.le_of_not_lt <;> intro hlt
  · have := isSome_follow_of_return hlt hm' hm n
    simp [h] at this
  · have := isSome_follow_of_return hlt hm hm' n
    simp [h] at this

theorem exists_handle (h : (pool.follow (links + 1) index).isSome) :
    ∃ kind target, pool.handle? index = some (kind, target) ∧
      (pool.follow links target).isSome := by
  rw [follow] at h
  cases hhandle : pool.handle? index with
  | none => rw [hhandle] at h; cases h
  | some handle => rw [hhandle] at h; exact ⟨handle.1, handle.2, rfl, h⟩

theorem exists_handle_of_lt {m n : Nat} (hlt : m < n) (h : (pool.follow n index).isSome) :
    ∃ visited kind target, pool.follow m index = some visited ∧
      pool.get visited = .ok (.methodHandle kind target) := by
  have hnext : (pool.follow (m + 1) index).isSome := isSome_follow_of_le hlt h
  rw [follow_add] at hnext
  cases hm : pool.follow m index with
  | none => rw [hm] at hnext; cases hnext
  | some visited =>
    rw [hm, Option.bind_some] at hnext
    obtain ⟨kind, target, hhandle, -⟩ := exists_handle hnext
    exact ⟨visited, kind, target, rfl, handle?_eq_some.1 hhandle⟩

theorem Reachable.pos_of_get (h : pool.Reachable) {entry : Entry}
    (hget : pool.get index = .ok entry) : 0 < index.toNat := by
  apply Nat.pos_of_ne_zero
  intro hzero
  rw [get_eq_ok, hzero, h.regular.first] at hget
  cases hget

/-- A chain that never returns passes each slot at most once, and the first slot not at all. -/
theorem NeverReturns.lt_size (h : pool.NeverReturns index) (hpool : pool.Reachable) {n : Nat}
    (hn : (pool.follow n index).isSome) : n < pool.slots.size := by
  let slot (m : Nat) : Nat := (pool.follow m index).elim 0 UInt16.toNat
  -- while the chain goes on each index has a handle, so its slot is one behind the first
  have hmaps : Set.MapsTo slot (Finset.range n) (Finset.Ico 1 pool.slots.size) := by
    intro m hm
    obtain ⟨visited, kind, target, hvisited, hget⟩ :=
      exists_handle_of_lt (Finset.mem_range.1 hm) hn
    have hslot : slot m = visited.toNat := by simp only [slot, hvisited, Option.elim_some]
    rw [Finset.coe_Ico, hslot]
    exact ⟨hpool.pos_of_get hget, toNat_lt_size hget⟩
  -- two links to one slot are two visits of one index
  have hinj : Set.InjOn slot (Finset.range n) := by
    intro m hm m' hm' hsame
    obtain ⟨visited, kind, target, hvisited, -⟩ :=
      exists_handle_of_lt (Finset.mem_range.1 hm) hn
    obtain ⟨visited', kind', target', hvisited', -⟩ :=
      exists_handle_of_lt (Finset.mem_range.1 hm') hn
    simp only [slot, hvisited, hvisited', Option.elim_some] at hsame
    rw [← UInt16.toNat_inj.1 hsame] at hvisited'
    exact h m m' visited hvisited hvisited'
  have hcard := Finset.card_le_card_of_injOn slot hmaps hinj
  rw [Finset.card_range, Nat.card_Ico] at hcard
  have hone := hpool.regular.one_le
  omega

/-- The last index of a chain: no handle leads on from it. -/
structure EndsAfter (pool : Pool) (index : UInt16) (links : Nat) (last : UInt16) : Prop where
  reaches : pool.follow links index = some last
  stops : pool.handle? last = none

theorem EndsAfter.kind_ne (h : pool.EndsAfter index links last) {entry : Entry}
    (hget : pool.get last = .ok entry) : entry.kind ≠ .methodHandle := by
  intro hkind
  cases entry <;> cases hkind
  have hstops := h.stops
  rw [handle?_eq_some.2 hget] at hstops
  cases hstops

theorem exists_end {n : Nat} (h : pool.follow n index = none) :
    ∃ links last, pool.EndsAfter index links last := by
  induction n generalizing index with
  | zero => cases h
  | succ n ih =>
    cases hhandle : pool.handle? index with
    | none => exact ⟨0, index, rfl, hhandle⟩
    | some handle =>
      rw [follow, hhandle, Option.bind_some] at h
      obtain ⟨links, last, hfollow, hlast⟩ := ih h
      exact ⟨links + 1, last, by rw [follow, hhandle, Option.bind_some, hfollow], hlast⟩

theorem describeWithin_of_get {entry : Entry} (h : pool.get index = .ok entry) (links : Nat) :
    pool.describeWithin links index = entry.describeWithin pool links := by
  unfold describeWithin
  rw [h]
  rfl

theorem describeWithin_of_not_get {u : Unresolved} (h : pool.get index = .error u) (links : Nat) :
    pool.describeWithin links index = .error u := by
  unfold describeWithin
  rw [h]
  rfl

theorem describeWithin_of_handle (h : pool.handle? index = some (kind, target)) (links : Nat) :
    pool.describeWithin (links + 1) index =
      (pool.describeWithin links target).map (handleName kind ++ " " ++ ·) := by
  rw [describeWithin_of_get (handle?_eq_some.1 h), Entry.describeWithin]
  cases hget : pool.get target with
  | error u => rw [describeWithin_of_not_get hget]; rfl
  | ok entry =>
    rw [describeWithin_of_get hget]
    change (entry.describeWithin pool links >>= fun description =>
      pure (handleName kind ++ " " ++ description)) = _
    cases entry.describeWithin pool links <;> rfl

theorem describeWithin_of_isSome (h : (pool.follow (links + 1) index).isSome) :
    ∃ u, pool.describeWithin links index = .error u ∧ u.reason = .endless := by
  induction links generalizing index with
  | zero =>
    obtain ⟨kind, target, hhandle, -⟩ := exists_handle h
    refine ⟨⟨target, .endless⟩, ?_, rfl⟩
    rw [describeWithin_of_get (handle?_eq_some.1 hhandle)]
    rfl
  | succ links ih =>
    obtain ⟨kind, target, hhandle, hrest⟩ := exists_handle h
    obtain ⟨u, hu, hreason⟩ := ih hrest
    refine ⟨u, ?_, hreason⟩
    rw [describeWithin_of_handle hhandle, hu]
    rfl

theorem describeWithin_of_not_handle (h : pool.handle? index = none) (links : Nat) :
    pool.describeWithin links index = pool.describeWithin 0 index := by
  cases hget : pool.get index with
  | error u => rw [describeWithin_of_not_get hget, describeWithin_of_not_get hget]
  | ok entry =>
    rw [describeWithin_of_get hget, describeWithin_of_get hget]
    cases entry with
    | methodHandle kind target => rw [handle?_eq_some.2 hget] at h; cases h
    | _ => cases links <;> rfl

/-- The names of what handles do, each with a space behind. -/
def handleNames (kinds : List UInt8) : String := String.join (kinds.map (handleName · ++ " "))

theorem EndsAfter.describeWithin_add (h : pool.EndsAfter index links last) (spare : Nat) :
    pool.describeWithin (links + spare) index =
      (pool.describeWithin 0 last).map (handleNames (pool.kindsAlong links index) ++ ·) := by
  obtain ⟨hfollow, hlast⟩ := h
  induction links generalizing index with
  | zero =>
    cases hfollow
    rw [describeWithin_of_not_handle hlast, kindsAlong]
    cases pool.describeWithin 0 last <;> simp [Except.map, handleNames]
  | succ links ih =>
    have hnext : (pool.follow (links + 1) index).isSome := by rw [hfollow]; rfl
    obtain ⟨kind, target, hhandle, -⟩ := exists_handle hnext
    rw [follow, hhandle, Option.bind_some] at hfollow
    rw [Nat.succ_add, describeWithin_of_handle hhandle, ih hfollow, kindsAlong, hhandle]
    cases pool.describeWithin 0 last <;> simp [Except.map, handleNames, String.append_assoc]

/-- The result may fail, but not because handles refer to each other without end. -/
def Settled {α : Type} (result : Except Unresolved α) : Prop :=
  ∀ u, result = .error u → u.reason ≠ .endless

namespace Settled

variable {α β : Type}

theorem ok (a : α) : Settled (.ok a) := nofun

theorem bind {result : Except Unresolved α} {next : α → Except Unresolved β} (h : Settled result)
    (hn : ∀ a, Settled (next a)) : Settled (result >>= next) := by
  cases result with
  | ok a => exact hn a
  | error u => exact fun u' hu' => h u' (by cases hu'; rfl)

theorem map {result : Except Unresolved α} {f : α → β} (h : Settled result) :
    Settled (result.map f) := by
  cases result with
  | ok a => exact ok _
  | error u => exact fun u' hu' => h u' (by cases hu'; rfl)

theorem wrongKind (index : UInt16) (expected : String) (got : Entry) :
    Settled (wrongKind index expected got : Except Unresolved α) := by
  intro u hu
  cases hu
  nofun

theorem get (pool : Pool) (index : UInt16) : Settled (pool.get index) := by
  intro u hu
  unfold Pool.get at hu
  split at hu <;> cases hu
  · split <;> nofun
  · nofun

theorem utf8 (pool : Pool) (index : UInt16) : Settled (pool.utf8 index) := by
  refine (get pool index).bind fun entry => ?_
  split
  · exact ok _
  · exact wrongKind _ _ _

theorem className (pool : Pool) (index : UInt16) : Settled (pool.className index) := by
  refine (get pool index).bind fun entry => ?_
  split
  · exact utf8 pool _
  · exact wrongKind _ _ _

theorem nameAndType (pool : Pool) (index : UInt16) : Settled (pool.nameAndType index) := by
  refine (get pool index).bind fun entry => ?_
  split
  · exact (utf8 pool _).bind fun _ => (utf8 pool _).bind fun _ => ok _
  · exact wrongKind _ _ _

theorem describeWithin {entry : Entry} (h : entry.kind ≠ .methodHandle) (pool : Pool) :
    Settled (entry.describeWithin pool 0) := by
  cases entry with
  | utf8 _ _ | integer _ | float _ | long _ | double _ => exact ok _
  | classRef _ | stringRef _ | methodType _ | moduleRef _ | packageRef _ => exact utf8 pool _
  | memberRef _ _ _ =>
    exact (className pool _).bind fun _ => (nameAndType pool _).bind fun _ => ok _
  | nameAndType _ _ => exact (utf8 pool _).bind fun _ => (utf8 pool _).bind fun _ => ok _
  | dynamic _ _ _ => exact (nameAndType pool _).bind fun _ => ok _
  | methodHandle _ _ => exact absurd rfl h

end Settled

theorem index_of_get_eq_error {u : Unresolved} (h : pool.get index = .error u) :
    u.index = index := by
  unfold get at h
  split at h <;> cases h <;> rfl

/-- A chain that never returns is one that ends. -/
theorem Reachable.neverReturns_iff (h : pool.Reachable) :
    pool.NeverReturns index ↔ ∃ links last, pool.EndsAfter index links last := by
  constructor
  · intro hnever
    apply exists_end (n := pool.slots.size)
    rw [← Option.not_isSome_iff_eq_none]
    intro hsome
    -- as many links as there are slots are too many for a chain that never returns
    exact Nat.lt_irrefl _ (hnever.lt_size h hsome)
  · rintro ⟨links, last, hfollow, hlast⟩
    apply neverReturns_of_end (n := links + 1)
    rw [follow_add, hfollow, Option.bind_some, follow, hlast]
    rfl

theorem EndsAfter.lt_size (h : pool.EndsAfter index links last) (hpool : pool.Reachable) :
    links < pool.slots.size := by
  have hnever := hpool.neverReturns_iff.2 ⟨links, last, h⟩
  exact hnever.lt_size hpool (by rw [h.reaches]; rfl)

theorem EndsAfter.describeWithin_eq (h : pool.EndsAfter index links last) {bound : Nat}
    (hle : links ≤ bound) :
    pool.describeWithin bound index =
      (pool.describeWithin 0 last).map (handleNames (pool.kindsAlong links index) ++ ·) := by
  obtain ⟨spare, rfl⟩ := Nat.exists_eq_add_of_le hle
  exact h.describeWithin_add spare

/-- No chain of handles comes back to where it started. -/
def Acyclic (pool : Pool) : Prop :=
  ∀ index links, pool.follow (links + 1) index ≠ some index

theorem Acyclic.neverReturns (h : pool.Acyclic) (index : UInt16) : pool.NeverReturns index := by
  have hnot {m n : Nat} {visited : UInt16} (hm : pool.follow m index = some visited)
      (hn : pool.follow n index = some visited) : ¬ m < n := by
    intro hlt
    obtain ⟨k, rfl⟩ := Nat.exists_eq_add_of_lt hlt
    rw [Nat.add_assoc, follow_add, hm, Option.bind_some] at hn
    exact h visited k hn
  intro m n visited hm hn
  exact Nat.le_antisymm (Nat.le_of_not_lt (hnot hn hm)) (Nat.le_of_not_lt (hnot hm hn))

/-- Handles that refer back only form no cycle. -/
theorem acyclic_of_backward
    (h : ∀ index kind target, pool.get index = .ok (.methodHandle kind target) → target < index) :
    pool.Acyclic := by
  -- every link leads to a smaller index, and so do several
  have hlt (links : Nat) (index visited : UInt16)
      (hfollow : pool.follow (links + 1) index = some visited) : visited < index := by
    induction links generalizing index with
    | zero =>
      obtain ⟨⟨kind, target⟩, hhandle, htarget⟩ := Option.bind_eq_some_iff.1 hfollow
      cases htarget
      exact h index kind _ (handle?_eq_some.1 hhandle)
    | succ links ih =>
      obtain ⟨⟨kind, target⟩, hhandle, hrest⟩ := Option.bind_eq_some_iff.1 hfollow
      exact UInt16.lt_trans (ih target hrest) (h index kind target (handle?_eq_some.1 hhandle))
  exact fun index links hreturn => UInt16.lt_irrefl index (hlt links index index hreturn)

theorem Acyclic.settled_describe (h : pool.Acyclic) (hpool : pool.Reachable) (index : UInt16) :
    Settled (pool.describe index) := by
  obtain ⟨links, last, hend⟩ := hpool.neverReturns_iff.1 (h.neverReturns index)
  rw [describe_eq, hend.describeWithin_eq (Nat.le_of_lt (hend.lt_size hpool))]
  refine Settled.map ?_
  cases hget : pool.get last with
  | error u =>
    rw [describeWithin_of_not_get hget]
    intro u' hu'
    cases hu'
    exact Settled.get pool last u hget
  | ok entry =>
    rw [describeWithin_of_get hget]
    exact Settled.describeWithin (hend.kind_ne hget) pool

/-- A chain of handles that comes to no index twice ends after fewer links than the pool has slots,
and just so many are followed. The description is then that of the last entry behind the names of
the handles; it fails as the last entry does, or for the last index if that has none. A chain that
returns uses up any number of links. -/
theorem describe_of_chain (h : pool.Reachable) (index : UInt16) :
    (pool.NeverReturns index ↔ ∃ links last, pool.EndsAfter index links last) ∧
    (∀ links last, pool.EndsAfter index links last →
      links ≤ pool.count.toNat - 1 ∧
      (∀ bound < links, ∃ u, pool.describeWithin bound index = .error u ∧ u.reason = .endless) ∧
      (∀ bound ≥ links, pool.describeWithin bound index = pool.describe index) ∧
      (∀ entry, pool.get last = .ok entry →
        (∀ text, entry.describeWithin pool 0 = .ok text →
          pool.describe index = .ok (handleNames (pool.kindsAlong links index) ++ text)) ∧
        ∀ u, entry.describeWithin pool 0 = .error u →
          pool.describe index = .error u ∧ u.reason ≠ .endless) ∧
      ∀ u, pool.get last = .error u →
        pool.describe index = .error u ∧ u.index = last ∧ u.reason ≠ .endless) ∧
    (¬ pool.NeverReturns index →
      ∀ bound, ∃ u, pool.describeWithin bound index = .error u ∧ u.reason = .endless) := by
  refine ⟨h.neverReturns_iff, ?_, ?_⟩
  · intro links last hend
    have hlt := hend.lt_size h
    have hdescribe := hend.describeWithin_eq (Nat.le_of_lt hlt)
    rw [← describe_eq] at hdescribe
    refine ⟨?_, ?_, ?_, ?_, ?_⟩
    · rw [toNat_count h.size_le]
      omega
    · intro bound hbound
      -- too few links end on the way, at a handle
      exact describeWithin_of_isSome (isSome_follow_of_le hbound (by rw [hend.reaches]; rfl))
    · intro bound hbound
      rw [hend.describeWithin_eq hbound, hdescribe]
    · intro entry hget
      rw [hdescribe, describeWithin_of_get hget]
      constructor
      · intro text htext
        rw [htext]
        rfl
      · intro u hu
        rw [hu]
        exact ⟨rfl, Settled.describeWithin (hend.kind_ne hget) pool u hu⟩
    · intro u hget
      rw [hdescribe, describeWithin_of_not_get hget]
      exact ⟨rfl, index_of_get_eq_error hget, Settled.get pool last u hget⟩
  · intro hreturns bound
    apply describeWithin_of_isSome
    rw [← Option.ne_none_iff_isSome]
    intro hnone
    -- a chain with an end would not return
    exact hreturns (neverReturns_of_end hnone)

/-- Two handles on the way to a text, one to an index without an entry, and one to itself. -/
def handlePool : Pool :=
  afterAll [.utf8 "m", .verbatim (.methodHandle 6 1), .verbatim (.methodHandle 5 2),
    .verbatim (.methodHandle 1 9), .verbatim (.methodHandle 2 5)] empty

theorem describe_of_chain_handlePool :
    handlePool.Reachable ∧
    handlePool.describe 3 = .ok "REF_invokeVirtual REF_invokeStatic m" ∧
    (∃ u, handlePool.describe 4 = .error u ∧ u.index = 9 ∧ u.reason ≠ .endless) ∧
    ∀ bound, ∃ u, handlePool.describeWithin bound 5 = .error u ∧ u.reason = .endless := by
  have hslots : handlePool.slots = #[none, some (.utf8 [0x6d] "m"), some (.methodHandle 6 1),
      some (.methodHandle 5 2), some (.methodHandle 1 9), some (.methodHandle 2 5)] := by
    decide +kernel
  have hpool : handlePool.Reachable := .add (.verbatim (.methodHandle 2 5))
    (.add (.verbatim (.methodHandle 1 9)) (.add (.verbatim (.methodHandle 5 2))
      (.add (.verbatim (.methodHandle 6 1)) (.add (.utf8 "m") .empty))))
  have htext : handlePool.EndsAfter 3 2 1 := ⟨by decide +kernel, by decide +kernel⟩
  have hdead : handlePool.EndsAfter 4 1 9 := ⟨by decide +kernel, by decide +kernel⟩
  have hreturns : ¬ handlePool.NeverReturns 5 := by
    intro hnever
    have hself : handlePool.follow 1 5 = some 5 := by decide +kernel
    cases hnever 0 1 5 rfl hself
  refine ⟨hpool, ?_, ?_, (describe_of_chain hpool 5).2.2 hreturns⟩
  · obtain ⟨-, hends, -⟩ := describe_of_chain hpool 3
    obtain ⟨-, -, -, hlive, -⟩ := hends 2 1 htext
    have hentry : handlePool.get 1 = .ok (.utf8 [0x6d] "m") := get_eq_ok.2 (by rw [hslots]; rfl)
    have hnames : handleNames (handlePool.kindsAlong 2 3) =
        "REF_invokeVirtual REF_invokeStatic " := by decide +kernel
    rw [(hlive _ hentry).1 "m" rfl, hnames]
    rfl
  · obtain ⟨-, hends, -⟩ := describe_of_chain hpool 4
    obtain ⟨-, -, -, -, hnone⟩ := hends 1 9 hdead
    cases hget : handlePool.get 9 with
    | ok entry => rw [get_eq_ok, hslots] at hget; cases hget
    | error u => exact ⟨u, hnone u hget⟩

end Pool

end ClassFormat
