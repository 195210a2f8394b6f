import ClassFormat.Pool.Intern
import ClassFormat.Pool.Layout
import ClassFormat.Proofs.Layout

namespace ClassFormat

namespace Entry

/-- The text of a `utf8` entry is that of its bytes. -/
def HasOwnText : Entry → Prop
  | .utf8 bytes text => text = Modified.decode bytes
  | _ => True

instance : DecidablePred HasOwnText
  | .utf8 bytes text => inferInstanceAs (Decidable (text = Modified.decode bytes))
  | .integer _ | .float _ | .long _ | .double _ | .classRef _ | .stringRef _ | .memberRef .. |
    .nameAndType .. | .methodHandle .. | .methodType _ | .dynamic .. | .moduleRef _ |
    .packageRef _ => isTrue trivial

theorem ofTag?_eq_some {tag : UInt8} {kind : Kind} :
    Kind.ofTag? tag = some kind ↔ kind.tag = tag := by
  constructor
  · intro h
    have := List.find?_some h
    simpa using this
  · rintro rfl
    exact Kind.ofTag?_tag kind

theorem readBody_exact (kind : Kind) :
    (readBody kind).Exact (.of encodeBody fun entry =>
      entry.kind = kind ∧ entry.check = .ok () ∧ entry.HasOwnText) := by
  cases kind with
  | utf8 =>
    refine ((Reader.Exact.number 2).bind fun size => (Reader.Exact.take size).bind fun taken =>
      .pure (ofBytes taken)).congr fun bytes entry => ?_
    constructor
    · rintro ⟨_, _, ⟨rfl, hlt⟩, _, ⟨taken, _, ⟨rfl, rfl⟩, _, ⟨rfl, rfl⟩, rfl⟩, rfl⟩
      exact ⟨by simp [encodeBody, ofBytes], rfl, inContext_eq_ok.2 (checkCount16_eq_ok.2 hlt), rfl⟩
    · rintro ⟨rfl, hkind, hcheck, htext⟩
      cases entry <;> cases hkind
      rename_i taken text
      have hlt := checkCount16_eq_ok.1 (inContext_eq_ok.1 hcheck)
      exact ⟨_, _, ⟨rfl, hlt⟩, _, ⟨taken, _, ⟨rfl, rfl⟩, [], ⟨rfl, congrArg _ htext⟩, rfl⟩,
        by simp [encodeBody]⟩
  | integer =>
    exact Reader.Exact.i32.variant (by simp [encodeBody, Entry.kind, check, HasOwnText])
      fun entry h => by cases entry <;> cases h.1; exact ⟨_, rfl⟩
  | float =>
    exact Reader.Exact.u32.variant (by simp [encodeBody, Entry.kind, check, HasOwnText])
      fun entry h => by cases entry <;> cases h.1; exact ⟨_, rfl⟩
  | long =>
    exact Reader.Exact.i64.variant (by simp [encodeBody, Entry.kind, check, HasOwnText])
      fun entry h => by cases entry <;> cases h.1; exact ⟨_, rfl⟩
  | double =>
    exact Reader.Exact.u64.variant (by simp [encodeBody, Entry.kind, check, HasOwnText])
      fun entry h => by cases entry <;> cases h.1; exact ⟨_, rfl⟩
  | classRef | stringRef | methodType | moduleRef | packageRef =>
    exact Reader.Exact.u16.variant (by simp [encodeBody, Entry.kind, check, HasOwnText])
      fun entry h => by cases entry <;> cases h.1; exact ⟨_, rfl⟩
  | memberRef | nameAndType | dynamic =>
    exact Reader.Exact.u16.variant₂ Reader.Exact.u16
      (by simp [encodeBody, Entry.kind, check, HasOwnText])
      fun entry h => by cases entry <;> cases h.1; exact ⟨_, _, rfl⟩
  | methodHandle =>
    exact Reader.Exact.u8.variant₂ Reader.Exact.u16
      (by simp [encodeBody, Entry.kind, check, HasOwnText])
      fun entry h => by cases entry <;> cases h.1; exact ⟨_, _, rfl⟩

theorem read_exact (index : UInt16) :
    (read index).Exact (.of encode fun entry => entry.check = .ok () ∧ entry.HasOwnText) := by
  refine .tagged (fun entry => by simp [encode]) fun tag => ?_
  have hcons (bytes : Bytes) (entry : Entry) :
      tag :: bytes = entry.encode ↔ entry.kind.tag = tag ∧ bytes = entry.encodeBody := by
    simp [encode, eq_comm]
  simp only [hcons, ← ofTag?_eq_some]
  cases h : Kind.ofTag? tag with
  | none => exact (Reader.Exact.fail _).congr (by simp)
  | some kind => exact (readBody_exact kind).congr (by simp [eq_comm]; grind)

theorem lawful (index : UInt16) : (layout index).Lawful HasOwnText where
  read := read_exact index
  length entry := by
    cases entry with
    | utf8 bytes text =>
      simp only [layout, encode, encodeBody, length, List.length_append, word8_eq,
        List.length_singleton, length_bigEndian]
    | _ => simp [layout, encode, encodeBody, length]

end Entry

namespace Pool

/-- The slots that entries take up, one after the other. -/
def spread : List Entry → List (Option Entry)
  | [] => []
  | entry :: entries =>
    if entry.isWide then some entry :: none :: spread entries else some entry :: spread entries

/-- The slots are those of some entries, behind the first slot, which is unused. -/
def WellFormed (pool : Pool) : Prop := ∃ entries, pool.slots.toList = none :: spread entries

theorem spread_append (entries more : List Entry) :
    spread (entries ++ more) = spread entries ++ spread more := by
  induction entries with
  | nil => rfl
  | cons entry entries ih => simp only [List.cons_append, spread, ih]; split <;> rfl

theorem filterMap_spread (entries : List Entry) : (spread entries).filterMap id = entries := by
  induction entries with
  | nil => rfl
  | cons entry entries ih =>
    unfold spread
    split <;> exact congrArg (entry :: ·) ih

theorem mem_spread {entry : Entry} {entries : List Entry} :
    some entry ∈ spread entries ↔ entry ∈ entries := by
  induction entries with
  | nil => simp [spread]
  | cons first entries ih => unfold spread; split <;> simp [ih]

theorem entries_map_snd (pool : Pool) :
    pool.entries.map (·.2) = pool.slots.toList.filterMap id := by
  have hfst : pool.slots.toList = pool.slots.toList.zipIdx.map (·.1) := by simp
  rw [entries, List.map_filterMap, hfst, List.filterMap_map, ← hfst]
  congr 1
  funext slot
  cases h : slot.1 <;> simp [h]

theorem entries_of_slots {pool : Pool} {entries : List Entry}
    (h : pool.slots.toList = none :: spread entries) : pool.entries.map (·.2) = entries := by
  rw [entries_map_snd, h]
  exact filterMap_spread entries

def Fits (entry : Entry) : Prop := entry.check = .ok () ∧ entry.HasOwnText

/-- Behind `slots` come those of entries that take up all the `room`; the bytes are theirs. -/
def Fills (room : Nat) (slots : Array (Option Entry)) (bytes : Bytes)
    (filled : Array (Option Entry)) : Prop :=
  ∃ entries, filled.toList = slots.toList ++ spread entries ∧ (spread entries).length = room ∧
    bytes = entries.flatMap Entry.encode ∧ ∀ entry ∈ entries, Fits entry

theorem fills_zero {slots filled : Array (Option Entry)} {bytes : Bytes} :
    Fills 0 slots bytes filled ↔ bytes = [] ∧ filled = slots := by
  constructor
  · rintro ⟨entries, hfilled, hlen, rfl, -⟩
    cases entries with
    | nil => exact ⟨rfl, Array.toList_inj.1 (by simpa [spread] using hfilled)⟩
    | cons entry entries => unfold spread at hlen; split at hlen <;> simp at hlen
  · rintro ⟨rfl, rfl⟩
    exact ⟨[], by simp [spread], rfl, rfl, by simp⟩

theorem length_spread_cons (entry : Entry) (entries : List Entry) :
    (spread (entry :: entries)).length = entry.slots + (spread entries).length := by
  rw [spread, Entry.slots]
  split <;> simp only [List.length_cons] <;> omega

theorem toList_push (pool : Pool) (entry : Entry) :
    (pool.push entry).slots.toList = pool.slots.toList ++ spread [entry] := by
  unfold push spread
  split <;> simp [spread]

theorem fills_pos {room : Nat} (hroom : 0 < room) {slots filled : Array (Option Entry)}
    {bytes : Bytes} :
    Fills room slots bytes filled ↔ ∃ entry, Fits entry ∧ entry.slots ≤ room ∧ ∃ rest,
      Fills (room - entry.slots) (push ⟨slots⟩ entry).slots rest filled ∧
        bytes = entry.encode ++ rest := by
  constructor
  · rintro ⟨entries, hfilled, hlen, rfl, hfits⟩
    cases entries with
    -- there is room, so an entry comes first, and the others fill what it leaves
    | nil => simp [spread] at hlen; omega
    | cons entry entries =>
      obtain ⟨hentry, hentries⟩ := List.forall_mem_cons.1 hfits
      rw [length_spread_cons] at hlen
      refine ⟨entry, hentry, by omega, _, ⟨entries, ?_, by omega, rfl, hentries⟩, by simp⟩
      rw [hfilled, toList_push, List.append_assoc, ← spread_append, List.singleton_append]
  · rintro ⟨entry, hentry, hle, _, ⟨entries, hfilled, hlen, rfl, hentries⟩, rfl⟩
    refine ⟨entry :: entries, ?_, ?_, by simp, List.forall_mem_cons.2 ⟨hentry, hentries⟩⟩
    · rw [hfilled, toList_push, List.append_assoc, ← spread_append, List.singleton_append]
    · rw [length_spread_cons]
      omega

theorem readSlots_exact (room : Nat) (slots : Array (Option Entry)) :
    (readSlots room slots).Exact (Fills room slots) := by
  have hentry (slots : Array (Option Entry)) :
      (readSlots.readEntry slots).Exact (.of Entry.encode Fits) :=
    (Entry.read_exact _).within _
  induction room, slots using readSlots.induct with
  | case1 slots => exact (Reader.Exact.pure slots).congr fun bytes filled => fills_zero.symm
  | case2 slots =>
    -- the last slot alone has no room for an entry that takes up two
    refine ((hentry slots).bind fun entry => .ite (fun _ => .fail _) fun _ => .pure _).congr
      fun bytes filled => ?_
    rw [fills_pos Nat.one_pos]
    refine exists_congr fun entry => ?_
    by_cases hw : entry.isWide <;> simp [hw, Entry.slots, push, fills_zero, and_assoc]
  | case3 room slots ih ih' =>
    refine ((hentry slots).bind fun entry => .ite (fun _ => ih entry) fun _ => ih' entry).congr
      fun bytes filled => ?_
    rw [fills_pos (Nat.succ_pos _)]
    refine exists_congr fun entry => ?_
    by_cases hw : entry.isWide <;> simp [hw, Entry.slots, push, and_assoc]

def HasOwnTexts (pool : Pool) : Prop := ∀ slot ∈ pool.slots, ∀ entry ∈ slot, entry.HasOwnText

instance (pool : Pool) : Decidable pool.HasOwnTexts :=
  inferInstanceAs (Decidable (∀ slot ∈ pool.slots, ∀ entry ∈ slot, entry.HasOwnText))

section Slots

variable {pool : Pool} {entries : List Entry} (h : pool.slots.toList = none :: spread entries)

include h

theorem size_of_slots : pool.slots.size = (spread entries).length + 1 := by
  rw [← Array.length_toList, h, List.length_cons]

theorem encode_of_slots :
    pool.encode = bigEndian 2 pool.slots.size ++ entries.flatMap Entry.encode := by
  rw [encode, ← entries_of_slots h, List.flatMap_map]

theorem check_of_slots :
    pool.check = .ok () ↔ pool.slots.size < 256 ^ 2 ∧ ∀ entry ∈ entries, entry.check = .ok () := by
  have hall : (∀ e ∈ pool.entries, e.2.check = .ok ()) ↔
      ∀ entry ∈ entries, entry.check = .ok () := by
    rw [← entries_of_slots h, List.forall_mem_map]
  rw [check, check_then_eq_ok, inContext_eq_ok, checkCount16_eq_ok, List.forM_eq_forM, forM_eq_ok]
  simp only [inContext_eq_ok, hall]

theorem mem_of_slots (entry : Entry) : some entry ∈ pool.slots ↔ entry ∈ entries := by
  rw [← Array.mem_toList_iff, h, List.mem_cons, mem_spread]
  simp

theorem hasOwnTexts_of_slots : pool.HasOwnTexts ↔ ∀ entry ∈ entries, entry.HasOwnText := by
  simp only [HasOwnTexts, Option.mem_def, ← mem_of_slots h]
  exact ⟨fun hall entry hslot => hall _ hslot entry rfl,
    fun hall slot hslot entry heq => hall entry (heq ▸ hslot)⟩

end Slots

theorem read_exact :
    read.Exact (.of encode fun pool =>
      pool.check = .ok () ∧ pool.WellFormed ∧ pool.HasOwnTexts) := by
  refine ((Reader.Exact.number 2).bind fun count => .ite (fun _ => .fail _) fun _ =>
    (readSlots_exact (count - 1) #[none]).bind fun slots =>
      (Reader.Exact.record (.pool count)).bind fun _ => .pure _).congr fun bytes pool => ?_
  constructor
  · rintro ⟨count, _, ⟨rfl, hlt⟩, _, hrest, rfl⟩
    -- a count of zero is refused: it would leave out the first slot
    by_cases hzero : count = 0
    · simp [hzero] at hrest
    · rw [if_neg hzero] at hrest
      obtain ⟨slots, _, ⟨entries, hslots, hlen, rfl, hfits⟩, _,
        ⟨_, _, ⟨rfl, -⟩, _, ⟨rfl, rfl⟩, rfl⟩, rfl⟩ := hrest
      have hsize : slots.size = (spread entries).length + 1 := size_of_slots hslots
      have hcount : slots.size = count := by omega
      refine ⟨?_, ?_, ⟨entries, hslots⟩, ?_⟩
      · rw [encode_of_slots hslots, hcount, List.append_nil, List.append_nil]
      · rw [check_of_slots hslots, hcount]
        exact ⟨hlt, fun entry hmem => (hfits entry hmem).1⟩
      · rw [hasOwnTexts_of_slots hslots]
        exact fun entry hmem => (hfits entry hmem).2
  · rintro ⟨rfl, hcheck, ⟨entries, hslots⟩, htexts⟩
    obtain ⟨hlt, hchecks⟩ := (check_of_slots hslots).1 hcheck
    have hsize := size_of_slots hslots
    refine ⟨pool.slots.size, _, ⟨rfl, hlt⟩, entries.flatMap Entry.encode, ?_,
      encode_of_slots hslots⟩
    rw [if_neg (by omega)]
    have hfits (entry : Entry) (hmem : entry ∈ entries) : Fits entry :=
      ⟨hchecks entry hmem, (hasOwnTexts_of_slots hslots).1 htexts entry hmem⟩
    exact ⟨pool.slots, _, ⟨entries, hslots, by omega, rfl, hfits⟩, [],
      ⟨(), [], ⟨rfl, trivial⟩, [], ⟨rfl, rfl⟩, rfl⟩, by simp⟩

theorem length_encode (pool : Pool) : pool.encode.length = pool.length := by
  have hentry (entry : UInt16 × Entry) : entry.2.encode.length = entry.2.length :=
    (Entry.lawful entry.1).length entry.2
  rw [encode, length, List.length_append, length_bigEndian, Layout.length_flatMap hentry]

/-- A call that adds a constant, with what it depends on. -/
inductive Addition where
  | verbatim (entry : Entry)
  | utf8 (text : String)
  | classRef (name : String)
  | string (value : String)
  | integer (value : Int32)
  | float (bits : UInt32)
  | long (value : Int64)
  | double (bits : UInt64)
  | nameAndType (name descriptor : String)
  | member (kind : MemberKind) (owner name descriptor : String)

def Addition.edit : Addition → Edit UInt16
  | .verbatim entry => intern entry
  | .utf8 text => addUtf8 text
  | .classRef name => addClass name
  | .string value => addString value
  | .integer value => addInteger value
  | .float bits => addFloat bits
  | .long value => addLong value
  | .double bits => addDouble bits
  | .nameAndType name descriptor => addNameAndType name descriptor
  | .member kind owner name descriptor => addMember kind owner name descriptor

/-- The texts that a call is given; each of them gets an entry. -/
def Addition.texts : Addition → List String
  | .verbatim _ | .integer _ | .float _ | .long _ | .double _ => []
  | .utf8 text | .classRef text | .string text => [text]
  | .nameAndType name descriptor => [name, descriptor]
  | .member _ owner name descriptor => [owner, name, descriptor]

/-- The entries that a call is given, itself or as texts, are `valid`. -/
def Addition.Adds (valid : Entry → Prop) : Addition → Prop
  | .verbatim entry => valid entry
  | addition => ∀ text ∈ addition.texts, valid (.ofText text)

theorem Addition.adds_of_forall {valid : Entry → Prop} (h : ∀ entry, valid entry)
    (addition : Addition) : addition.Adds valid := by
  cases addition with
  | verbatim entry => exact h entry
  | _ => exact fun text _ => h (.ofText text)

/-- The pool that an edit leaves, also one that fails. -/
def after {α : Type} (edit : Edit α) (pool : Pool) : Pool :=
  match edit pool with
  | .ok _ pool => pool
  | .error _ pool => pool

/-- The pools that reading and adding give, with additions that fail half way. -/
inductive Reachable : Pool → Prop
  | empty : Reachable empty
  | read {c c' : Cursor} {pool : Pool} (h : Pool.read c = .ok pool c') : Reachable pool
  | add (addition : Addition) {pool : Pool} (h : Reachable pool) :
    Reachable (after addition.edit pool)

theorem after_bind {α β : Type} {P : Pool → Prop} {edit : Edit α} {next : α → Edit β}
    (hedit : ∀ pool, P pool → P (after edit pool))
    (hnext : ∀ a pool, P pool → P (after (next a) pool)) (pool : Pool) (h : P pool) :
    P (after (edit >>= next) pool) := by
  have hfirst := hedit pool h
  change P (match EStateM.bind edit next pool with | .ok _ pool => pool | .error _ pool => pool)
  unfold after at hfirst
  unfold EStateM.bind
  cases hedit : edit pool with
  | ok a pool' =>
    rw [hedit] at hfirst
    exact hnext a pool' hfirst
  | error failure pool' =>
    rw [hedit] at hfirst
    exact hfirst

/-- What interning keeps is kept by every addition, for each is made of these. It is enough if the
entries are `valid`, and all but texts are. -/
theorem after_addition_of {P : Pool → Prop} {valid : Entry → Prop}
    (hintern : ∀ entry, valid entry → ∀ pool, P pool → P (after (intern entry) pool))
    (hother : ∀ entry, entry.kind ≠ .utf8 → valid entry) {addition : Addition}
    (hadds : addition.Adds valid) {pool : Pool} (h : P pool) : P (after addition.edit pool) := by
  have hkind (entry : Entry) (hentry : entry.kind ≠ .utf8) :
      ∀ pool, P pool → P (after (intern entry) pool) := hintern entry (hother entry hentry)
  -- every edit is a sequence of internings, of texts first
  have hclass (name : String) (hname : valid (.ofText name)) :
      ∀ pool, P pool → P (after (addClass name) pool) :=
    after_bind (hintern _ hname) fun _ => hkind _ (by simp [Entry.kind])
  have hnames (name descriptor : String) (hname : valid (.ofText name))
      (hdescriptor : valid (.ofText descriptor)) :
      ∀ pool, P pool → P (after (addNameAndType name descriptor) pool) :=
    after_bind (hintern _ hname) fun _ => after_bind (hintern _ hdescriptor) fun _ =>
      hkind _ (by simp [Entry.kind])
  cases addition with
  | verbatim entry => exact hintern entry hadds pool h
  | utf8 text => exact hintern _ (hadds text (by simp [Addition.texts])) pool h
  | classRef name => exact hclass name (hadds name (by simp [Addition.texts])) pool h
  | string value =>
    exact after_bind (hintern _ (hadds value (by simp [Addition.texts])))
      (fun _ => hkind _ (by simp [Entry.kind])) pool h
  | nameAndType name descriptor =>
    exact hnames name descriptor (hadds name (by simp [Addition.texts]))
      (hadds descriptor (by simp [Addition.texts])) pool h
  | member kind owner name descriptor =>
    exact after_bind (hclass owner (hadds owner (by simp [Addition.texts])))
      (fun _ => after_bind (hnames name descriptor (hadds name (by simp [Addition.texts]))
        (hadds descriptor (by simp [Addition.texts])))
          fun _ => hkind _ (by simp [Entry.kind])) pool h
  | integer value | float value | long value | double value =>
    exact hkind _ (by simp [Entry.kind]) pool h

theorem after_addition {P : Pool → Prop}
    (hintern : ∀ entry pool, P pool → P (after (intern entry) pool)) (addition : Addition)
    {pool : Pool} (h : P pool) : P (after addition.edit pool) :=
  @after_addition_of P (fun _ => True) (fun entry _ => hintern entry) (fun _ _ => trivial) addition
    (addition.adds_of_forall fun _ => trivial) pool h

/-- Interning leaves the pool as it is, or puts the entry behind the others if there is room. -/
theorem after_intern (entry : Entry) (pool : Pool) :
    after (intern entry) pool = pool ∨
      pool.slots.size + entry.slots ≤ maxSlots ∧ after (intern entry) pool = pool.push entry := by
  unfold after intern
  cases pool.indexOf? entry with
  | some index => exact .inl rfl
  | none =>
    by_cases hfull : pool.slots.size + entry.slots > maxSlots
    · exact .inl (by simp [hfull])
    · exact .inr ⟨Nat.le_of_not_lt hfull, by simp [hfull]⟩

theorem WellFormed.push {pool : Pool} (h : pool.WellFormed) (entry : Entry) :
    (pool.push entry).WellFormed := by
  obtain ⟨entries, hslots⟩ := h
  exact ⟨entries ++ [entry], by rw [toList_push, hslots, spread_append, List.cons_append]⟩

theorem WellFormed.intern {pool : Pool} (h : pool.WellFormed) (entry : Entry) :
    (after (intern entry) pool).WellFormed := by
  rcases after_intern entry pool with hsame | ⟨-, hpush⟩
  · rwa [hsame]
  · rw [hpush]
    exact h.push entry

/-- What holds at first and after reading, and is kept by interning, holds of all pools that arise.
-/
theorem Reachable.invariant {P : Pool → Prop} (hempty : P Pool.empty)
    (hread : ∀ pool, pool.check = .ok () → pool.WellFormed → P pool)
    (hintern : ∀ entry pool, P pool → P (after (intern entry) pool)) {pool : Pool}
    (h : pool.Reachable) : P pool := by
  induction h with
  | empty => exact hempty
  | read hread' =>
    obtain ⟨_, ⟨rfl, hcheck, hwell, -⟩, -⟩ := read_exact.sound hread'
    exact hread _ hcheck hwell
  | add addition _ ih => exact after_addition hintern addition ih

theorem Reachable.wellFormed {pool : Pool} (h : pool.Reachable) : pool.WellFormed :=
  h.invariant ⟨[], rfl⟩ (fun _ _ hwell => hwell) fun entry _ hwell => hwell.intern entry

end Pool

end ClassFormat
