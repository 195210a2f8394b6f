import ClassFormat.Proofs.Instruction.RoundTrip

namespace ClassFormat

namespace Reader

variable {α β : Type}

/-- The reader fails only for want of input, and wherever that is, it names no place. -/
def OnlyTruncates (reader : Reader α) : Prop :=
  ∀ c failure c', reader c = .error failure c' → failure.IsTruncation ∧ failure.contexts = []

namespace OnlyTruncates

variable {reader : Reader α}

theorem take (count : Nat) : (Reader.take count).OnlyTruncates := by
  intro c failure c' h
  rw [take_apply] at h
  split at h
  · cases h
    exact ⟨⟨_, _, _, rfl⟩, rfl⟩
  · cases h

theorem pure (a : α) : (pure a : Reader α).OnlyTruncates := by
  intro c failure c' h
  cases h

theorem bind {next : α → Reader β} (h : reader.OnlyTruncates) (hn : ∀ a, (next a).OnlyTruncates) :
    (reader >>= next).OnlyTruncates := by
  intro c failure c' herror
  rcases bind_eq_error.1 herror with hr | ⟨a, c₁, -, hnext⟩
  · exact h c failure c' hr
  · exact hn a c₁ failure c' hnext

theorem map (h : reader.OnlyTruncates) (f : α → β) : OnlyTruncates (do return f (← reader)) :=
  h.bind fun a => pure (f a)

theorem number (width : Nat) : (Reader.number width).OnlyTruncates := (take width).map _
theorem u8 : Reader.u8.OnlyTruncates := (number 1).map _
theorem u16 : Reader.u16.OnlyTruncates := (number 2).map _
theorem i8 : Reader.i8.OnlyTruncates := u8.map _
theorem i16 : Reader.i16.OnlyTruncates := u16.map _
theorem i32 : Reader.i32.OnlyTruncates := ((number 4).map _).map _

theorem collect {item : Nat → Reader α} (h : ∀ index, (item index).OnlyTruncates)
    (count index : Nat) (read : List α) : (Reader.collect item count index read).OnlyTruncates := by
  induction count generalizing index read with
  | zero => exact pure _
  | succ count ih => exact (h index).bind fun a => ih (index + 1) (a :: read)

theorem times (h : reader.OnlyTruncates) (count : Nat) :
    (Reader.times count reader).OnlyTruncates := collect (fun _ => h) count 0 []

end OnlyTruncates

end Reader

namespace Instruction

/-- The bytes behind a switch opcode say what no switch can: a table that ends before it starts, or
a negative number of pairs. -/
def FlawedSwitch (offset : UInt32) (bytes : Bytes) : Kind → Flaw → Prop
  | .tableSwitch, flaw => ∃ reserved default low high rest,
    reserved.length = (switchPadding offset).toNat ∧
    bytes = reserved ++ (word32 (Int32.toUInt32 default) ++ (word32 (Int32.toUInt32 low) ++
      (word32 (Int32.toUInt32 high) ++ rest))) ∧
    high < low ∧ flaw = .switchBounds low high
  | .lookupSwitch, flaw => ∃ reserved default count rest,
    reserved.length = (switchPadding offset).toNat ∧
    bytes = reserved ++ (word32 (Int32.toUInt32 default) ++ (word32 (Int32.toUInt32 count) ++
      rest)) ∧
    count < 0 ∧ flaw = .negativePairs count
  | _, _ => False

section Operands

variable {offset : UInt32} {afterWide : Bool} {kind : Kind} {c c' : Cursor} {failure : Failure}
  {flaw : Flaw}

theorem rest_of_take {count : Nat} {taken : Bytes} (h : Reader.take count c = .ok taken c') :
    taken.length = count ∧ c.rest = taken ++ c'.rest := by
  obtain ⟨_, ⟨rfl, hlength⟩, hmove⟩ := (Reader.Exact.take count).sound h
  exact ⟨hlength, hmove.rest⟩

theorem rest_of_i32 {value : Int32} (h : Reader.i32 c = .ok value c') :
    c.rest = word32 value.toUInt32 ++ c'.rest := by
  obtain ⟨_, ⟨rfl, -⟩, hmove⟩ := Reader.Exact.i32.sound h
  exact hmove.rest

theorem tableSwitch_error (h : readOperands offset afterWide .tableSwitch c = .error failure c') :
    failure.IsTruncation ∧ failure.contexts = [] ∨
      ∃ flaw, failure = .ofFlaw flaw ∧ FlawedSwitch offset c.rest .tableSwitch flaw := by
  -- part by part: either this part is cut short, or the next one fails
  rcases Reader.bind_eq_error.1 h with h | ⟨reserved, c₁, hreserved, h⟩
  · exact .inl (Reader.OnlyTruncates.take _ _ _ _ h)
  rcases Reader.bind_eq_error.1 h with h | ⟨default, c₂, hdefault, h⟩
  · exact .inl (Reader.OnlyTruncates.i32 _ _ _ h)
  rcases Reader.bind_eq_error.1 h with h | ⟨low, c₃, hlow, h⟩
  · exact .inl (Reader.OnlyTruncates.i32 _ _ _ h)
  rcases Reader.bind_eq_error.1 h with h | ⟨high, c₄, hhigh, h⟩
  · exact .inl (Reader.OnlyTruncates.i32 _ _ _ h)
  by_cases hbounds : high < low
  · rw [if_pos hbounds] at h
    cases h
    obtain ⟨hlength, hc⟩ := rest_of_take hreserved
    refine .inr ⟨_, rfl, reserved, default, low, high, c'.rest, hlength, ?_, hbounds, rfl⟩
    rw [hc, rest_of_i32 hdefault, rest_of_i32 hlow, rest_of_i32 hhigh]
  · rw [if_neg hbounds] at h
    exact .inl ((Reader.OnlyTruncates.i32.times _).map _ _ _ _ h)

theorem lookupSwitch_error (h : readOperands offset afterWide .lookupSwitch c = .error failure c') :
    failure.IsTruncation ∧ failure.contexts = [] ∨
      ∃ flaw, failure = .ofFlaw flaw ∧ FlawedSwitch offset c.rest .lookupSwitch flaw := by
  rcases Reader.bind_eq_error.1 h with h | ⟨reserved, c₁, hreserved, h⟩
  · exact .inl (Reader.OnlyTruncates.take _ _ _ _ h)
  rcases Reader.bind_eq_error.1 h with h | ⟨default, c₂, hdefault, h⟩
  · exact .inl (Reader.OnlyTruncates.i32 _ _ _ h)
  rcases Reader.bind_eq_error.1 h with h | ⟨count, c₃, hcount, h⟩
  · exact .inl (Reader.OnlyTruncates.i32 _ _ _ h)
  by_cases hnegative : count < 0
  · rw [if_pos hnegative] at h
    cases h
    obtain ⟨hlength, hc⟩ := rest_of_take hreserved
    refine .inr ⟨_, rfl, reserved, default, count, c'.rest, hlength, ?_, hnegative, rfl⟩
    rw [hc, rest_of_i32 hdefault, rest_of_i32 hcount]
  · rw [if_neg hnegative] at h
    have hpair : Reader.OnlyTruncates (do return (← Reader.i32, ← Reader.i32)) :=
      Reader.OnlyTruncates.i32.bind fun _ => Reader.OnlyTruncates.i32.map _
    exact .inl ((hpair.times _).map _ _ _ _ h)

/-- Operands are not read for want of input, or because they are those of no switch. -/
theorem readOperands_error (h : readOperands offset afterWide kind c = .error failure c') :
    failure.IsTruncation ∧ failure.contexts = [] ∨
      ∃ flaw, failure = .ofFlaw flaw ∧ FlawedSwitch offset c.rest kind flaw := by
  open Reader.OnlyTruncates in
  cases kind with
  | tableSwitch => exact tableSwitch_error h
  | lookupSwitch => exact lookupSwitch_error h
  | noOperand => exact .inl (pure _ _ _ _ h)
  | immediateByte =>
    cases afterWide with
    | false => exact .inl (u8.map _ _ _ _ h)
    | true => exact .inl (u16.map _ _ _ _ h)
  | immediateShort => exact .inl (u16.map _ _ _ _ h)
  | branch => exact .inl (i16.map _ _ _ _ h)
  | wideBranch => exact .inl (i32.map _ _ _ _ h)
  | increment =>
    cases afterWide with
    | false => exact .inl ((u8.bind fun _ => i8.map _) _ _ _ h)
    | true => exact .inl ((u16.bind fun _ => i16.map _) _ _ _ h)
  | invokeInterface => exact .inl ((u16.bind fun _ => u8.bind fun _ => u8.map _) _ _ _ h)
  | invokeDynamic => exact .inl ((u16.bind fun _ => u16.map _) _ _ _ h)
  | multiNewArray => exact .inl ((u16.bind fun _ => u8.map _) _ _ _ h)

theorem readOperands_of_flawed (afterWide : Bool) (h : FlawedSwitch offset c.rest kind flaw) :
    ∃ c', readOperands offset afterWide kind c = .error (.ofFlaw flaw) c' := by
  -- what the flaw says of the bytes is read word by word, up to the check that fails
  have hword (value : Int32) {d : Cursor} {rest : Bytes}
      (hd : d.rest = word32 value.toUInt32 ++ rest) :
      ∃ d', Reader.i32 d = .ok value d' ∧ d'.rest = rest := by
    obtain ⟨d', hread, hmove⟩ := Reader.Exact.i32.complete ⟨rfl, trivial⟩ hd
    exact ⟨d', hread, hmove.rest_eq hd⟩
  cases kind with
  | tableSwitch =>
    obtain ⟨reserved, default, low, high, rest, hlength, hc, hbounds, rfl⟩ := h
    obtain ⟨c₁, hreserved, hmove⟩ := (Reader.Exact.take _).complete ⟨rfl, hlength⟩ hc
    obtain ⟨c₂, hdefault, hc₂⟩ := hword default (hmove.rest_eq hc)
    obtain ⟨c₃, hlow, hc₃⟩ := hword low hc₂
    obtain ⟨c₄, hhigh, -⟩ := hword high hc₃
    refine ⟨c₄, ?_⟩
    rw [readOperands, Reader.bind_of_ok hreserved, Reader.bind_of_ok hdefault,
      Reader.bind_of_ok hlow, Reader.bind_of_ok hhigh, if_pos hbounds]
    rfl
  | lookupSwitch =>
    obtain ⟨reserved, default, count, rest, hlength, hc, hnegative, rfl⟩ := h
    obtain ⟨c₁, hreserved, hmove⟩ := (Reader.Exact.take _).complete ⟨rfl, hlength⟩ hc
    obtain ⟨c₂, hdefault, hc₂⟩ := hword default (hmove.rest_eq hc)
    obtain ⟨c₃, hcount, -⟩ := hword count hc₂
    refine ⟨c₃, ?_⟩
    rw [readOperands, Reader.bind_of_ok hreserved, Reader.bind_of_ok hdefault,
      Reader.bind_of_ok hcount, if_pos hnegative]
    rfl
  | _ => exact h.elim

end Operands

/-- Why the instruction at an offset is not read: its opcode is unknown; or it is a switch that says
what none can; or else the input ends inside it. -/
structure Unreadable (offset : UInt32) (opcode : UInt8) (operands : Bytes) (failure : Failure) :
    Prop where
  unknown : failure.cause = .unrecognizedOpcode opcode offset ↔ kindOf opcode = none
  known {kind : Kind} (h : kindOf opcode = some kind) :
    (∃ flaw, failure.cause = .malformed flaw ∧ FlawedSwitch offset operands kind flaw) ∨
      failure.IsTruncation ∧ ∀ flaw, ¬ FlawedSwitch offset operands kind flaw

theorem read_error {offset : UInt32} {afterWide : Bool} {c c' : Cursor} {failure : Failure}
    {opcode : UInt8} {operands : Bytes} (hc : c.rest = opcode :: operands)
    (h : read offset afterWide c = .error failure c') :
    failure.contexts = [] ∧ Unreadable offset opcode operands failure := by
  have hbyte : c.rest = word8 opcode ++ operands := by rw [hc, word8_eq, List.singleton_append]
  obtain ⟨c₁, hopcode, hmove⟩ := Reader.Exact.u8.complete ⟨rfl, trivial⟩ hbyte
  have hoperands : c₁.rest = operands := hmove.rest_eq hbyte
  rw [read, Reader.bind_of_ok hopcode] at h
  cases hkind : kindOf opcode with
  | none =>
    rw [hkind] at h
    cases h
    refine ⟨rfl, ⟨fun _ => hkind, fun _ => rfl⟩, ?_⟩
    intro kind hsome
    rw [hkind] at hsome
    cases hsome
  | some kind =>
    rw [hkind] at h
    have hfail : readOperands offset afterWide kind c₁ = .error failure c' := by
      rcases Reader.bind_eq_error.1 h with hfail | ⟨_, _, -, hdone⟩
      · exact hfail
      · cases hdone
    rw [← hoperands]
    -- a switch with a flaw is refused for it, so that a truncated one has none
    have hnone (htruncated : failure.IsTruncation) (flaw : Flaw) :
        ¬ FlawedSwitch offset c₁.rest kind flaw := by
      intro hflawed
      obtain ⟨_, hflaw⟩ := readOperands_of_flawed afterWide hflawed
      rw [hfail] at hflaw
      cases hflaw
      obtain ⟨_, _, _, hcause⟩ := htruncated
      cases hcause
    rcases readOperands_error hfail with ⟨htruncated, hcontexts⟩ | ⟨flaw, rfl, hflawed⟩
    · refine ⟨hcontexts, ?_, ?_⟩
      · obtain ⟨_, _, _, hcause⟩ := htruncated
        simp [hcause, hkind]
      · intro kind' hkind'
        cases hkind.symm.trans hkind'
        exact .inr ⟨htruncated, hnone htruncated⟩
    · refine ⟨rfl, by simp [Failure.ofFlaw, hkind], ?_⟩
      intro kind' hkind'
      cases hkind.symm.trans hkind'
      exact .inl ⟨flaw, rfl, hflawed⟩

section Streams

variable {offset : Nat} {afterWide : Bool} {bytes code first : Bytes} {x : Instruction}
  {xs ys : List Instruction}

/-- Whether what comes behind these instructions comes after a `wide`. -/
def wideAfter (afterWide : Bool) (xs : List Instruction) : Bool :=
  xs.foldl (fun _ x => x.opcode == wide) afterWide

theorem Stream.append_iff {piece : Nat → Bool → Bytes → Instruction → Prop} :
    Stream piece offset afterWide bytes (xs ++ ys) ↔ ∃ done rest, bytes = done ++ rest ∧
      Stream piece offset afterWide done xs ∧
      Stream piece (offset + done.length) (wideAfter afterWide xs) rest ys := by
  induction xs generalizing offset afterWide bytes with
  | nil =>
    constructor
    · intro h
      exact ⟨[], bytes, rfl, rfl, h⟩
    · rintro ⟨_, _, rfl, rfl, h⟩
      exact h
  | cons x xs ih =>
    simp only [List.cons_append, Stream, ih]
    constructor
    · rintro ⟨first, _, rfl, hpiece, done, rest, rfl, hdone, hrest⟩
      refine ⟨first ++ done, rest, by simp, ⟨first, done, rfl, hpiece, hdone⟩, ?_⟩
      rwa [List.length_append, ← Nat.add_assoc]
    · rintro ⟨_, rest, rfl, ⟨first, done, rfl, hpiece, hdone⟩, hrest⟩
      rw [List.length_append, ← Nat.add_assoc] at hrest
      exact ⟨first, done ++ rest, by simp, hpiece, done, rest, rfl, hdone, hrest⟩

/-- At an offset one instruction at most is read from the same input. -/
theorem Decoded.unique {first' rest rest' : Bytes} {x' : Instruction}
    (h : Decoded offset afterWide first x) (h' : Decoded offset afterWide first' x')
    (hsame : first ++ rest = first' ++ rest') : first = first' ∧ x = x' := by
  obtain ⟨c, hread, hmove⟩ :=
    (read_exact offset afterWide).complete (c := { rest := first ++ rest }) h rfl
  obtain ⟨c', hread', hmove'⟩ :=
    (read_exact offset afterWide).complete (c := { rest := first ++ rest }) h' hsame
  cases hread.symm.trans hread'
  have hlength : first.length = first'.length :=
    Nat.add_left_cancel (hmove.position.symm.trans hmove'.position)
  exact ⟨(List.append_inj hsame hlength).1, rfl⟩

/-- The instructions of a beginning of a code array are the first ones of the array. -/
theorem Stream.of_prefix {done rest : Bytes} (h : Stream Decoded offset afterWide (done ++ rest) xs)
    (hdone : Stream Decoded offset afterWide done ys) :
    ∃ zs, xs = ys ++ zs ∧
      Stream Decoded (offset + done.length) (wideAfter afterWide ys) rest zs := by
  induction ys generalizing offset afterWide done xs with
  | nil =>
    rw [Stream] at hdone
    rw [hdone] at h ⊢
    exact ⟨xs, rfl, h⟩
  | cons y ys ih =>
    obtain ⟨first, done, rfl, hpiece, hdone⟩ := hdone
    have hpos := hpiece.length_pos
    cases xs with
    | nil =>
      rw [Stream, List.append_assoc] at h
      -- an instruction has a byte, so the whole array cannot be shorter than its beginning
      rw [(List.append_eq_nil_iff.1 h).1] at hpos
      exact absurd hpos (Nat.lt_irrefl 0)
    | cons x xs =>
      obtain ⟨first', rest', hbytes, hpiece', hrest'⟩ := h
      rw [List.append_assoc] at hbytes
      -- both streams start with the same instruction
      obtain ⟨rfl, rfl⟩ := hpiece.unique hpiece' hbytes
      rw [← List.append_cancel_left hbytes] at hrest'
      obtain ⟨zs, rfl, hzs⟩ := ih hrest' hdone
      refine ⟨zs, rfl, ?_⟩
      rwa [List.length_append, ← Nat.add_assoc]

theorem Stream.offset_bounds (h : Stream Decoded offset afterWide code xs)
    (hlt : offset + code.length < 2 ^ 32) (hx : x ∈ xs) :
    offset ≤ x.offset.toNat ∧ x.offset.toNat < offset + code.length := by
  induction xs generalizing offset afterWide code with
  | nil => cases hx
  | cons y xs ih =>
    obtain ⟨first, rest, rfl, hpiece, hrest⟩ := h
    have hpos := hpiece.length_pos
    rw [List.length_append] at hlt ⊢
    rcases List.mem_cons.1 hx with rfl | hmem
    · rw [hpiece.offset_toNat (by omega)]
      omega
    · have := ih hrest (by omega) hmem
      omega

end Streams

theorem readAll_error {count : Nat} {afterWide : Bool} {before : List Instruction} {c c' : Cursor}
    {failure : Failure} (h : readAll count afterWide before c = .error failure c') :
    ∃ done xs d inner d', c.Moves done d ∧ Stream Decoded c.position afterWide done xs ∧
      d.rest ≠ [] ∧
      read (UInt32.ofNat d.position) (wideAfter afterWide xs) d = .error inner d' ∧
      failure = inner.within (.bytecodeOffset (UInt32.ofNat d.position)) := by
  induction count generalizing afterWide before c with
  | zero => cases h
  | succ count ih =>
    by_cases hnil : c.rest = []
    · rw [readAll_at_end hnil] at h
      cases h
    rw [readAll_succ hnil] at h
    rcases Reader.bind_eq_error.1 h with hfail | ⟨x, c₁, hfirst, hrest⟩
    · obtain ⟨inner, hread, rfl⟩ := Reader.within_eq_error.1 hfail
      exact ⟨[], [], c, inner, c', ⟨rfl, rfl⟩, rfl, hnil, hread, rfl⟩
    · obtain ⟨first, hpiece, hmove⟩ :=
        (read_exact c.position afterWide).sound (Reader.within_eq_ok.1 hfirst)
      obtain ⟨done, xs, d, inner, d', hmoves, hstream, hd, hread, hfailure⟩ := ih hrest
      rw [hmove.position] at hstream
      exact ⟨first ++ done, x :: xs, d, inner, d', hmove.trans hmoves,
        ⟨first, done, rfl, hpiece, hstream⟩, hd, hread, hfailure⟩

theorem decode_error {code : Bytes} {failure : Failure} (hlt : code.length ≤ 0xffffffff)
    (h : decode code = .error failure) :
    ∃ done xs d inner d', code = done ++ d.rest ∧ d.position = done.length ∧
      Stream Decoded 0 false done xs ∧ d.rest ≠ [] ∧
      read (UInt32.ofNat d.position) (wideAfter false xs) d = .error inner d' ∧
      failure = inner.within (.bytecodeOffset (UInt32.ofNat d.position)) := by
  rw [decode, if_pos (by omega), Reader.run] at h
  cases hall : readAll code.length false [] { rest := code } with
  | ok xs c =>
    rw [hall] at h
    cases h
  | error failure' c =>
    rw [hall] at h
    cases h
    obtain ⟨done, xs, d, inner, d', hmoves, hstream, hd, hread, hfailure⟩ := readAll_error hall
    exact ⟨done, xs, d, inner, d', hmoves.rest, by simpa using hmoves.position, hstream, hd, hread,
      hfailure⟩

section Beginnings

variable {code : Bytes} {xs ys : List Instruction} {k : Nat}

/-- A beginning that ends where an instruction starts is decoded. -/
theorem decode_take_of_mem (h : decode code = .ok xs) {x : Instruction} (hx : x ∈ xs) :
    ∃ ys, decode (code.take x.offset.toNat) = .ok ys := by
  obtain ⟨hlt, hstream⟩ := decode_eq_ok.1 h
  obtain ⟨ys, zs, rfl⟩ := List.append_of_mem hx
  obtain ⟨done, rest, rfl, hdone, first, more, rfl, hpiece, -⟩ := Stream.append_iff.1 hstream
  rw [List.length_append] at hlt
  rw [hpiece.offset_toNat (by omega), Nat.zero_add, List.take_left]
  exact ⟨ys, decode_eq_ok.2 ⟨by omega, hdone⟩⟩

/-- No other beginning is, and one that is has the instructions that start in it. -/
theorem of_decode_take (h : decode code = .ok xs) (hk : k ≤ code.length)
    (htake : decode (code.take k) = .ok ys) :
    (k = code.length ∨ ∃ x ∈ xs, x.offset.toNat = k) ∧ ys = xs.filter (·.offset.toNat < k) := by
  obtain ⟨hlt, hstream⟩ := decode_eq_ok.1 h
  obtain ⟨-, hdone⟩ := decode_eq_ok.1 htake
  have hlength : (code.take k).length = k := List.length_take_of_le hk
  have hall : Stream Decoded 0 false (code.take k ++ code.drop k) xs := by
    rwa [List.take_append_drop]
  -- the instructions of the beginning come first, the others start at `k` or later
  obtain ⟨zs, rfl, hrest⟩ := hall.of_prefix hdone
  rw [hlength, Nat.zero_add] at hrest
  constructor
  · cases zs with
    | nil =>
      rw [Stream, List.drop_eq_nil_iff] at hrest
      exact .inl (Nat.le_antisymm hk hrest)
    | cons z zs =>
      obtain ⟨first, rest, -, hpiece, -⟩ := hrest
      exact .inr ⟨z, by simp, hpiece.offset_toNat (by omega)⟩
  · have hbefore : ∀ y ∈ ys, decide (y.offset.toNat < k) = true := by
      intro y hy
      have := hdone.offset_bounds (by omega) hy
      exact decide_eq_true (by omega)
    have hbehind : ∀ z ∈ zs, ¬ decide (z.offset.toNat < k) = true := by
      intro z hz
      have := hrest.offset_bounds (by rw [List.length_drop]; omega) hz
      exact fun hlt => absurd (of_decide_eq_true hlt) (by omega)
    rw [List.filter_append, List.filter_eq_self.2 hbefore, List.filter_eq_nil_iff.2 hbehind,
      List.append_nil]

theorem truncation_of_decode_take (h : decode code = .ok xs) {failure : Failure}
    (htake : decode (code.take k) = .error failure) : failure.IsTruncation := by
  obtain ⟨hlt, hstream⟩ := decode_eq_ok.1 h
  have hle : (code.take k).length ≤ code.length := List.length_take_le' k code
  obtain ⟨done, ys, d, inner, d', hcut, hposition, hdone, hd, hread, rfl⟩ :=
    decode_error (by omega) htake
  have hcode : code = done ++ (d.rest ++ code.drop k) := by
    rw [← List.append_assoc, ← hcut, List.take_append_drop]
  rw [hcode] at hstream
  obtain ⟨zs, -, hrest⟩ := hstream.of_prefix hdone
  rw [Nat.zero_add, ← hposition] at hrest
  cases zs with
  | nil => exact absurd (List.append_eq_nil_iff.1 hrest).1 hd
  | cons z zs =>
    obtain ⟨first, more, hbytes, hpiece, -⟩ := hrest
    -- the instruction is read if all of it is there
    rcases List.append_eq_append_iff.1 hbytes with ⟨missing, hfirst, -⟩ | ⟨rest, hd', -⟩
    · by_cases hnil : missing = []
      · rw [hnil, List.append_nil] at hfirst
        obtain ⟨d₁, hok, -⟩ := (read_exact d.position _).complete (c := d) hpiece
          (by rw [hfirst, List.append_nil])
        rw [hread] at hok
        cases hok
      · obtain ⟨failure, d₁, hshort, htruncation⟩ :=
          (read_exact d.position _).short hpiece hfirst hnil
        rw [hread] at hshort
        cases hshort
        exact htruncation
    · obtain ⟨d₁, hok, -⟩ := (read_exact d.position _).complete hpiece hd'
      rw [hread] at hok
      cases hok

/-- Where an instruction is not read, no beginning that goes on is decoded. -/
theorem le_of_decode_take {done : Bytes} {d d' : Cursor} {failure : Failure}
    (hposition : d.position = done.length) (hdone : Stream Decoded 0 false done xs)
    (hd : d.rest ≠ [])
    (hread : read (UInt32.ofNat d.position) (wideAfter false xs) d = .error failure d')
    (htake : decode ((done ++ d.rest).take k) = .ok ys) : k ≤ done.length := by
  apply Nat.le_of_not_lt
  intro hlt
  have hcut : (done ++ d.rest).take k = done ++ d.rest.take (k - done.length) := by
    rw [List.take_append, List.take_of_length_le (Nat.le_of_lt hlt)]
  obtain ⟨-, hstream⟩ := decode_eq_ok.1 htake
  rw [hcut] at hstream
  obtain ⟨zs, -, hrest⟩ := hstream.of_prefix hdone
  rw [Nat.zero_add, ← hposition] at hrest
  cases zs with
  | nil =>
    rcases List.take_eq_nil_iff.1 hrest with hzero | hnil
    · omega
    · exact hd hnil
  | cons z zs =>
    obtain ⟨first, more, hbytes, hpiece, -⟩ := hrest
    -- the longer beginning would have the instruction whole, and then it would be read
    have hall : d.rest = first ++ (more ++ d.rest.drop (k - done.length)) := by
      rw [← List.append_assoc, ← hposition, ← hbytes, List.take_append_drop]
    obtain ⟨d₁, hok, -⟩ := (read_exact d.position _).complete hpiece hall
    rw [hread] at hok
    cases hok

end Beginnings

/-- Of a code array that is decoded, just the beginnings that end where an instruction starts are
decoded, into the instructions before, and the others are truncated. Decoding that fails tells where
the longest beginning ends that is decoded, and what is wrong with the instruction there. -/
theorem decode_of_prefix {code : Bytes} (hlength : code.length ≤ 0xffffffff) :
    (∀ xs, decode code = .ok xs → ∀ k ≤ code.length,
      ((∃ ys, decode (code.take k) = .ok ys) ↔
        k = code.length ∨ ∃ x ∈ xs, x.offset.toNat = k) ∧
      (∀ ys, decode (code.take k) = .ok ys → ys = xs.filter (·.offset.toNat < k)) ∧
      ∀ failure, decode (code.take k) = .error failure → failure.IsTruncation) ∧
    ∀ failure, decode code = .error failure → ∃ o opcode,
      (∃ ys, decode (code.take o) = .ok ys) ∧
      (∀ k, (∃ ys, decode (code.take k) = .ok ys) → k ≤ o) ∧
      code[o]? = some opcode ∧
      failure.contexts = [.bytecodeOffset (UInt32.ofNat o)] ∧
      Unreadable (UInt32.ofNat o) opcode (code.drop (o + 1)) failure := by
  constructor
  · intro xs h k hk
    refine ⟨⟨?_, ?_⟩, fun ys htake => (of_decode_take h hk htake).2,
      fun failure htake => truncation_of_decode_take h htake⟩
    · rintro ⟨ys, htake⟩
      exact (of_decode_take h hk htake).1
    · rintro (rfl | ⟨x, hx, rfl⟩)
      · rw [List.take_length]
        exact ⟨xs, h⟩
      · exact decode_take_of_mem h hx
  · intro failure h
    obtain ⟨done, xs, d, inner, d', rfl, hposition, hdone, hd, hread, rfl⟩ := decode_error hlength h
    obtain ⟨opcode, operands, hrest⟩ := List.exists_cons_of_ne_nil hd
    obtain ⟨hcontexts, hunreadable⟩ := read_error hrest hread
    rw [List.length_append] at hlength
    refine ⟨done.length, opcode, ⟨xs, ?_⟩, ?_, ?_, ?_, ?_⟩
    · rw [List.take_left]
      exact decode_eq_ok.2 ⟨by omega, hdone⟩
    · rintro k ⟨ys, htake⟩
      exact le_of_decode_take hposition hdone hd hread htake
    · rw [hrest, List.getElem?_append_right (Nat.le_refl _), Nat.sub_self]
      rfl
    · rw [← hposition]
      exact congrArg _ hcontexts
    · have hoperands : (done ++ d.rest).drop (done.length + 1) = operands := by
        rw [← List.drop_drop, List.drop_left, hrest, List.drop_one, List.tail_cons]
      rw [hoperands, ← hposition]
      exact ⟨hunreadable.unknown, hunreadable.known⟩

/-- A load, then a table switch from 5 to 1. -/
def backwardSwitch : Bytes := [0x1a, 0xaa, 9, 9, 0, 0, 0, 24, 0, 0, 0, 5, 0, 0, 0, 1]

/-- A cut behind a `wide`, one in the padding of a switch, and a switch that is refused. -/
theorem decode_of_prefix_paddedCode : paddedCode.length ≤ 0xffffffff ∧
    (∃ ys, decode (paddedCode.take 31) = .ok ys ∧
      ys = paddedInstructions.filter (·.offset.toNat < 31)) ∧
    (∃ failure, decode (paddedCode.take 3) = .error failure ∧ failure.IsTruncation) ∧
    backwardSwitch.length ≤ 0xffffffff ∧
    ∃ failure o opcode, decode backwardSwitch = .error failure ∧
      (∀ k, (∃ ys, decode (backwardSwitch.take k) = .ok ys) → k ≤ o) ∧
      backwardSwitch[o]? = some opcode ∧
      failure.contexts = [.bytecodeOffset (UInt32.ofNat o)] ∧
      Unreadable (UInt32.ofNat o) opcode (backwardSwitch.drop (o + 1)) failure := by
  have hdecode : decode paddedCode = .ok paddedInstructions :=
    eq_ok_of_toOption (by decide +kernel)
  have hlength : paddedCode.length ≤ 0xffffffff := by decide
  have hlength' : backwardSwitch.length ≤ 0xffffffff := by decide
  obtain ⟨hbeginnings, -⟩ := decode_of_prefix hlength
  obtain ⟨-, hstop⟩ := decode_of_prefix hlength'
  obtain ⟨hboundary, hinstructions, -⟩ := hbeginnings _ hdecode 31 (by decide)
  obtain ⟨hinside, -, htruncated⟩ := hbeginnings _ hdecode 3 (by decide)
  obtain ⟨ys, hys⟩ := hboundary.2 (.inr ⟨⟨31, 0x84, .wideIncrement 1 (-2)⟩, by decide, by decide⟩)
  refine ⟨hlength, ⟨ys, hys, hinstructions ys hys⟩, ?_, hlength', ?_⟩
  · cases hcut : decode (paddedCode.take 3) with
    | ok ys => exact absurd (hinside.1 ⟨ys, hcut⟩) (by decide)
    | error failure => exact ⟨failure, rfl, htruncated failure hcut⟩
  · cases hbackward : decode backwardSwitch with
    | ok xs =>
      have hnot : (decode backwardSwitch).toOption = none := by decide +kernel
      rw [hbackward] at hnot
      cases hnot
    | error failure =>
      obtain ⟨o, opcode, -, hrest⟩ := hstop failure hbackward
      exact ⟨failure, o, opcode, rfl, hrest⟩

end Instruction

end ClassFormat
