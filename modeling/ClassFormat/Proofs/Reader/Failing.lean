import ClassFormat.Layout
import ClassFormat.Proofs.Reader

namespace ClassFormat

/-- What can be wrong with `size` bytes that are read as a class file, where they say that its pool
has a number of `slots`. -/
def Cause.OfReading (slots size : Nat) : Cause → Prop
  | .truncatedInput offset needed available => available < needed ∧ offset + available ≤ size
  | .badMagic _ => True
  | .unknownPoolTag _ index => 1 ≤ index.toNat ∧ index.toNat < slots
  | .lengthMismatch _ declared computed => computed < declared
  | .trailingBytes count => 1 ≤ count ∧ count < size
  | .malformed _ => True
  | .unresolved _ | .unrecognizedOpcode .. => False
  | .misplacedInstruction .. | .uncoveredCode .. | .differentInstructions _ => False

theorem Cause.OfReading.mono {slots size larger : Nat} {cause : Cause}
    (h : cause.OfReading slots size) (hle : size ≤ larger) : cause.OfReading slots larger := by
  cases cause with
  | truncatedInput offset needed available => exact ⟨h.1, Nat.le_trans h.2 hle⟩
  | trailingBytes count => exact ⟨h.1, Nat.lt_of_lt_of_le h.2 hle⟩
  | _ => exact h

/-- No more than `room` bytes are left, and the input ends at `size` or before. -/
structure Cursor.Within (room size : Nat) (c : Cursor) : Prop where
  left : c.rest.length ≤ room
  ends : c.position + c.rest.length ≤ size

namespace Cursor.Within

variable {room size : Nat} {c : Cursor}

theorem mono {larger : Nat} (h : c.Within room size) (hle : room ≤ larger) : c.Within larger size :=
  ⟨Nat.le_trans h.left hle, h.ends⟩

theorem truncation (h : c.Within room size) {slots count : Nat} (hshort : c.rest.length < count) :
    (Reader.truncation c count).cause.OfReading slots size := ⟨hshort, h.ends⟩

theorem drop (h : c.Within room size) {count : Nat} (hlong : ¬ c.rest.length < count)
    (events : List Event) :
    Cursor.Within (room - count) size ⟨c.position + count, c.rest.drop count, events⟩ := by
  have hleft := h.left
  have hends := h.ends
  constructor
  · rw [List.length_drop]
    omega
  · change c.position + count + (c.rest.drop count).length ≤ size
    rw [List.length_drop]
    omega

end Cursor.Within

namespace Reader

variable {α β : Type} {slots room size : Nat}

/-- From a cursor that satisfies `pre` the reader comes to one that satisfies `post`, or it fails by
a cause that is allowed. -/
structure Meets (reader : Reader α) (pre : Cursor → Prop) (post : α → Cursor → Prop)
    (allowed : Cause → Prop) : Prop where
  ok {c : Cursor} {a : α} {c' : Cursor} : pre c → reader c = .ok a c' → post a c'
  error {c : Cursor} {failure : Failure} {c' : Cursor} :
    pre c → reader c = .error failure c' → allowed failure.cause

namespace Meets

variable {reader : Reader α} {pre : Cursor → Prop} {post : α → Cursor → Prop}
  {allowed : Cause → Prop}

theorem imp {post' : α → Cursor → Prop} (h : reader.Meets pre post allowed)
    (hpost : ∀ a c, post a c → post' a c) : reader.Meets pre post' allowed where
  ok hpre hok := hpost _ _ (h.ok hpre hok)
  error hpre herror := h.error hpre herror

theorem given {fact : Prop} (h : fact → reader.Meets pre post allowed) :
    reader.Meets (fun c => fact ∧ pre c) post allowed where
  ok hpre hok := (h hpre.1).ok hpre.2 hok
  error hpre herror := (h hpre.1).error hpre.2 herror

theorem of_imp {pre' : Cursor → Prop} (h : reader.Meets pre post allowed)
    (hpre : ∀ c, pre' c → pre c) : reader.Meets pre' post allowed where
  ok hpre' hok := h.ok (hpre _ hpre') hok
  error hpre' herror := h.error (hpre _ hpre') herror

theorem bind {next : α → Reader β} {post' : β → Cursor → Prop} (h : reader.Meets pre post allowed)
    (hn : ∀ a, (next a).Meets (post a) post' allowed) :
    (reader >>= next).Meets pre post' allowed where
  ok hpre hok := by
    obtain ⟨a, c', hr, hnext⟩ := bind_eq_ok.1 hok
    exact (hn a).ok (h.ok hpre hr) hnext
  error hpre herror := by
    rcases bind_eq_error.1 herror with hr | ⟨a, c', hr, hnext⟩
    · exact h.error hpre hr
    · exact (hn a).error (h.ok hpre hr) hnext

theorem pure {a : α} (h : ∀ c, pre c → post a c) : (pure a : Reader α).Meets pre post allowed where
  ok hpre hok := by
    cases hok
    exact h _ hpre
  error _ herror := by cases herror

theorem fail {failure : Failure} (h : ∀ c, pre c → allowed failure.cause) :
    (Reader.fail failure : Reader α).Meets pre post allowed where
  ok _ hok := by cases hok
  error hpre herror := by
    cases herror
    exact h _ hpre

theorem within (h : reader.Meets pre post allowed) (context : Context) :
    (Reader.within context reader).Meets pre post allowed where
  ok hpre hok := h.ok hpre (within_eq_ok.1 hok)
  error hpre herror := by
    obtain ⟨inner, hr, rfl⟩ := within_eq_error.1 herror
    have hcause : allowed inner.cause := h.error hpre hr
    exact hcause

theorem ite {other : Reader α} {p : Prop} [Decidable p] (h : p → reader.Meets pre post allowed)
    (h' : ¬p → other.Meets pre post allowed) :
    (if p then reader else other).Meets pre post allowed := by
  by_cases hp : p
  · rw [if_pos hp]
    exact h hp
  · rw [if_neg hp]
    exact h' hp

end Meets

/-- The reader wants `width` bytes, and `value` says what it makes of them. -/
def Takes (reader : Reader α) (width : Nat) (value : Bytes → α) : Prop :=
  ∀ c, reader c = if c.rest.length < width then .error (truncation c width) c
    else .ok (value (c.rest.take width))
      { c with position := c.position + width, rest := c.rest.drop width }

namespace Takes

variable {reader : Reader α} {width : Nat} {value : Bytes → α}

theorem take (count : Nat) : (Reader.take count).Takes count id := take_apply count

theorem map (h : reader.Takes width value) (f : α → β) :
    Takes (do return f (← reader)) width (f ∘ value) := by
  intro c
  rw [bind_apply, h c]
  by_cases hshort : c.rest.length < width
  · rw [if_pos hshort, if_pos hshort]
  · rw [if_neg hshort, if_neg hshort]
    rfl

theorem number (width : Nat) : (Reader.number width).Takes width ofBigEndian := (take width).map _

theorem u8 : Reader.u8.Takes 1 (UInt8.ofNat ∘ ofBigEndian) := (number 1).map _
theorem u16 : Reader.u16.Takes 2 (UInt16.ofNat ∘ ofBigEndian) := (number 2).map _
theorem u32 : Reader.u32.Takes 4 (UInt32.ofNat ∘ ofBigEndian) := (number 4).map _
theorem u64 : Reader.u64.Takes 8 (UInt64.ofNat ∘ ofBigEndian) := (number 8).map _
theorem i32 : Reader.i32.Takes 4 (UInt32.toInt32 ∘ UInt32.ofNat ∘ ofBigEndian) := u32.map _
theorem i64 : Reader.i64.Takes 8 (UInt64.toInt64 ∘ UInt64.ofNat ∘ ofBigEndian) := u64.map _

theorem meets (h : reader.Takes width value) (input : Bytes) :
    reader.Meets (fun c => c.rest = input ∧ c.Within room size)
      (fun a c' => a = value (input.take width) ∧ c'.rest = input.drop width ∧
        c'.Within (room - width) size)
      (Cause.OfReading slots size) where
  ok {c a c'} hpre hok := by
    obtain ⟨rfl, hwithin⟩ := hpre
    rw [h c] at hok
    split at hok
    · cases hok
    · rename_i hlong
      cases hok
      exact ⟨rfl, rfl, hwithin.drop hlong c.events⟩
  error {c failure c'} hpre herror := by
    rw [h c] at herror
    split at herror
    · rename_i hshort
      cases herror
      exact hpre.2.truncation hshort
    · cases herror

theorem passes (h : reader.Takes width value) (input : Bytes) :
    reader.Meets (fun c => c.rest = input ∧ c.Within room size)
      (fun _ c' => c'.rest = input.drop width ∧ c'.Within (room - width) size)
      (Cause.OfReading slots size) :=
  (h.meets input).imp fun _ _ hpost => hpost.2

theorem shrinks (h : reader.Takes width value) :
    reader.Meets (Cursor.Within room size) (fun _ => Cursor.Within (room - width) size)
      (Cause.OfReading slots size) := by
  -- `passes` is about an input that is given; here it is whatever the cursor holds
  have hpasses (c : Cursor) : reader.Meets (fun c' => c'.rest = c.rest ∧ c'.Within room size)
      (fun _ c' => c'.rest = c.rest.drop width ∧ c'.Within (room - width) size)
      (Cause.OfReading slots size) := h.passes c.rest
  constructor
  · intro c a c' hpre hok
    exact ((hpasses c).ok ⟨rfl, hpre⟩ hok).2
  · intro c failure c' hpre herror
    exact (hpasses c).error ⟨rfl, hpre⟩ herror

end Takes

/-- The reader leaves no more than there was, and it fails only by what can be wrong with the
input. -/
def Safe (reader : Reader α) (slots room size : Nat) : Prop :=
  reader.Meets (Cursor.Within room size) (fun _ => Cursor.Within room size)
    (Cause.OfReading slots size)

theorem Takes.safe {reader : Reader α} {width : Nat} {value : Bytes → α}
    (h : reader.Takes width value) : reader.Safe slots room size :=
  h.shrinks.imp fun _ _ hpost => hpost.mono (Nat.sub_le room width)

namespace Safe

variable {reader : Reader α}

theorem take (count : Nat) : (Reader.take count).Safe slots room size := (Takes.take count).safe
theorem number (width : Nat) : (Reader.number width).Safe slots room size :=
  (Takes.number width).safe
theorem u8 : Reader.u8.Safe slots room size := Takes.u8.safe
theorem u16 : Reader.u16.Safe slots room size := Takes.u16.safe
theorem u32 : Reader.u32.Safe slots room size := Takes.u32.safe
theorem u64 : Reader.u64.Safe slots room size := Takes.u64.safe
theorem i32 : Reader.i32.Safe slots room size := Takes.i32.safe
theorem i64 : Reader.i64.Safe slots room size := Takes.i64.safe

theorem bind {next : α → Reader β} (h : reader.Safe slots room size)
    (hn : ∀ a, (next a).Safe slots room size) : (reader >>= next).Safe slots room size :=
  Meets.bind h hn

theorem pure (a : α) : (pure a : Reader α).Safe slots room size := Meets.pure fun _ h => h

theorem map (h : reader.Safe slots room size) (f : α → β) :
    (f <$> reader).Safe slots room size := by
  rw [map_eq_pure_bind]
  exact h.bind fun a => pure (f a)

theorem malformed (flaw : Flaw) : (Reader.malformed flaw : Reader α).Safe slots room size :=
  Meets.fail fun _ _ => trivial

theorem within (h : reader.Safe slots room size) (context : Context) :
    (Reader.within context reader).Safe slots room size := Meets.within h context

theorem ite {other : Reader α} {p : Prop} [Decidable p] (h : reader.Safe slots room size)
    (h' : other.Safe slots room size) : (if p then reader else other).Safe slots room size :=
  Meets.ite (fun _ => h) fun _ => h'

theorem record (event : Event) : (Reader.record event).Safe slots room size where
  ok hpre hok := by
    cases hok
    exact ⟨hpre.left, hpre.ends⟩
  error _ herror := by cases herror

theorem takeRest : Reader.takeRest.Safe slots room size where
  ok {c _ _} hpre hok := by
    cases hok
    exact ⟨Nat.zero_le room, hpre.ends⟩
  error _ herror := by cases herror

theorem collect {item : Nat → Reader α} (h : ∀ index, (item index).Safe slots room size)
    (count index : Nat) (read : List α) :
    (Reader.collect item count index read).Safe slots room size := by
  induction count generalizing index read with
  | zero => exact pure _
  | succ count ih => exact (h index).bind fun a => ih (index + 1) (a :: read)

theorem times (h : reader.Safe slots room size) (count : Nat) :
    (Reader.times count reader).Safe slots room size := collect (fun _ => h) count 0 []

theorem list (h : reader.Safe slots room size) (width : Nat) :
    (Reader.list width reader).Safe slots room size :=
  (number width).bind fun count => collect (fun index => h.within (.element index count)) count 0 []

/-- What goes wrong in a part with a cursor of its own goes wrong in the whole, and the cursor that
is left there is at most at the end of the part. -/
theorem inside {count : Nat} (h : reader.Safe slots room count) :
    (Reader.inside count reader).Meets (Cursor.Within room size)
      (fun result c' => result.2.Within room count ∧ c'.Within room size)
      (Cause.OfReading slots size) := by
  -- the part is counted from zero, so it ends at `count`
  have hinner {c : Cursor} (hpre : c.Within room size) (hlong : ¬ c.rest.length < count) :
      Cursor.Within room count { rest := c.rest.take count, events := c.events } := by
    have hleft := hpre.left
    constructor
    · rw [List.length_take]
      omega
    · change 0 + (c.rest.take count).length ≤ count
      rw [List.length_take]
      omega
  constructor
  · intro c result c' hpre hok
    rw [inside_apply] at hok
    split at hok
    · cases hok
    · rename_i hlong
      split at hok
      · rename_i a inner hbody
        cases hok
        exact ⟨h.ok (hinner hpre hlong) hbody,
          (hpre.drop hlong inner.events).mono (Nat.sub_le room count)⟩
      · cases hok
  · intro c failure c' hpre herror
    rw [inside_apply] at herror
    split at herror
    · rename_i hshort
      cases herror
      exact hpre.truncation hshort
    · rename_i hlong
      split at herror
      · cases herror
      · rename_i inner c₁ hbody
        cases herror
        -- a truncation told in the part lies in the whole, which ends no earlier
        have hends := hpre.ends
        exact (h.error (hinner hpre hlong) hbody).mono (by omega)

end Safe

end Reader

namespace Layout

variable {α β : Type} {slots room size : Nat}

theorem pair_safe {first : Layout α} {second : Layout β} (h : first.read.Safe slots room size)
    (h' : second.read.Safe slots room size) : (first.pair second).read.Safe slots room size :=
  h.bind fun _ => h'.bind fun _ => .pure _

theorem as_safe {layout : Layout α} (h : layout.read.Safe slots room size) (toFun : α → β)
    (invFun : β → α) : (layout.as toFun invFun).read.Safe slots room size := h.map toFun

theorem withLength_safe {layout : Layout α} (h : layout.read.Safe slots room size)
    (length : α → Nat) : (layout.withLength length).read.Safe slots room size := h

theorem list_safe {item : Layout α} (h : item.read.Safe slots room size) (width : Nat) :
    (list width item).read.Safe slots room size := Reader.Safe.list h width

theorem u8_safe : u8.read.Safe slots room size := Reader.Safe.u8

theorem u16_safe : u16.read.Safe slots room size := Reader.Safe.u16

end Layout

end ClassFormat
