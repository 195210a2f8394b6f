import ClassFormat.Reader
import Mathlib.Algebra.Ring.Nat

namespace ClassFormat

theorem ofBigEndian_lt (bytes : Bytes) : ofBigEndian bytes < 256 ^ bytes.length := by
  induction h : bytes.length generalizing bytes with
  | zero => simp [List.length_eq_zero_iff.1 h, ofBigEndian]
  | succ width ih =>
    have hne : bytes ≠ [] := by rintro rfl; simp at h
    rw [← List.dropLast_concat_getLast hne, ofBigEndian_append_singleton]
    have hlt := ih bytes.dropLast (by simp [h])
    have hb := (bytes.getLast hne).toNat_lt
    rw [Nat.pow_succ]
    omega

theorem bigEndian_ofBigEndian (bytes : Bytes) :
    bigEndian bytes.length (ofBigEndian bytes) = bytes := by
  induction h : bytes.length generalizing bytes with
  | zero => simp [List.length_eq_zero_iff.1 h, bigEndian]
  | succ width ih =>
    have hne : bytes ≠ [] := by rintro rfl; simp at h
    obtain ⟨front, b, rfl⟩ : ∃ front b, bytes = front ++ [b] :=
      ⟨_, _, (List.dropLast_concat_getLast hne).symm⟩
    have hw : front.length = width := by simpa using h
    have hb := b.toNat_lt
    have hdiv : (ofBigEndian front * 256 + b.toNat) / 256 = ofBigEndian front := by omega
    have hlow : UInt8.ofNat (ofBigEndian front * 256 + b.toNat) = b := by
      apply UInt8.toNat_inj.1
      rw [UInt8.toNat_ofNat']
      omega
    rw [ofBigEndian_append_singleton, bigEndian, hdiv, hlow, ih front hw]

theorem ofBigEndian_bigEndian {width n : Nat} (h : n < 256 ^ width) :
    ofBigEndian (bigEndian width n) = n := by
  induction width generalizing n with
  | zero => simp at h; simp [h, bigEndian, ofBigEndian]
  | succ width ih =>
    rw [Nat.pow_succ] at h
    have hlow : (UInt8.ofNat n).toNat = n % 256 := UInt8.toNat_ofNat'
    rw [bigEndian, ofBigEndian_append_singleton, ih (by omega), hlow]
    omega

@[simp] theorem word8_eq (n : UInt8) : word8 n = [n] := by
  simp [word8, bigEndian]

@[simp] theorem length_word16 (n : UInt16) : (word16 n).length = 2 := length_bigEndian ..
@[simp] theorem length_word32 (n : UInt32) : (word32 n).length = 4 := length_bigEndian ..
@[simp] theorem length_word64 (n : UInt64) : (word64 n).length = 8 := length_bigEndian ..

/-- From `c` to `c'` exactly `bytes` are passed. -/
structure Cursor.Moves (c : Cursor) (bytes : Bytes) (c' : Cursor) : Prop where
  rest : c.rest = bytes ++ c'.rest
  position : c'.position = c.position + bytes.length

namespace Cursor.Moves

variable {c c' c'' : Cursor} {bytes more rest : Bytes}

theorem trans (h : c.Moves bytes c') (h' : c'.Moves more c'') : c.Moves (bytes ++ more) c'' where
  rest := by rw [h.rest, h'.rest, List.append_assoc]
  position := by rw [h'.position, h.position, List.length_append]; omega

theorem rest_eq (h : c.Moves bytes c') (hc : c.rest = bytes ++ rest) : c'.rest = rest :=
  List.append_cancel_left (h.rest.symm.trans hc)

end Cursor.Moves

/-- Which bytes spell which value. -/
abbrev Format (α : Type) := Bytes → α → Prop

/-- The format of the values that satisfy `valid`, each with one spelling. -/
def Format.of {α : Type} (encode : α → Bytes) (valid : α → Prop := fun _ => True) : Format α :=
  fun bytes a => bytes = encode a ∧ valid a

@[simp] theorem Format.of_iff {α : Type} {encode : α → Bytes} {valid : α → Prop} {bytes : Bytes}
    {a : α} : Format.of encode valid bytes a ↔ bytes = encode a ∧ valid a := Iff.rfl

/-- The bytes of a part of a value, with those of the rest behind. `Q` is what the parts in front
say of the value, and `P` what those behind do. -/
theorem Format.field_iff {α β : Type} {encode : α → Bytes} {valid : α → Prop} {tail : β → Bytes}
    {P : α → β → Prop} {Q : β → Prop} {part : β → α} {bytes : Bytes} {b : β} :
    (∃ a first, Format.of encode valid first a ∧ ∃ second,
      Format.of tail (fun b => (Q b ∧ part b = a) ∧ P a b) second b ∧ bytes = first ++ second) ↔
    Format.of (fun b => encode (part b) ++ tail b) (fun b => Q b ∧ valid (part b) ∧ P (part b) b)
      bytes b := by
  constructor
  · rintro ⟨_, _, ⟨rfl, ha⟩, _, ⟨rfl, ⟨hq, rfl⟩, hp⟩, rfl⟩
    exact ⟨rfl, hq, ha, hp⟩
  · rintro ⟨rfl, hq, ha, hp⟩
    exact ⟨part b, _, ⟨rfl, ha⟩, _, ⟨rfl, ⟨hq, rfl⟩, hp⟩, rfl⟩

/-- The failures for want of input. -/
def Failure.IsTruncation (failure : Failure) : Prop :=
  ∃ offset needed available, failure.cause = .truncatedInput offset needed available

namespace Reader

variable {α β : Type}

/-- The reader gives `a` exactly in front of bytes that spell it and passes just these; a proper
beginning of them is too short for it. -/
structure Exact (reader : Reader α) (format : Format α) : Prop where
  sound {c : Cursor} {a : α} {c' : Cursor} :
    reader c = .ok a c' → ∃ bytes, format bytes a ∧ c.Moves bytes c'
  complete {bytes : Bytes} {a : α} {c : Cursor} {rest : Bytes} :
    format bytes a → c.rest = bytes ++ rest → ∃ c', reader c = .ok a c' ∧ c.Moves bytes c'
  short {bytes : Bytes} {a : α} {c : Cursor} {missing : Bytes} :
    format bytes a → bytes = c.rest ++ missing → missing ≠ [] →
      ∃ failure c', reader c = .error failure c' ∧ failure.IsTruncation

theorem bind_apply (reader : Reader α) (next : α → Reader β) (c : Cursor) :
    (reader >>= next) c = match reader c with
      | .ok a c' => next a c'
      | .error failure c' => .error failure c' := by
  change EStateM.bind reader next c = _
  unfold EStateM.bind
  cases reader c <;> rfl

theorem bind_of_ok {reader : Reader α} {next : α → Reader β} {c c' : Cursor} {a : α}
    (h : reader c = .ok a c') : (reader >>= next) c = next a c' := by
  rw [bind_apply, h]

theorem bind_of_error {reader : Reader α} {next : α → Reader β} {c c' : Cursor} {failure : Failure}
    (h : reader c = .error failure c') : (reader >>= next) c = .error failure c' := by
  rw [bind_apply, h]

theorem pure_apply (a : α) (c : Cursor) : (pure a : Reader α) c = .ok a c := rfl

theorem bind_eq_ok {reader : Reader α} {next : α → Reader β} {c c'' : Cursor} {b : β} :
    (reader >>= next) c = .ok b c'' ↔ ∃ a c', reader c = .ok a c' ∧ next a c' = .ok b c'' := by
  rw [bind_apply]
  cases h : reader c <;> simp [and_assoc]

theorem bind_eq_error {reader : Reader α} {next : α → Reader β} {c c'' : Cursor}
    {failure : Failure} : (reader >>= next) c = .error failure c'' ↔
      reader c = .error failure c'' ∨
      ∃ a c', reader c = .ok a c' ∧ next a c' = .error failure c'' := by
  rw [bind_apply]
  cases h : reader c <;> simp [and_assoc]

theorem take_apply (count : Nat) (c : Cursor) :
    take count c = if c.rest.length < count then .error (truncation c count) c
      else .ok (c.rest.take count)
        { c with position := c.position + count, rest := c.rest.drop count } := by
  have h : (c.rest.take count).length < count ↔ c.rest.length < count := by
    rw [List.length_take]
    omega
  simp only [take, h]

theorem within_eq_ok {context : Context} {reader : Reader α} {c c' : Cursor} {a : α} :
    within context reader c = .ok a c' ↔ reader c = .ok a c' := by
  unfold within
  cases h : reader c <;> simp

theorem within_eq_error {context : Context} {reader : Reader α} {c c' : Cursor}
    {failure : Failure} : within context reader c = .error failure c' ↔
      ∃ inner, reader c = .error inner c' ∧ failure = inner.within context := by
  unfold within
  cases reader c with
  | ok a c₁ => simp
  | error inner c₁ =>
    simp only [EStateM.Result.error.injEq]
    constructor
    · rintro ⟨rfl, rfl⟩
      exact ⟨inner, ⟨rfl, rfl⟩, rfl⟩
    · rintro ⟨_, ⟨rfl, rfl⟩, rfl⟩
      exact ⟨rfl, rfl⟩

/-- A proper beginning of bytes that spell a value is too short for the reader. -/
def RunsShort (reader : Reader α) (format : Format α) : Prop :=
  ∀ ⦃bytes : Bytes⦄ ⦃a : α⦄ ⦃c : Cursor⦄ ⦃missing : Bytes⦄, format bytes a →
    bytes = c.rest ++ missing → missing ≠ [] →
      ∃ failure c', reader c = .error failure c' ∧ failure.IsTruncation

namespace Exact

variable {reader : Reader α} {format : Format α} {next : α → Reader β} {formats : α → Format β}

theorem congr {format' : Format α} (h : reader.Exact format)
    (hf : ∀ bytes a, format bytes a ↔ format' bytes a) : reader.Exact format' := by
  have he : format = format' := by funext bytes a; exact propext (hf bytes a)
  exact he ▸ h

theorem pure (a : α) : Exact (pure a : Reader α) fun bytes b => bytes = [] ∧ b = a where
  sound h := by
    obtain ⟨rfl, rfl⟩ : _ ∧ _ := by simpa [pure_apply] using h
    exact ⟨[], ⟨rfl, rfl⟩, by simp, by simp⟩
  complete := by
    rintro bytes b c rest ⟨rfl, rfl⟩ hc
    exact ⟨c, rfl, by simp, by simp⟩
  short := by
    rintro bytes b c missing ⟨rfl, rfl⟩ hc hm
    simp_all

theorem runsShort (h : reader.Exact format) : reader.RunsShort format :=
  fun _ _ _ _ hf hc hm => h.short hf hc hm

theorem runsShort_bind (h : reader.Exact format)
    (hn : ∀ a first, format first a → (next a).RunsShort (formats a)) :
    (reader >>= next).RunsShort fun bytes b =>
      ∃ a first, format first a ∧ ∃ second, formats a second b ∧ bytes = first ++ second := by
  rintro _ b c missing ⟨a, first, hfirst, second, hsecond, rfl⟩ hc hm
  -- the cut falls either into the first part or behind it
  obtain ⟨cut, hcut⟩ | ⟨cut, hcut⟩ :
      (∃ cut, c.rest = first ++ cut) ∨ ∃ cut, first = c.rest ++ cut ∧ cut ≠ [] := by
    rcases List.append_eq_append_iff.1 hc with ⟨cut, hrest, -⟩ | ⟨cut, hfirst', -⟩
    · exact .inl ⟨cut, hrest⟩
    · by_cases hnil : cut = []
      · exact .inl ⟨[], by simp [hfirst', hnil]⟩
      · exact .inr ⟨cut, hfirst', hnil⟩
  · obtain ⟨c', hr, hmove⟩ := h.complete hfirst hcut
    have hsec : second = c'.rest ++ missing := by
      rw [hmove.rest_eq hcut]
      rw [hcut, List.append_assoc] at hc
      exact List.append_cancel_left hc
    obtain ⟨failure, c'', hnext, ht⟩ := hn a first hfirst hsecond hsec hm
    exact ⟨failure, c'', (bind_of_ok hr).trans hnext, ht⟩
  · obtain ⟨failure, c', hr, ht⟩ := h.short hfirst hcut.1 hcut.2
    exact ⟨failure, c', bind_of_error hr, ht⟩

/-- What `next` reads starts where `reader` stops. -/
theorem bind_of (h : reader.Exact format)
    (hn : ∀ a first, format first a → (next a).Exact (formats a)) :
    (reader >>= next).Exact fun bytes b =>
      ∃ a first, format first a ∧ ∃ second, formats a second b ∧ bytes = first ++ second where
  sound hok := by
    obtain ⟨a, c', hr, hnext⟩ := bind_eq_ok.1 hok
    obtain ⟨first, hfirst, hmove⟩ := h.sound hr
    obtain ⟨second, hsecond, hmove'⟩ := (hn a first hfirst).sound hnext
    exact ⟨first ++ second, ⟨a, first, hfirst, second, hsecond, rfl⟩, hmove.trans hmove'⟩
  complete := by
    rintro _ b c rest ⟨a, first, hfirst, second, hsecond, rfl⟩ hc
    rw [List.append_assoc] at hc
    obtain ⟨c', hr, hmove⟩ := h.complete hfirst hc
    obtain ⟨c'', hnext, hmove'⟩ := (hn a first hfirst).complete hsecond (hmove.rest_eq hc)
    exact ⟨c'', bind_eq_ok.2 ⟨a, c', hr, hnext⟩, hmove.trans hmove'⟩
  short hf hc hm :=
    h.runsShort_bind (fun a first hfirst => (hn a first hfirst).runsShort) hf hc hm

theorem bind (h : reader.Exact format) (hn : ∀ a, (next a).Exact (formats a)) :
    (reader >>= next).Exact fun bytes b =>
      ∃ a first, format first a ∧ ∃ second, formats a second b ∧ bytes = first ++ second :=
  h.bind_of fun a _ _ => hn a

section Fields

variable {encode : α → Bytes} {valid : α → Prop} {tail : β → Bytes} {P : α → β → Prop}
  {Q : β → Prop}

/-- A value read part by part: what stands behind a part gives a value that has this part. -/
theorem field (part : β → α) (h : reader.Exact (.of encode valid))
    (hn : ∀ a, valid a → (next a).Exact (.of tail fun b => (Q b ∧ part b = a) ∧ P a b)) :
    (reader >>= next).Exact
      (.of (fun b => encode (part b) ++ tail b) fun b => Q b ∧ valid (part b) ∧ P (part b) b) := by
  refine (h.bind_of fun a first hfirst => hn a hfirst.2).congr fun bytes b => ?_
  exact Format.field_iff

theorem done {b : β} (h : ∀ b', Q b' ↔ b' = b) :
    Exact (Pure.pure b : Reader β) (.of (fun _ => []) fun b' => Q b' ∧ True) :=
  (pure b).congr fun bytes b' => by simp [h]

end Fields

theorem map (h : reader.Exact format) (f : α → β) :
    (f <$> reader).Exact fun bytes b => ∃ a, format bytes a ∧ b = f a := by
  rw [map_eq_pure_bind]
  refine (h.bind fun a => pure (f a)).congr fun bytes b => ?_
  constructor
  · rintro ⟨a, first, hf, second, ⟨rfl, rfl⟩, rfl⟩
    exact ⟨a, by simpa using hf, rfl⟩
  · rintro ⟨a, hf, rfl⟩
    exact ⟨a, bytes, hf, [], ⟨rfl, rfl⟩, by simp⟩

theorem within (h : reader.Exact format) (context : Context) :
    (Reader.within context reader).Exact format where
  sound hok := h.sound (within_eq_ok.1 hok)
  complete hf hc := by
    obtain ⟨c', hr, hmove⟩ := h.complete hf hc
    exact ⟨c', within_eq_ok.2 hr, hmove⟩
  short hf hc hm := by
    obtain ⟨failure, c', hr, ht⟩ := h.short hf hc hm
    exact ⟨failure.within context, c', by simp [Reader.within, hr], ht⟩

theorem fail (failure : Failure) : (Reader.fail failure : Reader α).Exact fun _ _ => False where
  sound h := by simp [Reader.fail] at h
  complete h := h.elim
  short h := h.elim

theorem record (event : Event) : (Reader.record event).Exact (.of fun _ => []) where
  sound h := by
    obtain rfl : _ = _ := by simpa [Reader.record] using h
    exact ⟨[], ⟨rfl, trivial⟩, by simp, by simp⟩
  complete := by
    rintro bytes a c rest ⟨rfl, -⟩ hc
    exact ⟨_, rfl, by simp, by simp⟩
  short := by
    rintro bytes a c missing ⟨rfl, -⟩ hc hm
    simp_all

theorem ite {other : Reader α} {format' : Format α} {p : Prop} [Decidable p]
    (h : p → reader.Exact format) (h' : ¬p → other.Exact format') :
    (if p then reader else other).Exact fun bytes a =>
      if p then format bytes a else format' bytes a := by
  by_cases hp : p
  · simpa [hp] using h hp
  · simpa [hp] using h' hp

theorem take (count : Nat) :
    (Reader.take count).Exact (.of id fun taken => taken.length = count) where
  sound {c a c'} h := by
    rw [take_apply] at h
    split at h
    · simp at h
    · obtain ⟨rfl, rfl⟩ : _ ∧ _ := by simpa using h
      have hcount : (c.rest.take count).length = count := by
        rw [List.length_take]
        omega
      exact ⟨_, ⟨rfl, hcount⟩, by simp, by simp [hcount]⟩
  complete := by
    rintro taken _ c rest ⟨rfl, rfl⟩ hc
    have hlong : ¬ c.rest.length < taken.length := by rw [hc, List.length_append]; omega
    exact ⟨_, by rw [take_apply, if_neg hlong, hc, List.take_left], by simp [hc], rfl⟩
  short := by
    rintro taken _ c missing ⟨rfl, rfl⟩ hc hm
    have hpos := List.length_pos_iff.2 hm
    have hshort : c.rest.length < taken.length := by rw [hc, List.length_append]; omega
    exact ⟨_, c, by rw [take_apply, if_pos hshort], _, _, _, rfl⟩

theorem number (width : Nat) :
    (Reader.number width).Exact (.of (bigEndian width) (· < 256 ^ width)) := by
  refine ((take width).bind fun taken => pure (ofBigEndian taken)).congr fun bytes n => ?_
  constructor
  · rintro ⟨taken, first, ⟨rfl, rfl⟩, second, ⟨rfl, rfl⟩, rfl⟩
    exact ⟨by simp [bigEndian_ofBigEndian], ofBigEndian_lt first⟩
  · rintro ⟨rfl, hn⟩
    exact ⟨_, _, ⟨rfl, length_bigEndian ..⟩, [], ⟨rfl, (ofBigEndian_bigEndian hn).symm⟩, by simp⟩

theorem word {width : Nat} {ofNat : Nat → α} {toNat : α → Nat}
    (hlt : ∀ a, toNat a < 256 ^ width) (hof : ∀ a, ofNat (toNat a) = a)
    (hto : ∀ n < 256 ^ width, toNat (ofNat n) = n) :
    Exact (do return ofNat (← Reader.number width)) (.of fun a => bigEndian width (toNat a)) := by
  refine ((number width).bind fun n => pure (ofNat n)).congr fun bytes a => ?_
  constructor
  · rintro ⟨n, first, ⟨rfl, hn⟩, second, ⟨rfl, rfl⟩, rfl⟩
    simp [hto n hn]
  · rintro ⟨rfl, -⟩
    exact ⟨toNat a, _, ⟨rfl, hlt a⟩, [], ⟨rfl, (hof a).symm⟩, by simp⟩

theorem u8 : Reader.u8.Exact (.of word8) :=
  word UInt8.toNat_lt (fun _ => UInt8.ofNat_toNat) fun _ => UInt8.toNat_ofNat_of_lt'

theorem u16 : Reader.u16.Exact (.of word16) :=
  word UInt16.toNat_lt (fun _ => UInt16.ofNat_toNat) fun _ => UInt16.toNat_ofNat_of_lt'

theorem u32 : Reader.u32.Exact (.of word32) :=
  word UInt32.toNat_lt (fun _ => UInt32.ofNat_toNat) fun _ => UInt32.toNat_ofNat_of_lt'

theorem u64 : Reader.u64.Exact (.of word64) :=
  word UInt64.toNat_lt (fun _ => UInt64.ofNat_toNat) fun _ => UInt64.toNat_ofNat_of_lt'

/-- A first byte decides how the rest is read. -/
theorem tagged {encode : α → Bytes} {valid : α → Prop} {body : UInt8 → Reader α}
    (hne : ∀ a, encode a ≠ [])
    (h : ∀ tag, (body tag).Exact fun bytes a => tag :: bytes = encode a ∧ valid a) :
    (Reader.u8 >>= body).Exact (.of encode valid) := by
  refine (u8.bind h).congr fun bytes a => ?_
  constructor
  · rintro ⟨tag, _, ⟨rfl, -⟩, rest, ⟨henc, ha⟩, rfl⟩
    exact ⟨by simp [← henc], ha⟩
  · rintro ⟨rfl, ha⟩
    obtain ⟨tag, rest, henc⟩ := List.exists_cons_of_ne_nil (hne a)
    exact ⟨tag, _, ⟨rfl, trivial⟩, rest, ⟨henc.symm, ha⟩, by simp [henc]⟩

/-- One form among others, made of what is read. The bytes of a value in this form are those of what
it is made of. -/
theorem variant {encode : α → Bytes} {valid : α → Prop} {make : α → β} {encode' : β → Bytes}
    {valid' : β → Prop} (h : reader.Exact (.of encode valid))
    (hmake : ∀ a, encode' (make a) = encode a ∧ (valid' (make a) ↔ valid a))
    (honly : ∀ b, valid' b → ∃ a, b = make a) :
    Exact (do return make (← reader)) (.of encode' valid') := by
  refine (h.bind fun a => pure (make a)).congr fun bytes b => ?_
  constructor
  · rintro ⟨a, _, ⟨rfl, ha⟩, _, ⟨rfl, rfl⟩, rfl⟩
    exact ⟨by rw [(hmake a).1, List.append_nil], (hmake a).2.2 ha⟩
  · rintro ⟨rfl, hb⟩
    obtain ⟨a, rfl⟩ := honly b hb
    exact ⟨a, _, ⟨rfl, (hmake a).2.1 hb⟩, [], ⟨rfl, rfl⟩, by rw [(hmake a).1, List.append_nil]⟩

theorem variant₂ {γ : Type} {encode : α → Bytes} {valid : α → Prop} {other : Reader β}
    {encode' : β → Bytes} {valid' : β → Prop} {make : α → β → γ} {encode'' : γ → Bytes}
    {valid'' : γ → Prop} (h : reader.Exact (.of encode valid))
    (h' : other.Exact (.of encode' valid'))
    (hmake : ∀ a b, encode'' (make a b) = encode a ++ encode' b ∧
      (valid'' (make a b) ↔ valid a ∧ valid' b))
    (honly : ∀ value, valid'' value → ∃ a b, value = make a b) :
    Exact (do return make (← reader) (← other)) (.of encode'' valid'') := by
  refine (h.bind fun a => h'.bind fun b => pure (make a b)).congr fun bytes value => ?_
  constructor
  · rintro ⟨a, _, ⟨rfl, ha⟩, _, ⟨b, _, ⟨rfl, hb⟩, _, ⟨rfl, rfl⟩, rfl⟩, rfl⟩
    exact ⟨by rw [(hmake a b).1, List.append_nil], (hmake a b).2.2 ⟨ha, hb⟩⟩
  · rintro ⟨rfl, hvalue⟩
    obtain ⟨a, b, rfl⟩ := honly value hvalue
    obtain ⟨ha, hb⟩ := (hmake a b).2.1 hvalue
    exact ⟨a, _, ⟨rfl, ha⟩, _, ⟨b, _, ⟨rfl, hb⟩, [], ⟨rfl, rfl⟩, rfl⟩,
      by rw [(hmake a b).1, List.append_nil]⟩

theorem as {encode : α → Bytes} {valid : α → Prop} {toFun : α → β} {invFun : β → α}
    (h : reader.Exact (.of encode valid)) (hl : ∀ a, invFun (toFun a) = a)
    (hr : ∀ b, toFun (invFun b) = b) :
    (toFun <$> reader).Exact (.of (fun b => encode (invFun b)) fun b => valid (invFun b)) := by
  refine (h.map toFun).congr fun bytes b => ?_
  constructor
  · rintro ⟨a, ⟨rfl, ha⟩, rfl⟩
    simp [hl, ha]
  · rintro ⟨rfl, hb⟩
    exact ⟨invFun b, ⟨rfl, hb⟩, (hr b).symm⟩

theorem i8 : Reader.i8.Exact (.of fun n => word8 n.toUInt8) :=
  u8.as UInt8.toUInt8_toInt8 Int8.toInt8_toUInt8

theorem i16 : Reader.i16.Exact (.of fun n => word16 n.toUInt16) :=
  u16.as UInt16.toUInt16_toInt16 Int16.toInt16_toUInt16

theorem i32 : Reader.i32.Exact (.of fun n => word32 n.toUInt32) :=
  u32.as UInt32.toUInt32_toInt32 Int32.toInt32_toUInt32

theorem i64 : Reader.i64.Exact (.of fun n => word64 n.toUInt64) :=
  u64.as UInt64.toUInt64_toInt64 Int64.toInt64_toUInt64

section Lists

variable {encode : α → Bytes} {valid : α → Prop}

theorem collect {item : Nat → Reader α} (h : ∀ index, (item index).Exact (.of encode valid))
    (count index : Nat) (read : List α) :
    (Reader.collect item count index read).Exact fun bytes as => ∃ new, as = read.reverse ++ new ∧
      new.length = count ∧ bytes = new.flatMap encode ∧ ∀ a ∈ new, valid a := by
  induction count generalizing index read with
  | zero =>
    refine (pure read.reverse).congr fun bytes as => ?_
    constructor
    · rintro ⟨rfl, rfl⟩
      exact ⟨[], by simp, rfl, rfl, by simp⟩
    · rintro ⟨new, rfl, hlen, rfl, -⟩
      simp [List.length_eq_zero_iff.1 hlen]
  | succ count ih =>
    refine ((h index).bind fun a => ih (index + 1) (a :: read)).congr fun bytes as => ?_
    constructor
    · rintro ⟨a, _, ⟨rfl, ha⟩, _, ⟨new, rfl, rfl, rfl, hnew⟩, rfl⟩
      exact ⟨a :: new, by simp, by simp, by simp, List.forall_mem_cons.2 ⟨ha, hnew⟩⟩
    · rintro ⟨new, rfl, hlen, rfl, hnew⟩
      obtain ⟨a, new, rfl⟩ := List.exists_cons_of_length_eq_add_one hlen
      obtain ⟨ha, hnew⟩ := List.forall_mem_cons.1 hnew
      exact ⟨a, _, ⟨rfl, ha⟩, _, ⟨new, by simp, by simpa using hlen, rfl, hnew⟩, by simp⟩

theorem times (h : reader.Exact (.of encode valid)) (count : Nat) :
    (Reader.times count reader).Exact fun bytes as =>
      as.length = count ∧ bytes = as.flatMap encode ∧ ∀ a ∈ as, valid a :=
  (collect (fun _ => h) count 0 []).congr (by simp)

theorem list (h : reader.Exact (.of encode valid)) (width : Nat) :
    (Reader.list width reader).Exact
      (.of (fun as => bigEndian width as.length ++ as.flatMap encode)
        fun as => as.length < 256 ^ width ∧ ∀ a ∈ as, valid a) := by
  refine ((number width).bind fun size =>
    collect (fun index => h.within (.element index size)) size 0 []).congr fun bytes as => ?_
  constructor
  · rintro ⟨_, _, ⟨rfl, hlt⟩, _, ⟨new, rfl, rfl, rfl, hnew⟩, rfl⟩
    exact ⟨by simp, by simpa using hlt, by simpa using hnew⟩
  · rintro ⟨rfl, hlt, has⟩
    exact ⟨_, _, ⟨rfl, hlt⟩, _, ⟨as, rfl, rfl, rfl, has⟩, rfl⟩

end Lists

end Exact

/-- The reader gives `a` and stops as `done` asks, by default at the end, exactly on inputs that
spell `a`. -/
def Covers (reader : Reader α) (format : Format α) (done : Cursor → Prop := fun c => c.rest = []) :
    Prop :=
  ∀ (c : Cursor) (a : α), (∃ c', reader c = .ok a c' ∧ done c') ↔ format c.rest a

theorem inside_apply (count : Nat) (body : Reader α) (c : Cursor) :
    inside count body c = if c.rest.length < count then .error (truncation c count) c
      else match body { rest := c.rest.take count, events := c.events } with
        | .ok a inner => .ok (a, inner)
          ⟨c.position + count, c.rest.drop count, inner.events⟩
        | .error failure inner => .error failure
          ⟨c.position + count, c.rest.drop count, inner.events⟩ := by
  by_cases hshort : c.rest.length < count
  · have htake : take count c = .error (truncation c count) c := by
      rw [take_apply, if_pos hshort]
    rw [if_pos hshort]
    exact bind_of_error htake
  · have htake : take count c = .ok (c.rest.take count)
        { c with position := c.position + count, rest := c.rest.drop count } := by
      rw [take_apply, if_neg hshort]
    rw [if_neg hshort]
    exact bind_of_ok htake

theorem Exact.covers {reader : Reader α} {format : Format α} (h : reader.Exact format) :
    reader.Covers format := by
  intro c a
  constructor
  · rintro ⟨c', hr, hend⟩
    obtain ⟨bytes, hf, hmove⟩ := h.sound hr
    rw [hmove.rest, hend, List.append_nil]
    exact hf
  · intro hf
    have hc : c.rest = c.rest ++ [] := (List.append_nil _).symm
    obtain ⟨c', hr, hmove⟩ := h.complete hf hc
    exact ⟨c', hr, hmove.rest_eq hc⟩

namespace Covers

variable {reader : Reader α} {format : Format α} {done : Cursor → Prop}

theorem congr {format' : Format α} (h : reader.Covers format done)
    (hf : ∀ bytes a, format bytes a ↔ format' bytes a) : reader.Covers format' done :=
  fun c a => (h c a).trans (hf c.rest a)

theorem within (h : reader.Covers format done) (context : Context) :
    (Reader.within context reader).Covers format done := by
  intro c a
  simp only [within_eq_ok]
  exact h c a

/-- The last part of a reader covers what the parts in front of it leave. -/
theorem bind_of {next : α → Reader β} {formats : α → Format β} (h : reader.Exact format)
    (hn : ∀ a first, format first a → (next a).Covers (formats a) done) :
    (reader >>= next).Covers (fun bytes b =>
      ∃ a first, format first a ∧ ∃ second, formats a second b ∧ bytes = first ++ second) done := by
  intro c b
  constructor
  · rintro ⟨c'', hok, hdone⟩
    obtain ⟨a, c', hr, hnext⟩ := bind_eq_ok.1 hok
    obtain ⟨first, hfirst, hmove⟩ := h.sound hr
    exact ⟨a, first, hfirst, c'.rest, (hn a first hfirst c' b).1 ⟨c'', hnext, hdone⟩, hmove.rest⟩
  · rintro ⟨a, first, hfirst, second, hsecond, hc⟩
    obtain ⟨c', hr, hmove⟩ := h.complete hfirst hc
    rw [← hmove.rest_eq hc] at hsecond
    obtain ⟨c'', hnext, hdone⟩ := (hn a first hfirst c' b).2 hsecond
    exact ⟨c'', bind_eq_ok.2 ⟨a, c', hr, hnext⟩, hdone⟩

theorem takeRest (make : Bytes → β) :
    Covers (do return make (← Reader.takeRest)) fun bytes b => b = make bytes := by
  intro c b
  constructor
  · rintro ⟨c', hok, -⟩
    obtain ⟨bytes, c₁, hr, hret⟩ := bind_eq_ok.1 hok
    cases hr
    cases hret
    rfl
  · rintro rfl
    exact ⟨_, bind_eq_ok.2 ⟨c.rest, _, rfl, rfl⟩, rfl⟩

/-- A body that has to use up `count` bytes of its own spells its value with just so many. -/
theorem inside {next : α × Cursor → Reader β} (h : reader.Covers format) (count : Nat)
    (make : α → β) (hnext : ∀ a c, c.rest = [] → next (a, c) = pure (make a))
    (hleft : ∀ c a c', reader c = .ok a c' → c'.rest ≠ [] →
      ∃ failure, next (a, c') = Reader.fail failure) :
    (Reader.inside count reader >>= next).Exact fun bytes b =>
      ∃ a, format bytes a ∧ bytes.length = count ∧ b = make a where
  sound {c b c''} hok := by
    obtain ⟨⟨a, inner⟩, c', hin, hrest⟩ := bind_eq_ok.1 hok
    rw [inside_apply] at hin
    split at hin
    · cases hin
    · rename_i hlong
      split at hin
      · rename_i a' inner' hbody
        cases hin
        -- bytes that the body leaves are refused by what comes next
        by_cases hend : inner.rest = []
        · rw [hnext a inner hend] at hrest
          cases hrest
          have hcount : (c.rest.take count).length = count := by
            rw [List.length_take]
            omega
          exact ⟨c.rest.take count, ⟨a, (h _ a).1 ⟨inner, hbody, hend⟩, hcount, rfl⟩, by simp,
            by simp [hcount]⟩
        · obtain ⟨failure, hfail⟩ := hleft _ a inner hbody hend
          rw [hfail] at hrest
          cases hrest
      · cases hin
  complete := by
    rintro bytes b c rest ⟨a, hf, rfl, rfl⟩ hc
    have hlong : ¬ c.rest.length < bytes.length := by rw [hc, List.length_append]; omega
    obtain ⟨inner, hbody, hend⟩ := (h { rest := bytes, events := c.events } a).2 hf
    have hin : Reader.inside bytes.length reader c =
        .ok (a, inner) ⟨c.position + bytes.length, rest, inner.events⟩ := by
      rw [inside_apply, if_neg hlong, hc, List.take_left, hbody, List.drop_left]
    exact ⟨_, (bind_of_ok hin).trans (congrFun (hnext a inner hend) _), hc, rfl⟩
  short := by
    rintro bytes b c missing ⟨a, hf, rfl, rfl⟩ hc hm
    have hpos := List.length_pos_iff.2 hm
    have hshort : c.rest.length < bytes.length := by rw [hc, List.length_append]; omega
    have hin : Reader.inside bytes.length reader c = .error (truncation c bytes.length) c := by
      rw [inside_apply, if_pos hshort]
    exact ⟨_, c, bind_of_error hin, _, _, _, rfl⟩

end Covers

/-- The reader takes inputs that spell a value and nothing else: it runs out of a proper beginning
of one, and refuses one with bytes behind it for just these bytes. -/
structure Delimited (reader : Reader α) (format : Format α) : Prop where
  covers : reader.Covers format fun _ => True
  short : reader.RunsShort format
  long {bytes : Bytes} {a : α} {c : Cursor} {excess : Bytes} :
    format bytes a → c.rest = bytes ++ excess → excess ≠ [] →
      ∃ c', reader c = .error { cause := .trailingBytes excess.length } c'

namespace Delimited

variable {reader : Reader α} {format : Format α}

theorem congr {format' : Format α} (h : reader.Delimited format)
    (hf : ∀ bytes a, format bytes a ↔ format' bytes a) : reader.Delimited format' := by
  have he : format = format' := by funext bytes a; exact propext (hf bytes a)
  exact he ▸ h

theorem bind_of {next : α → Reader β} {formats : α → Format β} (h : reader.Exact format)
    (hn : ∀ a first, format first a → (next a).Delimited (formats a)) :
    (reader >>= next).Delimited fun bytes b =>
      ∃ a first, format first a ∧ ∃ second, formats a second b ∧ bytes = first ++ second where
  covers := Covers.bind_of h fun a first hfirst => (hn a first hfirst).covers
  short := h.runsShort_bind fun a first hfirst => (hn a first hfirst).short
  long := by
    rintro _ b c excess ⟨a, first, hfirst, second, hsecond, rfl⟩ hc he
    rw [List.append_assoc] at hc
    obtain ⟨c', hr, hmove⟩ := h.complete hfirst hc
    obtain ⟨c'', hnext⟩ := (hn a first hfirst).long hsecond (hmove.rest_eq hc) he
    exact ⟨c'', (bind_of_ok hr).trans hnext⟩

theorem field {encode : α → Bytes} {valid : α → Prop} {next : α → Reader β} {tail : β → Bytes}
    {P : α → β → Prop} {Q : β → Prop} (part : β → α) (h : reader.Exact (.of encode valid))
    (hn : ∀ a, valid a → (next a).Delimited (.of tail fun b => (Q b ∧ part b = a) ∧ P a b)) :
    (reader >>= next).Delimited
      (.of (fun b => encode (part b) ++ tail b) fun b => Q b ∧ valid (part b) ∧ P (part b) b) := by
  refine (bind_of h fun a first hfirst => hn a hfirst.2).congr fun bytes b => ?_
  exact Format.field_iff

/-- A part that is the same in all values. -/
theorem expecting {γ : Type} [DecidableEq γ] {tail : α → Bytes} {P Q : α → Prop}
    {expected found : γ} {failure : Failure} (h : reader.Delimited (.of tail fun a => Q a ∧ P a)) :
    (if found ≠ expected then Reader.fail failure else reader).Delimited
      (.of tail fun a => (Q a ∧ expected = found) ∧ P a) := by
  by_cases hfound : found = expected
  · simpa [hfound] using h
  · -- no value has another part here
    have hnone (bytes : Bytes) (a : α) :
        ¬ Format.of tail (fun a => (Q a ∧ expected = found) ∧ P a) bytes a :=
      fun hf => hfound hf.2.1.2.symm
    refine ⟨fun c a => ?_, fun _ _ _ _ hf => (hnone _ _ hf).elim, fun hf => (hnone _ _ hf).elim⟩
    simp [hfound, Ne.symm hfound, Reader.fail]

theorem atEnd {a : α} {Q : α → Prop} (h : ∀ b, Q b ↔ b = a) :
    Delimited (do
        let cursor ← get
        if cursor.rest.isEmpty then return a
        else Reader.fail { cause := .trailingBytes cursor.rest.length })
      (.of (fun _ => []) fun b => Q b ∧ True) where
  covers c b := by
    change (∃ c', (if c.rest.isEmpty then (Pure.pure a : Reader α) else Reader.fail _) c =
      .ok b c' ∧ True) ↔ _
    by_cases hend : c.rest = []
    · simp [hend, pure_apply, h, eq_comm]
    · simp [hend, Reader.fail]
  short := by
    rintro _ b c missing ⟨rfl, -⟩ hc hm
    exact absurd (List.append_eq_nil_iff.1 hc.symm).2 hm
  long := by
    rintro _ b c excess ⟨rfl, -⟩ hc he
    rw [List.nil_append] at hc
    refine ⟨c, ?_⟩
    change (if c.rest.isEmpty then (Pure.pure a : Reader α) else Reader.fail _) c = _
    simp [hc, he, Reader.fail]

end Delimited

end Reader

end ClassFormat
