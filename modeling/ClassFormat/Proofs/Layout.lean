import ClassFormat.Layout
import ClassFormat.Proofs.Reader

namespace ClassFormat

theorem checkCount_eq_ok {bits value : Nat} :
    checkCount bits value = .ok () ↔ value < 2 ^ bits := by
  unfold checkCount
  split <;> simp_all

theorem checkCount16_eq_ok {value : Nat} : checkCount 16 value = .ok () ↔ value < 256 ^ 2 :=
  checkCount_eq_ok

theorem checkCount32_eq_ok {value : Nat} : checkCount 32 value = .ok () ↔ value < 256 ^ 4 :=
  checkCount_eq_ok

theorem inContext_eq_ok {α : Type} {context : Context} {result : Except Failure α} {a : α} :
    inContext context result = .ok a ↔ result = .ok a := by
  cases result <;> simp [inContext]

theorem except_bind_eq_ok {α β : Type} {result : Except Failure α} {next : α → Except Failure β}
    {b : β} :
    result >>= next = .ok b ↔ ∃ a, result = .ok a ∧ next a = .ok b := by
  cases result <;> simp [bind, Except.bind]

theorem eq_ok_of_toOption {ε α : Type} {result : Except ε α} {a : α}
    (h : result.toOption = some a) : result = .ok a := by
  cases result with
  | ok b => rw [Option.some.inj h]
  | error failure => cases h

theorem check_then_eq_ok {first second : Except Failure Unit} :
    (do first; second) = .ok () ↔ first = .ok () ∧ second = .ok () := by
  cases first <;> simp [bind, Except.bind]

theorem check_return_eq_ok {α : Type} {check : Except Failure Unit} {a b : α} :
    (do check; return a) = .ok b ↔ check = .ok () ∧ b = a := by
  cases check <;> simp [bind, Except.bind, pure, Except.pure, eq_comm]

theorem forM_eq_ok {α : Type} {check : α → Except Failure Unit} {as : List α} :
    forM as check = .ok () ↔ ∀ a ∈ as, check a = .ok () := by
  induction as with
  | nil => simp [pure, Except.pure]
  | cons a as ih => rw [List.forM_cons, check_then_eq_ok, ih, List.forall_mem_cons]

theorem exists_of_forM_eq_error {α : Type} {check : α → Except Failure Unit} {as : List α}
    {failure : Failure} (h : forM as check = .error failure) :
    ∃ a ∈ as, check a = .error failure := by
  induction as with
  | nil => cases h
  | cons a as ih =>
    rw [List.forM_cons] at h
    cases ha : check a with
    | error first =>
      rw [ha] at h
      cases h
      exact ⟨a, List.mem_cons_self, ha⟩
    | ok _ =>
      rw [ha] at h
      obtain ⟨b, hb, hfail⟩ := ih h
      exact ⟨b, List.mem_cons_of_mem a hb, hfail⟩

/-- A result that fails only by causes of some sort. -/
def FailsBy {α : Type} (allowed : Cause → Prop) (result : Except Failure α) : Prop :=
  ∀ failure, result = .error failure → allowed failure.cause

namespace FailsBy

variable {α β : Type} {allowed : Cause → Prop}

theorem ok (a : α) : FailsBy allowed (.ok a) := by
  intro failure h
  cases h

theorem error {failure : Failure} (h : allowed failure.cause) :
    FailsBy allowed (.error failure : Except Failure α) := by
  intro failure' h'
  cases h'
  exact h

theorem bind {result : Except Failure α} {next : α → Except Failure β}
    (h : FailsBy allowed result) (hnext : ∀ a, FailsBy allowed (next a)) :
    FailsBy allowed (result >>= next) := by
  cases result with
  | ok a => exact hnext a
  | error failure => exact error (h failure rfl)

theorem inContext {result : Except Failure α} (h : FailsBy allowed result) (context : Context) :
    FailsBy allowed (inContext context result) := by
  cases result with
  | ok a => exact ok a
  | error failure => exact error (h failure rfl)

theorem forM {check : α → Except Failure Unit} {as : List α}
    (h : ∀ a ∈ as, FailsBy allowed (check a)) : FailsBy allowed (forM as check) := by
  induction as with
  | nil => exact ok ()
  | cons a as ih =>
    obtain ⟨ha, has⟩ := List.forall_mem_cons.1 h
    rw [List.forM_cons]
    exact bind ha fun _ => ih has

theorem checkCount (h : ∀ flaw, allowed (.malformed flaw)) (bits value : Nat) :
    FailsBy allowed (checkCount bits value) := by
  unfold ClassFormat.checkCount
  split
  · exact ok ()
  · exact error (h _)

end FailsBy

theorem pow_eight_mul (width : Nat) : 2 ^ (8 * width) = 256 ^ width := by
  rw [Nat.pow_mul]

namespace Layout

variable {α β : Type}

/-- The bytes of a value that can be written and satisfies `valid` are read back as this value, no
others are read, and there are as many as the length says. -/
structure Lawful (layout : Layout α) (valid : α → Prop := fun _ => True) : Prop where
  read : layout.read.Exact (.of layout.encode fun a => layout.check a = .ok () ∧ valid a)
  length (a : α) : (layout.encode a).length = layout.length a

theorem write_eq_ok {layout : Layout α} {a : α} {bytes : Bytes} :
    layout.write a = .ok bytes ↔ layout.check a = .ok () ∧ bytes = layout.encode a :=
  check_return_eq_ok

theorem length_flatMap_of_mem {encode : α → Bytes} {size : α → Nat} {as : List α}
    (h : ∀ a ∈ as, (encode a).length = size a) : (as.flatMap encode).length = total size as := by
  induction as with
  | nil => rfl
  | cons a as ih =>
    obtain ⟨hfirst, hrest⟩ := List.forall_mem_cons.1 h
    rw [List.flatMap_cons, List.length_append, hfirst, ih hrest, total]

theorem length_flatMap {encode : α → Bytes} {size : α → Nat}
    (h : ∀ a, (encode a).length = size a) (as : List α) :
    (as.flatMap encode).length = total size as :=
  length_flatMap_of_mem fun a _ => h a

theorem le_total {size : α → Nat} {a : α} {as : List α} (h : a ∈ as) : size a ≤ total size as := by
  induction as with
  | nil => simp at h
  | cons b as ih =>
    rw [total]
    rcases List.mem_cons.1 h with rfl | hmem
    · omega
    · have := ih hmem
      omega

theorem total_const (size : Nat) (as : List α) : total (fun _ => size) as = as.length * size := by
  induction as with
  | nil => simp [total]
  | cons a as ih => rw [total, ih, List.length_cons, Nat.succ_mul, Nat.add_comm]

theorem list_check_eq_ok {width : Nat} {item : Layout α} {as : List α} :
    (list width item).check as = .ok () ↔
      as.length < 256 ^ width ∧ ∀ a ∈ as, item.check a = .ok () := by
  simp only [list, check_then_eq_ok, checkCount_eq_ok, pow_eight_mul, List.forM_eq_forM, forM_eq_ok]

theorem list_failsBy {allowed : Cause → Prop} (h : ∀ flaw, allowed (.malformed flaw)) {width : Nat}
    {item : Layout α} {as : List α} (hitem : ∀ a ∈ as, FailsBy allowed (item.check a)) :
    FailsBy allowed ((list width item).check as) :=
  .bind (.checkCount h _ _) fun _ => .forM hitem

namespace Lawful

variable {layout : Layout α} {valid : α → Prop}

theorem congr {valid' : α → Prop} (h : layout.Lawful valid) (hv : ∀ a, valid a ↔ valid' a) :
    layout.Lawful valid' := by
  have he : valid = valid' := by funext a; exact propext (hv a)
  exact he ▸ h

theorem u8 : Layout.u8.Lawful := ⟨Reader.Exact.u8.congr (by simp [Layout.u8]), fun _ => rfl⟩

theorem u16 : Layout.u16.Lawful := ⟨Reader.Exact.u16.congr (by simp [Layout.u16]), fun _ => rfl⟩

theorem u32 : Layout.u32.Lawful := ⟨Reader.Exact.u32.congr (by simp [Layout.u32]), fun _ => rfl⟩

theorem u64 : Layout.u64.Lawful := ⟨Reader.Exact.u64.congr (by simp [Layout.u64]), fun _ => rfl⟩

theorem count (width : Nat) : (Layout.count width).Lawful where
  read := (Reader.Exact.number width).congr fun bytes n => by
    simp only [Format.of_iff, Layout.count, checkCount_eq_ok, pow_eight_mul, and_true]
  length _ := length_bigEndian ..

theorem pair {first : Layout α} {second : Layout β} {valid' : β → Prop}
    (h : first.Lawful valid) (h' : second.Lawful valid') :
    (first.pair second).Lawful fun p => valid p.1 ∧ valid' p.2 where
  read := by
    refine (h.read.field (Q := fun _ => True) Prod.fst fun a _ => h'.read.field Prod.snd fun b _ =>
      .done fun p => ?_).congr fun bytes p => ?_
    · cases p
      simp
    · simp only [Format.of_iff, Layout.pair, check_then_eq_ok, List.append_nil]
      grind
  length p := by simp [Layout.pair, h.length, h'.length]

theorem as {toFun : α → β} {invFun : β → α} (h : layout.Lawful valid)
    (hl : ∀ a, invFun (toFun a) = a) (hr : ∀ b, toFun (invFun b) = b) :
    (layout.as toFun invFun).Lawful fun b => valid (invFun b) where
  read := h.read.as hl hr
  length b := h.length (invFun b)

theorem withLength {length : α → Nat} (h : layout.Lawful valid)
    (hlength : ∀ a, layout.length a = length a) : (layout.withLength length).Lawful valid where
  read := h.read
  length a := (h.length a).trans (hlength a)

theorem list (h : layout.Lawful valid) (width : Nat) :
    (Layout.list width layout).Lawful fun as => ∀ a ∈ as, valid a where
  read := by
    refine (h.read.list width).congr fun bytes as => ?_
    rw [Format.of_iff, Format.of_iff, list_check_eq_ok, Layout.list]
    grind
  length as := by simp [Layout.list, length_flatMap h.length]

theorem both {first : Layout α} {second : Layout β} (h : first.Lawful) (h' : second.Lawful) :
    (first.pair second).Lawful :=
  (h.pair h').congr fun _ => iff_of_true ⟨trivial, trivial⟩ trivial

/-- A row of fields, with the length that is told for it. -/
theorem row {toFun : α → β} {invFun : β → α} {length : β → Nat} (h : layout.Lawful)
    (hl : ∀ a, invFun (toFun a) = a) (hr : ∀ b, toFun (invFun b) = b)
    (hlength : ∀ b, layout.length (invFun b) = length b) :
    ((layout.as toFun invFun).withLength length).Lawful :=
  (h.as hl hr).withLength hlength

theorem table (h : layout.Lawful) (width : Nat) : (Layout.list width layout).Lawful :=
  (h.list width).congr fun _ => iff_of_true (fun _ _ => trivial) trivial

end Lawful

end Layout

end ClassFormat
