import ClassFormat.Proofs.Class.FirstCode
import ClassFormat.Proofs.Class.RoundTrip
import ClassFormat.Proofs.Instruction.RoundTrip
import ClassFormat.RoundTrip

namespace ClassFormat.RoundTrip

open Instruction (Decoded reservedPlaces)

/-- A code array that decodes, with zeros for all padding and reserved bytes. -/
def Recoverable (code : Bytes) : Prop :=
  ∃ xs, Instruction.decode code = .ok xs ∧
    ∀ place ∈ xs.flatMap reservedPlaces, code[place]? = some 0

/-- A failure by the first `Code` attribute of a method: it does not decode, or it has other bytes
than its instructions are encoded as. -/
def BlamesCode (pool : Pool) (method : Member) (failure : Failure) : Prop :=
  ∃ i info code, FirstCode method.attributes i info code ∧
    ((∃ inner, Instruction.decode code.code = .error inner ∧
        failure = inner.within (.methodCode (method.name pool))) ∨
      (∃ xs encoded, Instruction.decode code.code = .ok xs ∧ Instruction.encode xs = .ok encoded ∧
        encoded ≠ code.code ∧ failure = { cause := .differentInstructions (method.name pool) }))

theorem checkOffsets_of_stream {offset : Nat} {afterWide : Bool} {code : Bytes}
    {xs : List Instruction} (h : Instruction.Stream Decoded offset afterWide code xs)
    (hlt : offset + code.length < 2 ^ 32) :
    checkOffsets offset xs = .ok (offset + code.length) := by
  induction xs generalizing offset afterWide code with
  | nil =>
    rw [Instruction.Stream] at h
    rw [h]
    rfl
  | cons x xs ih =>
    obtain ⟨first, rest, rfl, hpiece, hrest⟩ := h
    rw [List.length_append] at hlt ⊢
    have hx : x.offset.toNat = offset := hpiece.offset_toNat (by omega)
    have hsize : x.size.toNat = first.length := hpiece.size_toNat (by omega)
    rw [checkOffsets, if_pos hx, hsize, ih hrest (by omega), Nat.add_assoc]

theorem checkOffsets_of_decode {code : Bytes} {xs : List Instruction}
    (h : Instruction.decode code = .ok xs) : checkOffsets 0 xs = .ok code.length := by
  obtain ⟨hlt, hstream⟩ := Instruction.decode_eq_ok.1 h
  have hoffsets := checkOffsets_of_stream hstream (by omega)
  rw [Nat.zero_add] at hoffsets
  exact hoffsets

theorem exists_encode_of_decode {code : Bytes} {xs : List Instruction}
    (h : Instruction.decode code = .ok xs) : ∃ encoded, Instruction.encode xs = .ok encoded ∧
      (encoded = code ↔ ∀ place ∈ xs.flatMap reservedPlaces, code[place]? = some 0) := by
  obtain ⟨hlt, hstream⟩ := Instruction.decode_eq_ok.1 h
  refine ⟨_, Instruction.encode_decoded h, Instruction.cleared_eq_self_iff ?_⟩
  intro place hplace
  have := hstream.reservedPlaces_bound (by omega) hplace
  omega

/-- Of the checks of decoded code only the last one can fail. -/
theorem checkCode_of_decode {method : Except Unresolved String} {code encoded : Bytes}
    {xs : List Instruction} (h : Instruction.decode code = .ok xs)
    (he : Instruction.encode xs = .ok encoded) :
    checkCode method code = if encoded ≠ code then .error { cause := .differentInstructions method }
      else .ok () := by
  unfold checkCode
  rw [h]
  -- the offsets count up to the end of the code, so this check and the next one pass
  change (checkOffsets 0 xs >>= fun covered => _) = _
  rw [checkOffsets_of_decode h]
  change (if code.length ≠ code.length then _ else Instruction.encode xs >>= fun encoded => _) = _
  rw [if_neg (by simp), he]
  rfl

theorem checkCode_of_error {method : Except Unresolved String} {code : Bytes} {failure : Failure}
    (h : Instruction.decode code = .error failure) :
    checkCode method code = .error (failure.within (.methodCode method)) := by
  unfold checkCode
  rw [h]
  rfl

theorem checkCode_eq_ok {method : Except Unresolved String} {code : Bytes} :
    checkCode method code = .ok () ↔ Recoverable code := by
  cases h : Instruction.decode code with
  | error failure => simp [checkCode_of_error h, Recoverable, h]
  | ok xs =>
    obtain ⟨encoded, hencode, hsame⟩ := exists_encode_of_decode h
    rw [checkCode_of_decode h hencode]
    by_cases heq : encoded = code
    · simpa [heq, Recoverable, h] using hsame.1 heq
    · simpa [heq, Recoverable, h] using fun hzero => heq (hsame.2 hzero)

theorem checkMethod_eq_ok {pool : Pool} {method : Member} : checkMethod pool method = .ok () ↔
    ∀ i info code, FirstCode method.attributes i info code → Recoverable code.code := by
  have hfirst : (∀ i info code, FirstCode method.attributes i info code → Recoverable code.code) ↔
      ∀ code, method.code? = some code → Recoverable code.code := by
    simp only [Member.code?_eq_some]
    exact ⟨fun h code ⟨i, info, hcode⟩ => h i info code hcode,
      fun h i info code hcode => h code ⟨i, info, hcode⟩⟩
  rw [hfirst, checkMethod]
  cases method.code? with
  | none => simp
  | some code => simpa using checkCode_eq_ok

theorem blamesCode_of_checkMethod {pool : Pool} {method : Member} {failure : Failure}
    (h : checkMethod pool method = .error failure) : BlamesCode pool method failure := by
  cases hcode : method.code? with
  | none => simp [checkMethod, hcode] at h
  | some code =>
    have hfail : checkCode (method.name pool) code.code = .error failure := by
      simpa only [checkMethod, hcode] using h
    obtain ⟨i, info, hfirst⟩ := Member.exists_firstCode hcode
    refine ⟨i, info, code, hfirst, ?_⟩
    cases hdecode : Instruction.decode code.code with
    | error inner =>
      rw [checkCode_of_error hdecode] at hfail
      cases hfail
      exact .inl ⟨inner, rfl, rfl⟩
    | ok xs =>
      obtain ⟨encoded, hencode, -⟩ := exists_encode_of_decode hdecode
      rw [checkCode_of_decode hdecode hencode] at hfail
      split at hfail
      · rename_i hne
        cases hfail
        exact .inr ⟨xs, encoded, rfl, hencode, hne, rfl⟩
      · cases hfail

theorem check_of_error {bytes : Bytes} {failure : Failure}
    (h : ClassFile.read bytes = .error failure) : check bytes = .error failure := by
  change (ClassFile.read bytes).bind (checkRead bytes) = _
  rw [h]
  rfl

/-- Behind the checks of its methods, a class that was read is written as it was. -/
theorem check_of_read {bytes : Bytes} {c : ClassFile} (h : ClassFile.read bytes = .ok c) :
    check bytes = do forM c.methods (checkMethod c.pool); return .identical := by
  -- what was read is written as the same bytes, so the comparison at the end has no other outcome
  obtain ⟨hbytes, hcheck, -, -⟩ := ClassFile.read_eq_ok.1 h
  have hwrite : c.write = .ok bytes := ClassFile.write_eq_ok.2 ⟨hcheck, hbytes⟩
  change (ClassFile.read bytes).bind (checkRead bytes) = _
  rw [h]
  change checkRead bytes c = _
  unfold checkRead
  rw [hwrite, List.forM_eq_forM]
  change (forM c.methods (checkMethod c.pool) >>= fun _ =>
    (.ok (if bytes = bytes then .identical else _) : Except Failure Outcome)) = _
  rw [if_pos rfl]
  rfl

theorem check_eq_identical {bytes : Bytes} : check bytes = .ok .identical ↔
    ∃ c, ClassFile.read bytes = .ok c ∧
      ∀ method ∈ c.methods, ∀ i info code, FirstCode method.attributes i info code →
        Recoverable code.code := by
  cases h : ClassFile.read bytes with
  | error failure => simp [check_of_error h]
  | ok c =>
    rw [check_of_read h, check_return_eq_ok, forM_eq_ok]
    simp [checkMethod_eq_ok]

theorem check_ne_mismatch (bytes : Bytes) (firstDifference : Nat) :
    check bytes ≠ .ok (.mismatch firstDifference) := by
  cases h : ClassFile.read bytes with
  | error failure => simp [check_of_error h]
  | ok c =>
    rw [check_of_read h, ne_eq, check_return_eq_ok]
    simp

/-- There are two verdicts on a class file. It is identical exactly if it is read and the first
`Code` attribute of each method decodes, with zeros for padding and reserved bytes; otherwise there
is a failure, of reading or by the code of a method. Decoded instructions always start where those
before them end, cover their array and can be encoded, and so no failure comes from there. -/
theorem check_verdict (bytes : Bytes) :
    (∀ firstDifference, check bytes ≠ .ok (.mismatch firstDifference)) ∧
    (check bytes = .ok .identical ↔ ∃ c, ClassFile.read bytes = .ok c ∧
      ∀ method ∈ c.methods, ∀ i info code, FirstCode method.attributes i info code →
        Recoverable code.code) ∧
    (check bytes ≠ .ok .identical → ∃ failure, check bytes = .error failure) ∧
    (∀ failure, check bytes = .error failure → ClassFile.read bytes = .error failure ∨
      ∃ c, ClassFile.read bytes = .ok c ∧ ∃ method ∈ c.methods, BlamesCode c.pool method failure) ∧
    ∀ (code : Bytes) (xs : List Instruction), Instruction.decode code = .ok xs →
      checkOffsets 0 xs = .ok code.length ∧ ∃ encoded, Instruction.encode xs = .ok encoded := by
  refine ⟨check_ne_mismatch bytes, check_eq_identical, ?_, ?_, ?_⟩
  · intro hne
    cases h : check bytes with
    | error failure => exact ⟨failure, rfl⟩
    | ok outcome =>
      cases outcome with
      | identical => exact absurd h hne
      | mismatch firstDifference => exact absurd h (check_ne_mismatch bytes firstDifference)
  · intro failure hfail
    cases h : ClassFile.read bytes with
    | error first =>
      rw [check_of_error h] at hfail
      cases hfail
      exact .inl rfl
    | ok c =>
      refine .inr ⟨c, rfl, ?_⟩
      rw [check_of_read h] at hfail
      have hmethods : forM c.methods (checkMethod c.pool) = .error failure := by
        cases hall : forM c.methods (checkMethod c.pool) with
        | error first =>
          rw [hall] at hfail
          cases hfail
          rfl
        | ok _ =>
          rw [hall] at hfail
          cases hfail
      obtain ⟨method, hmem, hmethod⟩ := exists_of_forM_eq_error hmethods
      exact ⟨method, hmem, blamesCode_of_checkMethod hmethod⟩
  · intro code xs hdecode
    obtain ⟨encoded, hencode, -⟩ := exists_encode_of_decode hdecode
    exact ⟨checkOffsets_of_decode hdecode, encoded, hencode⟩

/-- A class whose one method consists of an `invokedynamic` and a return. -/
def callingBytes (reserved : UInt8) : Bytes :=
  [0xca, 0xfe, 0xba, 0xbe, 0, 0, 0, 52, 0, 2, 1, 0, 4, 67, 111, 100, 101, 0, 0, 0, 0, 0, 0, 0, 0,
    0, 0, 0, 1, 0, 0, 0, 0, 0, 0, 0, 1, 0, 1, 0, 0, 0, 18, 0, 0, 0, 0, 0, 0, 0, 6,
    0xba, 0, 1, 0, reserved, 0xb1, 0, 0, 0, 0, 0, 0]

/-- One reserved byte decides. -/
theorem check_verdict_callingBytes :
    (∃ c, ClassFile.read (callingBytes 0) = .ok c ∧
      ∀ method ∈ c.methods, ∀ i info code, FirstCode method.attributes i info code →
        Recoverable code.code) ∧
    ∃ failure, check (callingBytes 7) = .error failure := by
  have hzero : check (callingBytes 0) = .ok .identical := eq_ok_of_toOption (by decide +kernel)
  have hseven : (check (callingBytes 7)).toOption = none := by decide +kernel
  refine ⟨(check_verdict (callingBytes 0)).2.1.1 hzero, (check_verdict (callingBytes 7)).2.2.1 ?_⟩
  intro hok
  rw [hok] at hseven
  cases hseven

end ClassFormat.RoundTrip
