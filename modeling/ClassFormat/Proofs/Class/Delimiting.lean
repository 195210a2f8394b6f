import ClassFormat.Proofs.Class.RoundTrip

namespace ClassFormat

namespace Reader

variable {α β : Type}

/-- The reader does what `other` does, or else it wants more input than there is. -/
def Approximates (reader other : Reader α) : Prop :=
  ∀ c, reader c = other c ∨ ∃ failure c', reader c = .error failure c' ∧ failure.IsTruncation

namespace Approximates

variable {reader other : Reader α}

theorem refl (reader : Reader α) : reader.Approximates reader := fun _ => .inl rfl

theorem bind {next next' : α → Reader β} (h : reader.Approximates other)
    (hn : ∀ a, (next a).Approximates (next' a)) :
    (reader >>= next).Approximates (other >>= next') := by
  intro c
  rcases h c with hsame | ⟨failure, c', hfail, ht⟩
  · rw [bind_apply, bind_apply, hsame]
    cases other c with
    | ok a c' => exact hn a c'
    | error failure c' => exact .inl rfl
  · exact .inr ⟨failure, c', bind_of_error hfail, ht⟩

theorem after (reader : Reader α) {next next' : α → Reader β}
    (hn : ∀ a, (next a).Approximates (next' a)) :
    (reader >>= next).Approximates (reader >>= next') := (refl reader).bind hn

theorem ite (p : Prop) [Decidable p] (first : Reader α) (h : reader.Approximates other) :
    (if p then first else reader).Approximates (if p then first else other) := by
  by_cases hp : p
  · rw [if_pos hp, if_pos hp]
    exact refl first
  · rw [if_neg hp, if_neg hp]
    exact h

theorem within (h : reader.Approximates other) (context : Context) :
    (Reader.within context reader).Approximates (Reader.within context other) := by
  intro c
  unfold Reader.within
  rcases h c with hsame | ⟨failure, c', hfail, ht⟩
  · rw [hsame]
    exact .inl rfl
  · rw [hfail]
    exact .inr ⟨failure.within context, c', rfl, ht⟩

theorem collect {item item' : Nat → Reader α} (h : ∀ index, (item index).Approximates (item' index))
    (count index : Nat) (read : List α) :
    (Reader.collect item count index read).Approximates
      (Reader.collect item' count index read) := by
  induction count generalizing index read with
  | zero => exact refl _
  | succ count ih =>
    apply (h index).bind
    intro a
    exact ih (index + 1) (a :: read)

theorem list (h : reader.Approximates other) (width : Nat) :
    (Reader.list width reader).Approximates (Reader.list width other) := by
  apply after
  intro size
  apply collect
  intro index
  exact h.within (.element index size)

theorem inside (h : reader.Approximates other) (count : Nat) :
    (Reader.inside count reader).Approximates (Reader.inside count other) := by
  intro c
  rw [inside_apply, inside_apply]
  by_cases hshort : c.rest.length < count
  · rw [if_pos hshort, if_pos hshort]
    exact .inl rfl
  · rw [if_neg hshort, if_neg hshort]
    rcases h { rest := c.rest.take count, events := c.events } with
      hsame | ⟨failure, c', hfail, ht⟩
    · rw [hsame]
      exact .inl rfl
    · rw [hfail]
      exact .inr ⟨failure, _, rfl, ht⟩

end Approximates

end Reader

open Reader (Approximates)

section Nested

variable {nested nested' : Reader AttributeInfo} (h : nested.Approximates nested')

include h

theorem Code.readWith_approximates : (readWith nested).Approximates (readWith nested') := by
  refine .after _ fun maxStack => .after _ fun maxLocals => .after _ fun size =>
    .after _ fun code => .after _ fun handlers => ?_
  exact (h.list 2).bind fun attributes => .refl _

theorem RecordComponent.readWith_approximates :
    (readWith nested).Approximates (readWith nested') := by
  refine .after _ fun nameIndex => .after _ fun descriptorIndex => ?_
  exact (h.list 2).bind fun attributes => .refl _

theorem Attribute.readKind_approximates (kind : Kind) :
    (readKind nested kind).Approximates (readKind nested' kind) := by
  cases kind with
  | code => exact (Code.readWith_approximates h).bind fun body => .refl _
  | record =>
    exact ((RecordComponent.readWith_approximates h).list 2).bind fun components => .refl _
  | _ => exact .refl _

theorem Attribute.readNamed_approximates (name : String) :
    (readNamed nested name).Approximates (readNamed nested' name) := by
  unfold readNamed
  cases Kind.ofName? name with
  | some kind => exact readKind_approximates h kind
  | none => exact .refl _

theorem AttributeInfo.readBody_approximates (length : UInt32) (name : Except Unresolved String) :
    (readBody nested length name).Approximates (readBody nested' length name) := by
  cases name with
  | ok name =>
    apply Approximates.after
    intro _
    exact (Attribute.readNamed_approximates h name).within (.readingAttribute name)
  | error unresolved => exact .refl _

end Nested

theorem AttributeInfo.readWithin_approximates (pool : Pool) {budget larger : Nat}
    (h : budget ≤ larger) :
    (readWithin pool budget).Approximates (readWithin pool larger) := by
  induction budget generalizing larger with
  | zero =>
    -- without budget nothing is read, as if the input were at its end
    intro c
    exact .inr ⟨Reader.truncation c 2, c, rfl, _, _, _, rfl⟩
  | succ budget ih =>
    obtain ⟨larger, rfl⟩ : ∃ n, larger = n + 1 := ⟨larger - 1, by omega⟩
    have hnested : (readWithin pool budget).Approximates (readWithin pool larger) :=
      ih (by omega)
    refine .after _ fun nameIndex => .after _ fun length => ?_
    exact ((readBody_approximates hnested length (pool.utf8 nameIndex)).inside length.toNat).bind
      fun body => .refl _

theorem Member.readWithin_approximates (pool : Pool) {budget larger : Nat} (h : budget ≤ larger) :
    (readWithin budget pool).Approximates (readWithin larger pool) := by
  refine .after _ fun accessFlags => .after _ fun nameIndex => .after _ fun descriptorIndex => ?_
  exact ((AttributeInfo.readWithin_approximates pool h).list 2).bind fun attributes => .refl _

namespace ClassFile

theorem readWithin_approximates {budget larger : Nat} (h : budget ≤ larger) :
    (readWithin budget).Approximates (readWithin larger) := by
  have hmembers (pool : Pool) (table : MemberTable) :
      (Reader.within (.readingMembers table)
        (Reader.list 2 (Member.readWithin budget pool))).Approximates
      (Reader.within (.readingMembers table) (Reader.list 2 (Member.readWithin larger pool))) :=
    ((Member.readWithin_approximates pool h).list 2).within (.readingMembers table)
  have hattributes (pool : Pool) :
      (Reader.within .readingClassAttributes
        (Reader.list 2 (AttributeInfo.readWithin pool budget))).Approximates
      (Reader.within .readingClassAttributes
        (Reader.list 2 (AttributeInfo.readWithin pool larger))) :=
    ((AttributeInfo.readWithin_approximates pool h).list 2).within .readingClassAttributes
  refine .after _ fun number => .ite _ _ <| .after _ fun minorVersion =>
    .after _ fun majorVersion => .after _ fun _ => .after _ fun pool => .after _ fun accessFlags =>
      .after _ fun thisClass => .after _ fun superClass => .after _ fun interfaces => ?_
  refine (hmembers pool .fields).bind fun fields => (hmembers pool .methods).bind fun methods => ?_
  exact .after _ fun _ => (hattributes pool).bind fun attributes => .refl _

theorem read_eq_error {bytes : Bytes} {failure : Failure} {c : Cursor}
    (h : readWithin bytes.length { rest := bytes } = .error failure c) :
    read bytes = .error failure := by
  unfold read readLogged
  rw [h]

/-- Class files are self-delimiting: of one that is read, every proper beginning is truncated input,
and with more bytes behind it, these are what is wrong. -/
theorem read_of_cut_or_extended {bytes : Bytes} {c : ClassFile} (h : read bytes = .ok c) :
    (∀ cut : Bytes, cut <+: bytes → cut ≠ bytes →
      ∃ failure, read cut = .error failure ∧ failure.IsTruncation) ∧
    ∀ excess : Bytes, excess ≠ [] →
      read (bytes ++ excess) = .error { cause := .trailingBytes excess.length } := by
  obtain ⟨hbytes, hcheck, hwell, hcanonical⟩ := read_eq_ok.1 h
  have hlength : c.length = bytes.length := by rw [hbytes, length_encode]
  -- with at least the length of the class as budget, its bytes are those that are read
  have hformat (budget : Nat) (hbudget : bytes.length ≤ budget) :
      Format.of encode (Readable budget) bytes c :=
    ⟨hbytes, (readable_iff (by omega)).2 ⟨hcheck, hwell, hcanonical⟩⟩
  constructor
  · intro cut hcut hne
    obtain ⟨missing, rfl⟩ := hcut
    have hmissing : missing ≠ [] := by
      intro hnil
      apply hne
      rw [hnil, List.append_nil]
    obtain ⟨failure, c', hfail, ht⟩ := (readWithin_delimited (cut ++ missing).length).short
      (c := { rest := cut }) (hformat _ (Nat.le_refl _)) rfl hmissing
    have hle : cut.length ≤ (cut ++ missing).length := by
      rw [List.length_append]
      omega
    rcases readWithin_approximates hle { rest := cut } with hsame | ⟨failure', c'', hfail', ht'⟩
    · exact ⟨failure, read_eq_error (hsame.trans hfail), ht⟩
    · exact ⟨failure', read_eq_error hfail', ht'⟩
  · intro excess hexcess
    have hle : bytes.length ≤ (bytes ++ excess).length := by
      rw [List.length_append]
      omega
    obtain ⟨c', hfail⟩ := (readWithin_delimited (bytes ++ excess).length).long
      (c := { rest := bytes ++ excess }) (hformat _ hle) rfl hexcess
    exact read_eq_error hfail

/-- A cut into the code of a method, and two bytes too many. -/
theorem read_of_cut_or_extended_oddBytes : (∃ c, read oddBytes = .ok c) ∧
    (∃ failure, read (oddBytes.take 60) = .error failure ∧ failure.IsTruncation) ∧
    read (oddBytes ++ [0, 0]) = .error { cause := .trailingBytes 2 } := by
  have hok : (read oddBytes).isOk = true := by decide +kernel
  cases h : read oddBytes with
  | ok c =>
    obtain ⟨hcut, hextended⟩ := read_of_cut_or_extended h
    have htake : oddBytes.take 60 <+: oddBytes :=
      ⟨oddBytes.drop 60, List.take_append_drop 60 oddBytes⟩
    exact ⟨⟨c, rfl⟩, hcut _ htake (by decide), hextended [0, 0] (by decide)⟩
  | error failure =>
    rw [h] at hok
    cases hok

end ClassFile

end ClassFormat
