import ClassFormat.Proofs.Attribute.Writable

namespace ClassFormat

namespace Reader

variable {α β : Type}

/-- In front of the bytes of a value that is `refused`, the reader fails by `cause`, whatever stands
behind them. -/
def Refuses (reader : Reader α) (cause : Cause) (encode : β → Bytes) (refused : β → Prop) : Prop :=
  ∀ ⦃b : β⦄ ⦃c : Cursor⦄ ⦃rest : Bytes⦄, refused b → c.rest = encode b ++ rest →
    ∃ failure c', reader c = .error failure c' ∧ failure.cause = cause

namespace Refuses

variable {reader : Reader α} {cause : Cause} {encode : β → Bytes} {refused : β → Prop}

theorem within (h : reader.Refuses cause encode refused) (context : Context) :
    (Reader.within context reader).Refuses cause encode refused := by
  intro b c rest hb hc
  obtain ⟨failure, c', hr, hcause⟩ := h hb hc
  exact ⟨failure.within context, c', within_eq_error.2 ⟨failure, hr, rfl⟩, hcause⟩

theorem bind {γ : Type} (h : reader.Refuses cause encode refused) (next : α → Reader γ) :
    (reader >>= next).Refuses cause encode refused := by
  intro b c rest hb hc
  obtain ⟨failure, c', hr, hcause⟩ := h hb hc
  exact ⟨failure, c', bind_of_error hr, hcause⟩

theorem field {γ : Type} {first : Reader γ} {front : γ → Bytes} {valid : γ → Prop}
    {next : γ → Reader α} (part : β → γ) (h : first.Exact (.of front valid))
    (hvalid : ∀ b, refused b → valid (part b))
    (hn : ∀ a, (next a).Refuses cause encode fun b => part b = a ∧ refused b) :
    (first >>= next).Refuses cause (fun b => front (part b) ++ encode b) refused := by
  intro b c rest hb hc
  rw [List.append_assoc] at hc
  obtain ⟨c₁, hread, hmove⟩ := h.complete ⟨rfl, hvalid b hb⟩ hc
  obtain ⟨failure, c', hfail, hcause⟩ := hn (part b) ⟨rfl, hb⟩ (hmove.rest_eq hc)
  exact ⟨failure, c', (bind_of_ok hread).trans hfail, hcause⟩

section Lists

variable {encode : α → Bytes} {valid refused : α → Prop}

theorem collect {item : Nat → Reader α} (hr : ∀ index, (item index).Exact (.of encode valid))
    (h : ∀ index, (item index).Refuses cause encode refused) (count index : Nat) (read : List α) :
    (Reader.collect item count index read).Refuses cause (List.flatMap encode) fun as =>
      as.length = count ∧ (∀ a ∈ as, valid a ∨ refused a) ∧ ∃ a ∈ as, refused a := by
  induction count generalizing index read with
  | zero =>
    rintro as c rest ⟨hlen, -, a, ha, -⟩ -
    rw [List.length_eq_zero_iff.1 hlen] at ha
    cases ha
  | succ count ih =>
    rintro as c rest ⟨hlen, hall, b, hb, hrefused⟩ hc
    obtain ⟨a, as, rfl⟩ := List.exists_cons_of_length_eq_add_one hlen
    obtain ⟨ha, hall⟩ := List.forall_mem_cons.1 hall
    simp only [List.flatMap_cons, List.append_assoc] at hc
    -- what is refused is the first element, or one of the others behind a first that is read
    by_cases hfirst : refused a
    · exact (h index).bind _ hfirst hc
    · obtain ⟨c₁, hitem, hmove⟩ := (hr index).complete ⟨rfl, ha.resolve_right hfirst⟩ hc
      have hmem : b ∈ as := by
        rcases List.mem_cons.1 hb with rfl | hmem
        · exact absurd hrefused hfirst
        · exact hmem
      obtain ⟨failure, c', hrest, hcause⟩ := ih (index + 1) (a :: read)
        ⟨by simpa using hlen, hall, b, hmem, hrefused⟩ (hmove.rest_eq hc)
      exact ⟨failure, c', (bind_of_ok hitem).trans hrest, hcause⟩

theorem list (hr : reader.Exact (.of encode valid)) (h : reader.Refuses cause encode refused)
    (width : Nat) :
    (Reader.list width reader).Refuses cause
      (fun as : List α => bigEndian width as.length ++ as.flatMap encode) fun as =>
        as.length < 256 ^ width ∧ (∀ a ∈ as, valid a ∨ refused a) ∧ ∃ a ∈ as, refused a := by
  refine field List.length (Exact.number width) (fun as h => h.1) fun count => ?_
  rintro as c rest ⟨hlen, -, hinner⟩ hc
  exact collect (fun index => hr.within _) (fun index => h.within (.element index count)) count 0 []
    ⟨hlen, hinner⟩ hc

end Lists

end Refuses

end Reader

namespace ElementValue

open Reader

def tooDeep : Cause := .malformed (.deepElementValue maxNesting)

/-- Values that are written, and refused as too deep where `depth` arrays and annotations are around
them. -/
structure Deep (depth : Nat) (value : ElementValue) : Prop where
  writable : value.check = .ok ()
  tagged : ∀ found ∈ value.inside depth, found.2.HasKnownTag
  deep : ∃ found ∈ value.inside depth, maxNesting ≤ found.1

theorem fits_or_deep {depth : Nat} {value : ElementValue} (hcheck : value.check = .ok ())
    (htags : ∀ found ∈ value.inside depth, found.2.HasKnownTag) :
    value.Fits depth ∨ value.Deep depth := by
  by_cases hdeep : ∃ found ∈ value.inside depth, maxNesting ≤ found.1
  · exact .inr ⟨hcheck, htags, hdeep⟩
  · refine .inl ⟨hcheck, fun found hmem => ⟨?_, htags found hmem⟩⟩
    apply Nat.lt_of_not_le
    intro hle
    exact hdeep ⟨found, hmem, hle⟩

theorem exists_deep {α : Type} {as : List α} {value : α → ElementValue} {depth : Nat}
    (hcheck : ∀ a ∈ as, (value a).check = .ok ())
    (htags : ∀ found ∈ as.flatMap fun a => (value a).inside depth, found.2.HasKnownTag)
    (hdeep : ∃ found ∈ as.flatMap fun a => (value a).inside depth, maxNesting ≤ found.1) :
    (∀ a ∈ as, (value a).Fits depth ∨ (value a).Deep depth) ∧ ∃ a ∈ as, (value a).Deep depth := by
  have htag (a : α) (ha : a ∈ as) : ∀ found ∈ (value a).inside depth, found.2.HasKnownTag :=
    fun found hfound => htags found (List.mem_flatMap.2 ⟨a, ha, hfound⟩)
  refine ⟨fun a ha => fits_or_deep (hcheck a ha) (htag a ha), ?_⟩
  obtain ⟨found, hfound, hle⟩ := hdeep
  obtain ⟨a, ha, hmem⟩ := List.mem_flatMap.1 hfound
  exact ⟨a, ha, hcheck a ha, htag a ha, found, hmem, hle⟩

theorem readAnnotationWith_refuses {value : Reader ElementValue} {cause : Cause}
    {valid refused : ElementValue → Prop} (h : value.Exact (.of encode valid))
    (hr : value.Refuses cause encode refused) :
    Refuses (readAnnotationWith value) cause Annotation.encode fun a =>
      a.pairs.length < 256 ^ 2 ∧ (∀ pair ∈ a.pairs, valid pair.value ∨ refused pair.value) ∧
        ∃ pair ∈ a.pairs, refused pair.value := by
  have hpair : Refuses (do
        let nameIndex ← Reader.u16
        let value ← Reader.within (.readingElementValue nameIndex) value
        return (⟨nameIndex, value⟩ : ElementPair)) cause encodePair fun pair =>
      refused pair.value := by
    refine .field ElementPair.nameIndex Exact.u16 (fun _ _ => trivial) fun nameIndex => ?_
    intro pair c rest hrefused hc
    exact (hr.within _).bind _ hrefused.2 hc
  have hencode : Annotation.encode = fun a =>
      word16 a.typeIndex ++ (bigEndian 2 a.pairs.length ++ a.pairs.flatMap encodePair) := by
    funext a
    simp [encodePairs_eq, Annotation.encode]
  rw [hencode]
  refine .field Annotation.typeIndex Exact.u16 (fun _ _ => trivial) fun typeIndex => ?_
  intro a c rest hrefused hc
  exact (Refuses.list (readPair_exact h) hpair 2).bind _ hrefused.2 hc

theorem Deep.cases {depth : Nat} (h : depth < maxNesting) {value : ElementValue}
    (hdeep : value.Deep depth) :
    (∃ a, value = .nested a ∧ a.pairs.length < 256 ^ 2 ∧
      (∀ pair ∈ a.pairs, pair.value.Fits (depth + 1) ∨ pair.value.Deep (depth + 1)) ∧
      ∃ pair ∈ a.pairs, pair.value.Deep (depth + 1)) ∨
    ∃ values, value = .array values ∧ values.length < 256 ^ 2 ∧
      (∀ value ∈ values, value.Fits (depth + 1) ∨ value.Deep (depth + 1)) ∧
      ∃ value ∈ values, value.Deep (depth + 1) := by
  obtain ⟨hcheck, htags, found, hmem, hle⟩ := hdeep
  -- the value itself is not too deep, as there is room for a level
  have hinner {outer : ElementValue} {inner : List (Nat × ElementValue)}
      (hfound : found ∈ (depth, outer) :: inner) : found ∈ inner := by
    rcases List.mem_cons.1 hfound with rfl | hinner
    · omega
    · exact hinner
  cases value with
  | nested a =>
    obtain ⟨typeIndex, pairs⟩ := a
    rw [check, check_then_eq_ok, checkCount16_eq_ok, checkPairs_eq_ok] at hcheck
    rw [inside, insidePairs_eq] at htags hmem
    exact .inl ⟨_, rfl, hcheck.1, exists_deep hcheck.2 (List.forall_mem_cons.1 htags).2
      ⟨found, hinner hmem, hle⟩⟩
  | array values =>
    rw [check, check_then_eq_ok, checkCount16_eq_ok, checkValues_eq_ok] at hcheck
    rw [inside, insideValues_eq] at htags hmem
    exact .inr ⟨_, rfl, hcheck.1, exists_deep hcheck.2 (List.forall_mem_cons.1 htags).2
      ⟨found, hinner hmem, hle⟩⟩
  | _ => exact absurd (hinner hmem) List.not_mem_nil

/-- With room for `levels` more levels, the values are refused that pass the limit from where they
stand. -/
theorem readWithin_refuses {depth levels : Nat} (h : depth + levels = maxNesting) :
    (readWithin levels).Refuses tooDeep encode (Deep depth) := by
  induction levels generalizing depth with
  -- without any room left, every value is refused before it is read
  | zero =>
    intro value c rest _ _
    exact ⟨_, c, rfl, rfl⟩
  | succ levels ih =>
    have ih : (readWithin levels).Refuses tooDeep encode (Deep (depth + 1)) := ih (by omega)
    have hread : (readWithin levels).Exact (.of encode (Fits (depth + 1))) :=
      readWithin_exact (by omega)
    have hencode : encode = fun value => word8 value.tag ++ value.body := by
      funext value
      rw [encode_eq, word8_eq, List.singleton_append]
    rw [hencode]
    -- the tag is read as it is written, and what follows it tells the two apart
    refine .field tag Exact.u8 (fun _ _ => trivial) fun tag => ?_
    rintro value c rest ⟨rfl, hdeep⟩ hc
    rcases hdeep.cases (by omega) with ⟨a, rfl, hinner⟩ | ⟨values, rfl, hinner⟩
    · exact (readAnnotationWith_refuses hread ih).bind _ hinner hc
    · exact (Refuses.list hread ih 2).bind _ hinner hc

/-- What becomes of `a`, with values in it found at depths. It is written as so many bytes as its
length says. They are read back from in front of any others, unless a value is too deep: then they
are refused. -/
def ReadBackUnlessDeep {α : Type} (layout : Layout α) (found : List (Nat × ElementValue)) (a : α) :
    Prop :=
  ∃ bytes, layout.write a = .ok bytes ∧ bytes.length = layout.length a ∧
    ∀ (c : Cursor) (rest : Bytes), c.rest = bytes ++ rest →
      ((∀ value ∈ found, value.1 < 256) → ∃ c', layout.read c = .ok a c' ∧ c'.rest = rest ∧
        c'.position = c.position + bytes.length) ∧
      ((∃ value ∈ found, 256 ≤ value.1) → ∃ failure c' flaw, layout.read c = .error failure c' ∧
        failure.cause = .malformed flaw ∧ flaw.subject = "element value" ∧
        flaw.reason = "nested more than 256 levels deep")

theorem readBackUnlessDeep_of_lawful {α : Type} {layout : Layout α}
    {found : α → List (Nat × ElementValue)}
    (h : layout.Lawful fun a => AllReadable (found a))
    (hrefuses : layout.read.Refuses tooDeep layout.encode fun a => layout.check a = .ok () ∧
      (∀ value ∈ found a, value.2.HasKnownTag) ∧ ∃ value ∈ found a, maxNesting ≤ value.1)
    {a : α} (hcheck : layout.check a = .ok ()) (htags : ∀ value ∈ found a, value.2.HasKnownTag) :
    ReadBackUnlessDeep layout (found a) a := by
  refine ⟨layout.encode a, Layout.write_eq_ok.2 ⟨hcheck, rfl⟩, h.length a, ?_⟩
  intro c rest hc
  constructor
  · intro hshallow
    have hall : AllReadable (found a) := fun value hmem => ⟨hshallow value hmem, htags value hmem⟩
    obtain ⟨c', hread, hmove⟩ := h.read.complete ⟨rfl, hcheck, hall⟩ hc
    exact ⟨c', hread, hmove.rest_eq hc, hmove.position⟩
  · intro hdeep
    obtain ⟨failure, c', hread, hcause⟩ := hrefuses ⟨hcheck, htags, hdeep⟩ hc
    exact ⟨failure, c', _, hread, hcause, rfl, rfl⟩

theorem read_refuses : layout.read.Refuses tooDeep layout.encode fun value =>
    layout.check value = .ok () ∧ (∀ found ∈ value.inside 0, found.2.HasKnownTag) ∧
      ∃ found ∈ value.inside 0, maxNesting ≤ found.1 := by
  intro value c rest h hc
  exact readWithin_refuses (Nat.zero_add maxNesting) ⟨h.1, h.2.1, h.2.2⟩ hc

end ElementValue

namespace Annotation

open ElementValue

theorem read_refuses : layout.read.Refuses tooDeep layout.encode fun a =>
    layout.check a = .ok () ∧ (∀ found ∈ a.values, found.2.HasKnownTag) ∧
      ∃ found ∈ a.values, maxNesting ≤ found.1 := by
  rintro a c rest ⟨hcheck, htags, hdeep⟩ hc
  have hread : (readWithin maxNesting).Exact (.of ElementValue.encode (Fits 0)) :=
    readWithin_exact (Nat.zero_add maxNesting)
  have hchecks : a.pairs.length < 256 ^ 2 ∧ ∀ pair ∈ a.pairs, pair.value.check = .ok () := by
    rwa [← checkPairs_eq_ok, ← checkCount16_eq_ok, ← check_then_eq_ok]
  rw [values, insidePairs_eq] at htags hdeep
  exact readAnnotationWith_refuses hread (readWithin_refuses (Nat.zero_add maxNesting))
    ⟨hchecks.1, exists_deep hchecks.2 htags hdeep⟩ hc

end Annotation

namespace ElementValue

/-- Values with known tags and lists that are not too long are written, and read back unless one of
them is enclosed by 256 arrays and annotations or more. The annotation that is read itself is not
counted for the values of its own pairs. -/
theorem nesting_limit_exact :
    (∀ value : ElementValue, (∀ found ∈ value.inside 0, found.2.HasKnownTag) →
      (∀ size ∈ sizes (value.inside 0), size ≤ 65535) →
        ReadBackUnlessDeep ElementValue.layout (value.inside 0) value) ∧
    ∀ a : Annotation, (∀ found ∈ a.values, found.2.HasKnownTag) →
      (∀ size ∈ a.sizes, size ≤ 65535) → ReadBackUnlessDeep Annotation.layout a.values a := by
  constructor
  · intro value htags hsizes
    exact readBackUnlessDeep_of_lawful ElementValue.lawful read_refuses
      ((check_eq_ok 0 value).2 hsizes) htags
  · intro a htags hsizes
    have hcheck : a.check = .ok () := Annotation.check_eq_ok.2 hsizes
    exact readBackUnlessDeep_of_lawful Annotation.lawful Annotation.read_refuses hcheck htags

def enclosed : Nat → ElementValue
  | 0 => .const 0x49 1
  | levels + 1 =>
    if levels % 2 = 0 then .array [enclosed levels] else .nested ⟨1, [⟨2, enclosed levels⟩]⟩

theorem inside_enclosed (levels depth : Nat) :
    (∀ found ∈ (enclosed levels).inside depth, found.2.HasKnownTag ∧
      (∀ size ∈ found.2.ownSizes, size = 1) ∧ found.1 ≤ depth + levels) ∧
    ∃ found ∈ (enclosed levels).inside depth, found.1 = depth + levels := by
  induction levels generalizing depth with
  | zero => simp [enclosed, inside, HasKnownTag, constTags, ownSizes]
  | succ levels ih =>
    obtain ⟨hall, found, hmem, hdepth⟩ := ih (depth + 1)
    -- what is inside counts its depth from one further down
    have hlevels : depth + 1 + levels = depth + (levels + 1) := by omega
    rw [hlevels] at hall hdepth
    unfold enclosed
    split
    · simp only [inside, insideValues, List.append_nil]
      exact ⟨List.forall_mem_cons.2 ⟨⟨trivial, by simp [ownSizes], by omega⟩, hall⟩, found,
        List.mem_cons_of_mem _ hmem, hdepth⟩
    · simp only [inside, insidePairs, List.append_nil]
      exact ⟨List.forall_mem_cons.2 ⟨⟨trivial, by simp [ownSizes], by omega⟩, hall⟩, found,
        List.mem_cons_of_mem _ hmem, hdepth⟩

theorem sizes_enclosed (levels : Nat) :
    ∀ size ∈ sizes ((enclosed levels).inside 0), size ≤ 65535 := by
  intro size hsize
  obtain ⟨found, hmem, hown⟩ := List.mem_flatMap.1 hsize
  rw [((inside_enclosed levels 0).1 found hmem).2.1 size hown]
  decide

/-- The limit is between 255 levels and 256, for an annotation also behind a value that is read. -/
theorem nesting_limit_exact_enclosed :
    (∃ bytes c', ElementValue.layout.write (enclosed 255) = .ok bytes ∧
      ElementValue.read { rest := bytes } = .ok (enclosed 255) c' ∧ c'.rest = []) ∧
    (∃ bytes failure c' flaw, ElementValue.layout.write (enclosed 256) = .ok bytes ∧
      ElementValue.read { rest := bytes } = .error failure c' ∧
      failure.cause = .malformed flaw ∧ flaw.subject = "element value") ∧
    ∃ bytes failure c' flaw,
      Annotation.layout.write ⟨1, [⟨2, enclosed 255⟩, ⟨3, enclosed 256⟩]⟩ = .ok bytes ∧
      Annotation.read { rest := bytes } = .error failure c' ∧
      failure.cause = .malformed flaw ∧ flaw.subject = "element value" := by
  obtain ⟨hbelow, -⟩ := inside_enclosed 255 0
  obtain ⟨habove, found, hmem, hdepth⟩ := inside_enclosed 256 0
  have hvalues : Annotation.values ⟨1, [⟨2, enclosed 255⟩, ⟨3, enclosed 256⟩]⟩ =
      (enclosed 255).inside 0 ++ (enclosed 256).inside 0 := by
    unfold Annotation.values
    rw [insidePairs, insidePairs, insidePairs, List.append_nil]
  have hsizes : ∀ size ∈ Annotation.sizes ⟨1, [⟨2, enclosed 255⟩, ⟨3, enclosed 256⟩]⟩,
      size ≤ 65535 := by
    unfold Annotation.sizes
    rw [hvalues, sizes_append]
    exact List.forall_mem_cons.2 ⟨by simp, List.forall_mem_append.2
      ⟨sizes_enclosed 255, sizes_enclosed 256⟩⟩
  obtain ⟨hvalue, hannotation⟩ := nesting_limit_exact
  obtain ⟨bytes, hwrite, -, hread⟩ := hvalue (enclosed 255) (fun found hmem =>
    (hbelow found hmem).1) (sizes_enclosed 255)
  obtain ⟨c', hok, hrest, -⟩ := (hread { rest := bytes } [] (List.append_nil bytes).symm).1
    fun found hmem => Nat.lt_succ_of_le (hbelow found hmem).2.2
  obtain ⟨bytes₁, hwrite₁, -, hread₁⟩ := hvalue (enclosed 256) (fun found hmem =>
    (habove found hmem).1) (sizes_enclosed 256)
  obtain ⟨failure₁, c₁, flaw₁, hfail₁, hcause₁, hsubject₁, -⟩ :=
    (hread₁ { rest := bytes₁ } [] (List.append_nil bytes₁).symm).2 ⟨found, hmem, by omega⟩
  obtain ⟨bytes₂, hwrite₂, -, hread₂⟩ := hannotation ⟨1, [⟨2, enclosed 255⟩, ⟨3, enclosed 256⟩]⟩
    (by
      rw [hvalues]
      exact List.forall_mem_append.2
        ⟨fun found hmem => (hbelow found hmem).1, fun found hmem => (habove found hmem).1⟩) hsizes
  obtain ⟨failure₂, c₂, flaw₂, hfail₂, hcause₂, hsubject₂, -⟩ :=
    (hread₂ { rest := bytes₂ } [] (List.append_nil bytes₂).symm).2
      ⟨found, hvalues ▸ List.mem_append_right _ hmem, by omega⟩
  exact ⟨⟨bytes, c', hwrite, hok, hrest⟩,
    ⟨bytes₁, failure₁, c₁, flaw₁, hwrite₁, hfail₁, hcause₁, hsubject₁⟩,
    bytes₂, failure₂, c₂, flaw₂, hwrite₂, hfail₂, hcause₂, hsubject₂⟩

end ElementValue

end ClassFormat
