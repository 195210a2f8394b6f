import ClassFormat.Text.Utf8

namespace ClassFormat.Utf8

theorem toNat_byte {n : Nat} (h : n < 256) : (UInt8.ofNat n).toNat = n :=
  UInt8.toNat_ofNat_of_lt' h

theorem isContinuation_iff (b : UInt8) :
    isContinuation b = true ↔ 0x80 ≤ b.toNat ∧ b.toNat ≤ 0xbf := by
  simp [isContinuation, UInt8.le_iff_toNat_le]

theorem isContinuation_byte (n : Nat) : isContinuation (UInt8.ofNat (0x80 + n % 64)) = true := by
  rw [isContinuation_iff, toNat_byte (by omega)]
  omega

theorem payload_byte (n : Nat) : payload (UInt8.ofNat (0x80 + n % 64)) = n % 64 := by
  rw [payload, toNat_byte (by omega)]
  omega

theorem pair_bytes {n : Nat} (h : n < 0x800) :
    pair (UInt8.ofNat (0xc0 + n / 64)) (UInt8.ofNat (0x80 + n % 64)) = n := by
  rw [pair, payload_byte, toNat_byte (by omega)]
  omega

theorem triple_bytes {n : Nat} (h : n < 0x10000) :
    triple (UInt8.ofNat (0xe0 + n / 4096)) (UInt8.ofNat (0x80 + n / 64 % 64))
      (UInt8.ofNat (0x80 + n % 64)) = n := by
  rw [triple, payload_byte, payload_byte, toNat_byte (by omega)]
  omega

theorem single_lt {n : Nat} (h : n < 0x80) : UInt8.ofNat n < 0x80 := by
  rw [UInt8.lt_iff_toNat_lt, toNat_byte (by omega)]
  exact h

theorem pair_first {n : Nat} (h : 0x80 ≤ n) (h' : n < 0x800) :
    0xc2 ≤ UInt8.ofNat (0xc0 + n / 64) ∧ UInt8.ofNat (0xc0 + n / 64) ≤ 0xdf := by
  rw [UInt8.le_iff_toNat_le, UInt8.le_iff_toNat_le, toNat_byte (by omega)]
  have hlit : UInt8.toNat 0xc2 = 0xc2 := rfl
  have hlit' : UInt8.toNat 0xdf = 0xdf := rfl
  omega

theorem triple_first {n : Nat} (h : n < 0x10000) :
    0xe0 ≤ UInt8.ofNat (0xe0 + n / 4096) ∧ UInt8.ofNat (0xe0 + n / 4096) ≤ 0xef := by
  rw [UInt8.le_iff_toNat_le, UInt8.le_iff_toNat_le, toNat_byte (by omega)]
  have hlit : UInt8.toNat 0xe0 = 0xe0 := rfl
  have hlit' : UInt8.toNat 0xef = 0xef := rfl
  omega

/-- The second of three bytes is in the ranges that rule out overlong forms and surrogates. -/
theorem triple_second {n : Nat} (h : 0x800 ≤ n) (h' : n < 0x10000) :
    (UInt8.ofNat (0xe0 + n / 4096) = 0xe0 → 0xa0 ≤ UInt8.ofNat (0x80 + n / 64 % 64)) ∧
    (UInt8.ofNat (0xe0 + n / 4096) = 0xed →
      (UInt8.ofNat (0x80 + n / 64 % 64) ≤ 0x9f ↔ n < 0xd800)) := by
  have hlit : UInt8.toNat 0xe0 = 0xe0 := rfl
  have hlit' : UInt8.toNat 0xed = 0xed := rfl
  have hlit'' : UInt8.toNat 0xa0 = 0xa0 := rfl
  have hlit''' : UInt8.toNat 0x9f = 0x9f := rfl
  rw [← UInt8.toNat_inj, ← UInt8.toNat_inj, UInt8.le_iff_toNat_le, UInt8.le_iff_toNat_le,
    toNat_byte (by omega), toNat_byte (by omega)]
  omega

theorem scan_single {a : UInt8} (ha : a < 0x80) (rest : Bytes) :
    scan (a :: rest) = .ok (Char.ofNat a.toNat) :: scan rest := by
  cases rest with
  | nil => simp [scan, ha]
  | cons b rest =>
    rw [scan.eq_def]
    simp [ha]

theorem scan_pair {a b : UInt8} (ha : 0xc2 ≤ a ∧ a ≤ 0xdf) (hb : isContinuation b = true)
    (rest : Bytes) : scan (a :: b :: rest) = .ok (Char.ofNat (pair a b)) :: scan rest := by
  have hsingle : ¬ a < 0x80 := by grind
  rw [scan.eq_def]
  simp [hsingle, ha, hb]

theorem scan_triple {a b c : UInt8} (ha : 0xe0 ≤ a ∧ a ≤ 0xef) (hb : startsTriple a b = true)
    (hc : isContinuation c = true) (rest : Bytes) :
    scan (a :: b :: c :: rest) = .ok (Char.ofNat (triple a b c)) :: scan rest := by
  have hsingle : ¬ a < 0x80 := by grind
  have hpair : ¬ (0xc2 ≤ a ∧ a ≤ 0xdf) := by grind
  rw [scan.eq_def]
  simp [hsingle, hpair, ha, hb, hc]

/-- A first byte of an overlong form, and one of three that would be a surrogate. -/
theorem scan_illFormed {a b : UInt8} (h : a = 0xc0 ∨ a = 0xed ∧ startsTriple a b = false)
    (rest : Bytes) : scan (a :: b :: rest) = .error [a] :: scan (b :: rest) := by
  rw [scan.eq_def]
  rcases h with rfl | ⟨rfl, hb⟩
  · simp
  · simp [hb]

/-- A unit that is a character of its own, neither half of a pair. -/
def IsScalar (n : Nat) : Prop := n < 0xd800 ∨ 0xdfff < n

theorem scan_encodeUnit {n : Nat} (h : n < 0x10000) (hs : IsScalar n) (rest : Bytes) :
    scan (encodeUnit n ++ rest) = .ok (Char.ofNat n) :: scan rest := by
  unfold encodeUnit
  by_cases hone : n < 0x80
  · rw [if_pos hone, List.singleton_append, scan_single (single_lt hone), toNat_byte (by omega)]
  by_cases htwo : n < 0x800
  · rw [if_neg hone, if_pos htwo, List.cons_append, List.singleton_append,
      scan_pair (pair_first (by omega) htwo) (isContinuation_byte n), pair_bytes htwo]
  · obtain ⟨hlow, hhigh⟩ := triple_second (by omega : 0x800 ≤ n) h
    have hstarts : startsTriple (UInt8.ofNat (0xe0 + n / 4096))
        (UInt8.ofNat (0x80 + n / 64 % 64)) = true := by
      have hcont := isContinuation_byte (n / 64)
      have hscalar : UInt8.ofNat (0xe0 + n / 4096) = 0xed → n < 0xd800 := by
        intro hed
        rw [← UInt8.toNat_inj, toNat_byte (by omega)] at hed
        have hlit : UInt8.toNat 0xed = 0xed := rfl
        unfold IsScalar at hs
        omega
      simp only [startsTriple, hcont]
      grind
    rw [if_neg hone, if_neg htwo, List.cons_append, List.cons_append, List.singleton_append,
      scan_triple (triple_first h) hstarts (isContinuation_byte n), triple_bytes h]

theorem scan_highSurrogate {n : Nat} (h : 0xd800 ≤ n) (h' : n < 0xdc00) (rest : Bytes) :
    ∃ stretch tail, scan (encodeUnit n ++ rest) = .error stretch :: tail := by
  have hfirst : UInt8.ofNat (0xe0 + n / 4096) = 0xed := by
    -- 0xd is the upper digit of every surrogate
    rw [show n / 4096 = 13 by omega]
    rfl
  have hstarts : startsTriple 0xed (UInt8.ofNat (0x80 + n / 64 % 64)) = false := by
    have hhigh := (triple_second (by omega : 0x800 ≤ n) (by omega)).2 hfirst
    simp only [startsTriple]
    grind
  unfold encodeUnit
  rw [if_neg (by omega), if_neg (by omega), hfirst, List.cons_append, List.cons_append]
  exact ⟨_, _, scan_illFormed (.inr ⟨rfl, hstarts⟩) _⟩

theorem isScalar_toNat (c : Char) : IsScalar c.toNat := by
  have hvalid := c.valid
  simp only [UInt32.isValidChar, Nat.isValidChar] at hvalid
  unfold IsScalar Char.toNat
  omega

theorem toNat_lt (c : Char) : c.toNat < 0x110000 := by
  have hvalid := c.valid
  simp only [UInt32.isValidChar, Nat.isValidChar] at hvalid
  unfold Char.toNat
  omega

/-- Bytes that spell a unit of their own by three, also half of a pair. -/
structure SpellUnit (a b c : UInt8) : Prop where
  first : 0xe0 ≤ a ∧ a ≤ 0xef
  second : isContinuation b = true
  notOverlong : a ≠ 0xe0 ∨ 0xa0 ≤ b
  third : isContinuation c = true

theorem SpellUnit.not_shorter {a b c : UInt8} (h : SpellUnit a b c) :
    a ≠ 0 ∧ ¬ a < 0x80 ∧ a ≠ 0xc0 ∧ ¬ (0xc2 ≤ a ∧ a ≤ 0xdf) := by
  obtain ⟨hge, hle⟩ := h.first
  -- all of it follows from the first byte being at least 0xe0
  refine ⟨?_, ?_, ?_, ?_⟩ <;> grind

theorem spellUnit_bytes {n : Nat} (h : 0x800 ≤ n) (h' : n < 0x10000) :
    SpellUnit (UInt8.ofNat (0xe0 + n / 4096)) (UInt8.ofNat (0x80 + n / 64 % 64))
      (UInt8.ofNat (0x80 + n % 64)) := by
  have hlow := (triple_second h h').1
  exact ⟨triple_first h', isContinuation_byte (n / 64), by grind, isContinuation_byte n⟩

theorem isContinuation_of_mem {b low high : UInt8} (h : low ≤ b ∧ b ≤ high) (hlow : 0x80 ≤ low)
    (hhigh : high ≤ 0xbf) : isContinuation b = true := by
  have hb : 0x80 ≤ b ∧ b ≤ 0xbf := ⟨UInt8.le_trans hlow h.1, UInt8.le_trans h.2 hhigh⟩
  simp [isContinuation, hb]

theorem pair_eq {a b : UInt8} (ha : 0xc2 ≤ a ∧ a ≤ 0xdf) (hb : isContinuation b = true) :
    pair a b = (a.toNat - 0xc0) * 64 + (b.toNat - 0x80) := by
  rw [isContinuation_iff] at hb
  simp only [UInt8.le_iff_toNat_le, UInt8.reduceToNat] at ha
  unfold pair payload
  omega

theorem triple_eq {a b c : UInt8} (ha : 0xe0 ≤ a ∧ a ≤ 0xef) (hb : isContinuation b = true)
    (hc : isContinuation c = true) :
    triple a b c = (a.toNat - 0xe0) * 4096 + (b.toNat - 0x80) * 64 + (c.toNat - 0x80) := by
  rw [isContinuation_iff] at hb hc
  simp only [UInt8.le_iff_toNat_le, UInt8.reduceToNat] at ha
  unfold triple payload
  omega

theorem encodeUnit_pair {a b : UInt8} (ha : 0xc2 ≤ a ∧ a ≤ 0xdf) (hb : isContinuation b = true) :
    0x80 ≤ pair a b ∧ pair a b < 0x800 ∧ encodeUnit (pair a b) = [a, b] := by
  have hunit := pair_eq ha hb
  rw [isContinuation_iff] at hb
  simp only [UInt8.le_iff_toNat_le, UInt8.reduceToNat] at ha
  have hfirst : 0xc0 + pair a b / 64 = a.toNat := by omega
  have hsecond : 0x80 + pair a b % 64 = b.toNat := by omega
  refine ⟨by omega, by omega, ?_⟩
  rw [encodeUnit, if_neg (by omega), if_pos (by omega), hfirst, hsecond, UInt8.ofNat_toNat,
    UInt8.ofNat_toNat]

theorem encodeUnit_triple {a b c : UInt8} (h : SpellUnit a b c) :
    0x800 ≤ triple a b c ∧ triple a b c < 0x10000 ∧ encodeUnit (triple a b c) = [a, b, c] := by
  obtain ⟨ha, hb, hlow, hc⟩ := h
  have hunit := triple_eq ha hb hc
  rw [isContinuation_iff] at hb hc
  simp only [UInt8.le_iff_toNat_le, ne_eq, ← UInt8.toNat_inj, UInt8.reduceToNat] at ha hlow
  have hfirst : 0xe0 + triple a b c / 4096 = a.toNat := by omega
  have hsecond : 0x80 + triple a b c / 64 % 64 = b.toNat := by omega
  have hthird : 0x80 + triple a b c % 64 = c.toNat := by omega
  refine ⟨by omega, by omega, ?_⟩
  rw [encodeUnit, if_neg (by omega), if_neg (by omega), hfirst, hsecond, hthird, UInt8.ofNat_toNat,
    UInt8.ofNat_toNat, UInt8.ofNat_toNat]

/-- Three bytes are a surrogate just if they start as no character does. -/
theorem isScalar_triple_iff {a b c : UInt8} (h : SpellUnit a b c) :
    IsScalar (triple a b c) ↔ a ≠ 0xed ∨ b ≤ 0x9f := by
  obtain ⟨ha, hb, -, hc⟩ := h
  have hunit := triple_eq ha hb hc
  rw [isContinuation_iff] at hb hc
  simp only [UInt8.le_iff_toNat_le, ne_eq, ← UInt8.toNat_inj, UInt8.reduceToNat] at ha ⊢
  unfold IsScalar
  omega

theorem toNat_ofNat_of_isScalar {n : Nat} (h : n < 0x110000) (hs : IsScalar n) :
    (Char.ofNat n).toNat = n := by
  have hvalid : n.isValidChar := by
    unfold IsScalar at hs
    unfold Nat.isValidChar
    omega
  rw [Char.ofNat, dif_pos hvalid]
  rfl

theorem utf8EncodeChar_of_unit {n : Nat} (h : n < 0x10000) (hs : IsScalar n) :
    String.utf8EncodeChar (Char.ofNat n) = encodeUnit n := by
  have hn : (Char.ofNat n).val.toNat = n := toNat_ofNat_of_isScalar (by omega) hs
  -- the library cuts the head byte to its bits, which changes nothing for units of this size
  have hhead : n / 64 % 32 + 192 = 0xc0 + n / 64 ∨ 0x800 ≤ n := by omega
  have hhead' : n / 4096 % 16 + 224 = 0xe0 + n / 4096 := by omega
  unfold String.utf8EncodeChar encodeUnit
  simp only [hn, hhead', Nat.add_comm (_ % 64) 128]
  grind

theorem quadruple_eq {a b c d : UInt8} (ha : 0xf0 ≤ a ∧ a ≤ 0xf4) (hb : isContinuation b = true)
    (hc : isContinuation c = true) (hd : isContinuation d = true) :
    quadruple a b c d = (a.toNat - 0xf0) * 262144 + (b.toNat - 0x80) * 4096 +
      (c.toNat - 0x80) * 64 + (d.toNat - 0x80) := by
  rw [isContinuation_iff] at hb hc hd
  simp only [UInt8.le_iff_toNat_le, UInt8.reduceToNat] at ha
  unfold quadruple payload
  omega

theorem scan_quadruple {a b c d : UInt8} (ha : 0xf0 ≤ a ∧ a ≤ 0xf4)
    (hb : startsQuadruple a b = true) (hc : isContinuation c = true)
    (hd : isContinuation d = true) (rest : Bytes) :
    scan (a :: b :: c :: d :: rest) = .ok (Char.ofNat (quadruple a b c d)) :: scan rest := by
  have hsingle : ¬ a < 0x80 := by grind
  have hpair : ¬ (0xc2 ≤ a ∧ a ≤ 0xdf) := by grind
  have htriple : ¬ (0xe0 ≤ a ∧ a ≤ 0xef) := by grind
  rw [scan.eq_def]
  simp [hsingle, hpair, htriple, ha, hb, hc, hd]

theorem utf8EncodeChar_single {a : UInt8} (ha : a < 0x80) :
    String.utf8EncodeChar (Char.ofNat a.toNat) = [a] := by
  rw [UInt8.lt_iff_toNat_lt] at ha
  have hlt : a.toNat < 0x80 := ha
  rw [utf8EncodeChar_of_unit (by omega) (.inl (by omega)), encodeUnit, if_pos hlt,
    UInt8.ofNat_toNat]

theorem utf8EncodeChar_pair {a b : UInt8} (ha : 0xc2 ≤ a ∧ a ≤ 0xdf)
    (hb : isContinuation b = true) : String.utf8EncodeChar (Char.ofNat (pair a b)) = [a, b] := by
  obtain ⟨hge, hlt, hunit⟩ := encodeUnit_pair ha hb
  rw [utf8EncodeChar_of_unit (by omega) (.inl (by omega)), hunit]

theorem utf8EncodeChar_triple {a b c : UInt8} (ha : 0xe0 ≤ a ∧ a ≤ 0xef)
    (hb : startsTriple a b = true) (hc : isContinuation c = true) :
    String.utf8EncodeChar (Char.ofNat (triple a b c)) = [a, b, c] := by
  simp only [startsTriple, Bool.and_eq_true, Bool.or_eq_true, bne_iff_ne,
    decide_eq_true_eq] at hb
  obtain ⟨⟨hcont, hlow⟩, hhigh⟩ := hb
  have hspell : SpellUnit a b c := ⟨ha, hcont, hlow, hc⟩
  obtain ⟨-, hlt, hunit⟩ := encodeUnit_triple hspell
  rw [utf8EncodeChar_of_unit hlt ((isScalar_triple_iff hspell).2 hhigh), hunit]

theorem quadruple_bounds {a b c d : UInt8} (ha : 0xf0 ≤ a ∧ a ≤ 0xf4)
    (hb : startsQuadruple a b = true) (hc : isContinuation c = true)
    (hd : isContinuation d = true) :
    0x10000 ≤ quadruple a b c d ∧ quadruple a b c d < 0x110000 := by
  simp only [startsQuadruple, Bool.and_eq_true, Bool.or_eq_true, bne_iff_ne, ne_eq,
    decide_eq_true_eq] at hb
  obtain ⟨⟨hcont, hlow⟩, hhigh⟩ := hb
  rw [quadruple_eq ha hcont hc hd]
  rw [isContinuation_iff] at hcont hc hd
  simp only [UInt8.le_iff_toNat_le, ← UInt8.toNat_inj, UInt8.reduceToNat] at ha hlow hhigh
  omega

theorem utf8EncodeChar_quadruple {a b c d : UInt8} (ha : 0xf0 ≤ a ∧ a ≤ 0xf4)
    (hb : startsQuadruple a b = true) (hc : isContinuation c = true)
    (hd : isContinuation d = true) :
    String.utf8EncodeChar (Char.ofNat (quadruple a b c d)) = [a, b, c, d] := by
  obtain ⟨hge, hlt⟩ := quadruple_bounds ha hb hc hd
  have hcont : isContinuation b = true := by
    simp only [startsQuadruple, Bool.and_eq_true] at hb
    exact hb.1.1
  have hn : (Char.ofNat (quadruple a b c d)).val.toNat = quadruple a b c d :=
    toNat_ofNat_of_isScalar hlt (.inr (by omega))
  have heq := quadruple_eq ha hcont hc hd
  rw [isContinuation_iff] at hcont hc hd
  simp only [UInt8.le_iff_toNat_le, UInt8.reduceToNat] at ha
  -- only the bounds and the sum of the payloads are needed from here on
  generalize quadruple a b c d = n at hge hlt hn heq
  have hfirst : n / 262144 % 8 + 240 = a.toNat := by omega
  have hsecond : n / 4096 % 64 + 128 = b.toNat := by omega
  have hthird : n / 64 % 64 + 128 = c.toNat := by omega
  have hfourth : n % 64 + 128 = d.toNat := by omega
  unfold String.utf8EncodeChar
  simp only [hn]
  rw [if_neg (by omega), if_neg (by omega), if_neg (by omega), hfirst, hsecond, hthird, hfourth,
    UInt8.ofNat_toNat, UInt8.ofNat_toNat, UInt8.ofNat_toNat, UInt8.ofNat_toNat]

def pieceBytes : Except Bytes Char → Bytes
  | .ok c => String.utf8EncodeChar c
  | .error stretch => stretch

/-- Nothing is lost. -/
theorem flatMap_scan (bytes : Bytes) : (scan bytes).flatMap pieceBytes = bytes := by
  fun_induction scan bytes with
  | case1 => rfl
  | case2 a ha => simp [pieceBytes, utf8EncodeChar_single ha]
  | case3 a ha => rfl
  | case4 a b rest ha ih => simp [pieceBytes, utf8EncodeChar_single ha, ih]
  | case5 a b rest _ hpair ih =>
    simp only [Bool.and_eq_true, decide_eq_true_eq] at hpair
    simp [pieceBytes, utf8EncodeChar_pair hpair.1 hpair.2, ih]
  | case7 a b _ _ htriple c rest hc ih =>
    simp only [Bool.and_eq_true, decide_eq_true_eq] at htriple
    simp [pieceBytes, utf8EncodeChar_triple htriple.1 htriple.2 hc, ih]
  | case12 a b _ _ _ hquadruple c d rest hc hd ih =>
    simp only [Bool.and_eq_true, decide_eq_true_eq] at hquadruple
    simp [pieceBytes, utf8EncodeChar_quadruple hquadruple.1 hquadruple.2 hc hd, ih]
  | _ => simp [pieceBytes, *] -- an ill-formed stretch

theorem utf8EncodeChar_lt {c : Char} (h : c.toNat < 0x10000) :
    String.utf8EncodeChar c = encodeUnit c.toNat := by
  rw [← utf8EncodeChar_of_unit h (isScalar_toNat c), Char.ofNat_toNat]

theorem quadruple_first {n : Nat} (h : n < 0x110000) :
    0xf0 ≤ UInt8.ofNat (0xf0 + n / 262144) ∧ UInt8.ofNat (0xf0 + n / 262144) ≤ 0xf4 := by
  simp only [UInt8.le_iff_toNat_le, UInt8.reduceToNat,
    toNat_byte (by omega : 0xf0 + n / 262144 < 256)]
  omega

theorem quadruple_second {n : Nat} (h : 0x10000 ≤ n) (h' : n < 0x110000) :
    startsQuadruple (UInt8.ofNat (0xf0 + n / 262144)) (UInt8.ofNat (0x80 + n / 4096 % 64)) =
      true := by
  simp only [startsQuadruple, isContinuation_byte, Bool.true_and, Bool.and_eq_true,
    Bool.or_eq_true, bne_iff_ne, ne_eq, decide_eq_true_eq, ← UInt8.toNat_inj,
    UInt8.le_iff_toNat_le, UInt8.reduceToNat, toNat_byte (by omega : 0xf0 + n / 262144 < 256),
    toNat_byte (by omega : 0x80 + n / 4096 % 64 < 256)]
  omega

theorem quadruple_bytes {n : Nat} (h : n < 0x110000) :
    quadruple (UInt8.ofNat (0xf0 + n / 262144)) (UInt8.ofNat (0x80 + n / 4096 % 64))
      (UInt8.ofNat (0x80 + n / 64 % 64)) (UInt8.ofNat (0x80 + n % 64)) = n := by
  rw [quadruple, payload_byte, payload_byte, payload_byte, toNat_byte (by omega)]
  omega

theorem utf8EncodeChar_ge {c : Char} (h : 0x10000 ≤ c.toNat) :
    String.utf8EncodeChar c = [UInt8.ofNat (0xf0 + c.toNat / 262144),
      UInt8.ofNat (0x80 + c.toNat / 4096 % 64), UInt8.ofNat (0x80 + c.toNat / 64 % 64),
      UInt8.ofNat (0x80 + c.toNat % 64)] := by
  have hlt := toNat_lt c
  change 0x10000 ≤ c.val.toNat at h
  change c.val.toNat < 0x110000 at hlt
  have hfirst : c.val.toNat / 262144 % 8 + 240 = 0xf0 + c.val.toNat / 262144 := by omega
  unfold String.utf8EncodeChar Char.toNat
  simp only [hfirst, Nat.add_comm (_ % 64) 128]
  rw [if_neg (by omega), if_neg (by omega), if_neg (by omega)]

theorem scan_utf8EncodeChar (c : Char) (rest : Bytes) :
    scan (String.utf8EncodeChar c ++ rest) = .ok c :: scan rest := by
  by_cases h : c.toNat < 0x10000
  · rw [utf8EncodeChar_lt h, scan_encodeUnit h (isScalar_toNat c), Char.ofNat_toNat]
  · have hge : 0x10000 ≤ c.toNat := by omega
    have hlt := toNat_lt c
    rw [utf8EncodeChar_ge hge]
    simp only [List.cons_append, List.nil_append]
    rw [scan_quadruple (quadruple_first hlt) (quadruple_second hge hlt) (isContinuation_byte _)
      (isContinuation_byte _), quadruple_bytes hlt, Char.ofNat_toNat]

theorem mapM_toOption_eq_some {pieces : List (Except Bytes Char)} {chars : List Char} :
    pieces.mapM Except.toOption = some chars ↔ pieces = chars.map .ok := by
  induction pieces generalizing chars with
  | nil => cases chars <;> simp
  | cons piece pieces ih =>
    cases piece with
    | error stretch => cases chars <;> simp [Except.toOption]
    | ok c =>
      simp only [List.mapM_cons, Except.toOption, Option.bind_eq_bind, Option.bind_some,
        Option.bind_eq_some_iff, ih]
      constructor
      · rintro ⟨rest, rfl, hrest⟩
        cases hrest
        rfl
      · intro h
        obtain ⟨first, rest, rfl, hfirst, hrest⟩ := List.map_eq_cons_iff.1 h.symm
        cases hfirst
        exact ⟨rest, hrest.symm, rfl⟩

/-- Bytes are decoded to the characters that they are the standard encoding of. -/
theorem decode?_eq_some {bytes : Bytes} {chars : List Char} :
    decode? bytes = some chars ↔ bytes = chars.flatMap String.utf8EncodeChar := by
  rw [decode?, mapM_toOption_eq_some]
  constructor
  · intro h
    have hbytes := flatMap_scan bytes
    rw [h, List.flatMap_map] at hbytes
    exact hbytes.symm
  · rintro rfl
    induction chars with
    | nil => rfl
    | cons c chars ih => rw [List.flatMap_cons, scan_utf8EncodeChar, ih, List.map_cons]

theorem decode?_encode (text : String) : decode? (encode text) = some text.toList :=
  decode?_eq_some.2 rfl

end ClassFormat.Utf8
