import ClassFormat.Proofs.Text.Utf8
import ClassFormat.Text.Modified
import Mathlib.Data.List.Forall2

namespace ClassFormat

namespace Modified

open Utf8

theorem decode?_single {a : UInt8} (ha : a ≠ 0) (ha' : a < 0x80) (rest : Bytes) :
    decode? (a :: rest) = (decode? rest).map (Char.ofNat a.toNat :: ·) := by
  rw [decode?.eq_def]
  simp [ha, ha']

theorem decode?_zero (rest : Bytes) :
    decode? (0xc0 :: 0x80 :: rest) = (decode? rest).map (Char.ofNat 0 :: ·) := by
  rw [decode?.eq_def]
  simp

theorem decode?_pair {a b : UInt8} (ha : 0xc2 ≤ a ∧ a ≤ 0xdf) (hb : isContinuation b = true)
    (rest : Bytes) :
    decode? (a :: b :: rest) = (decode? rest).map (Char.ofNat (pair a b) :: ·) := by
  have hzero : a ≠ 0 := by grind
  have hsingle : ¬ a < 0x80 := by grind
  have hnul : a ≠ 0xc0 := by grind
  rw [decode?.eq_def]
  simp [hzero, hsingle, hnul, ha, hb]

theorem decode?_triple {a b c : UInt8} (h : SpellUnit a b c)
    (hs : isSurrogate (triple a b c) = false) (rest : Bytes) :
    decode? (a :: b :: c :: rest) = (decode? rest).map (Char.ofNat (triple a b c) :: ·) := by
  obtain ⟨hzero, hsingle, hnul, hpair⟩ := h.not_shorter
  obtain ⟨ha, hb, hlow, hc⟩ := h
  rw [decode?.eq_def]
  simp [hzero, hsingle, hnul, hpair, ha, hb, hlow, hc, hs]

theorem decode?_surrogates {a b c d e f : UInt8} (h : SpellUnit a b c)
    (hhigh : isHighSurrogate (triple a b c) = true) (hd : d = 0xed) (he : 0xb0 ≤ e ∧ e ≤ 0xbf)
    (hf : isContinuation f = true) (rest : Bytes) :
    decode? (a :: b :: c :: d :: e :: f :: rest) =
      (decode? rest).map (joined (triple a b c) (triple d e f) :: ·) := by
  obtain ⟨hzero, hsingle, hnul, hpair⟩ := h.not_shorter
  obtain ⟨ha, hb, hlow, hc⟩ := h
  have hs : isSurrogate (triple a b c) = true := by
    simp only [isHighSurrogate, isSurrogate, Bool.and_eq_true, decide_eq_true_eq] at hhigh ⊢
    omega
  rw [decode?.eq_def]
  simp [hzero, hsingle, hnul, hpair, ha, hb, hlow, hc, hs, hhigh, hd, he, hf]

theorem decode?_encodeUnit {n : Nat} (hzero : n ≠ 0) (h : n < 0x10000) (hs : IsScalar n)
    (rest : Bytes) :
    decode? (encodeUnit n ++ rest) = (decode? rest).map (Char.ofNat n :: ·) := by
  unfold encodeUnit
  by_cases hone : n < 0x80
  · have hne : UInt8.ofNat n ≠ 0 := by
      rw [ne_eq, ← UInt8.toNat_inj, toNat_byte (by omega)]
      exact hzero
    rw [if_pos hone, List.singleton_append, decode?_single hne (single_lt hone),
      toNat_byte (by omega)]
  by_cases htwo : n < 0x800
  · rw [if_neg hone, if_pos htwo, List.cons_append, List.singleton_append,
      decode?_pair (pair_first (by omega) htwo) (isContinuation_byte n), pair_bytes htwo]
  · have hsurrogate : isSurrogate n = false := by
      unfold IsScalar at hs
      simp [isSurrogate]
      omega
    have hspell := spellUnit_bytes (by omega : 0x800 ≤ n) h
    rw [if_neg hone, if_neg htwo, List.cons_append, List.cons_append, List.singleton_append,
      decode?_triple hspell (by rwa [triple_bytes h]), triple_bytes h]

/-- A high surrogate and a low one are the character they are the halves of. -/
theorem decode?_pairOfUnits {high low : Nat} (hhigh : 0xd800 ≤ high ∧ high < 0xdc00)
    (hlow : 0xdc00 ≤ low ∧ low < 0xe000) (rest : Bytes) :
    decode? (encodeUnit high ++ encodeUnit low ++ rest) =
      (decode? rest).map (joined high low :: ·) := by
  have hspell := spellUnit_bytes (by omega : 0x800 ≤ high) (by omega)
  have htriple := triple_bytes (by omega : high < 0x10000)
  have htriple' := triple_bytes (by omega : low < 0x10000)
  have hfirst : UInt8.ofNat (0xe0 + low / 4096) = 0xed := by
    rw [show low / 4096 = 13 by omega]
    rfl
  have hsecond : 0xb0 ≤ UInt8.ofNat (0x80 + low / 64 % 64) ∧
      UInt8.ofNat (0x80 + low / 64 % 64) ≤ 0xbf := by
    rw [UInt8.le_iff_toNat_le, UInt8.le_iff_toNat_le, toNat_byte (by omega)]
    have hlit : UInt8.toNat 0xb0 = 0xb0 := rfl
    have hlit' : UInt8.toNat 0xbf = 0xbf := rfl
    omega
  -- the rest of the pattern is that of two groups of three bytes
  have hisHigh : isHighSurrogate high = true := by simpa [isHighSurrogate] using hhigh
  unfold encodeUnit
  rw [if_neg (by omega), if_neg (by omega), if_neg (by omega), if_neg (by omega)]
  simp only [List.cons_append, List.nil_append]
  rw [decode?_surrogates hspell (by rwa [htriple]) hfirst hsecond (isContinuation_byte low),
    htriple, htriple']

theorem decode?_encodeChar (c : Char) (rest : Bytes) :
    decode? (encodeChar c ++ rest) = (decode? rest).map (c :: ·) := by
  have hlt := toNat_lt c
  unfold encodeChar
  by_cases hzero : c.toNat = 0
  · have hc : Char.ofNat 0 = c := by rw [← hzero, Char.ofNat_toNat]
    simp only [if_pos hzero, List.cons_append, List.nil_append]
    rw [decode?_zero, hc]
  by_cases hunit : c.toNat < 0x10000
  · simp only [if_neg hzero, if_pos hunit]
    rw [decode?_encodeUnit hzero hunit (isScalar_toNat c), Char.ofNat_toNat]
  · have hc : joined (0xd800 + (c.toNat - 0x10000) / 0x400) (0xdc00 + (c.toNat - 0x10000) % 0x400) =
        c := by
      rw [joined, show 0x10000 + (0xd800 + (c.toNat - 0x10000) / 0x400 - 0xd800) * 0x400 +
        (0xdc00 + (c.toNat - 0x10000) % 0x400 - 0xdc00) = c.toNat by omega, Char.ofNat_toNat]
    simp only [if_neg hzero, if_neg hunit]
    rw [decode?_pairOfUnits (by omega) (by omega), hc]

/-- A character is encoded as in standard UTF-8, or in a way that standard UTF-8 refuses. -/
theorem scan_encodeChar (c : Char) (rest : Bytes) :
    scan (encodeChar c ++ rest) = .ok c :: scan rest ∨
      ∃ stretch tail, scan (encodeChar c ++ rest) = .error stretch :: tail := by
  have hlt := toNat_lt c
  unfold encodeChar
  by_cases hzero : c.toNat = 0
  · simp only [if_pos hzero, List.cons_append, List.nil_append]
    exact .inr ⟨_, _, scan_illFormed (.inl rfl) rest⟩
  by_cases hunit : c.toNat < 0x10000
  · simp only [if_neg hzero, if_pos hunit]
    rw [scan_encodeUnit hunit (isScalar_toNat c), Char.ofNat_toNat]
    exact .inl rfl
  · simp only [if_neg hzero, if_neg hunit, List.append_assoc]
    exact .inr (scan_highSurrogate (by omega) (by omega) _)

theorem decode?_flatMap_encodeChar (chars : List Char) :
    decode? (chars.flatMap encodeChar) = some chars := by
  induction chars with
  | nil => rfl
  | cons c chars ih => rw [List.flatMap_cons, decode?_encodeChar, ih, Option.map_some]

theorem encodeUnit_surrogate {b c : UInt8} (hb : 0xa0 ≤ b ∧ b ≤ 0xbf)
    (hc : isContinuation c = true) :
    encodeUnit (triple 0xed b c) = [0xed, b, c] ∧ 0xd800 ≤ triple 0xed b c ∧
      triple 0xed b c < 0xe000 ∧ (triple 0xed b c < 0xdc00 ↔ b ≤ 0xaf) := by
  have hcont := isContinuation_of_mem hb (by decide) (by decide)
  -- 0xed with a second byte from 0xa0 is what standard UTF-8 refuses
  have hspell : SpellUnit 0xed b c := ⟨by decide, hcont, .inl (by decide), hc⟩
  have hunit := triple_eq hspell.first hcont hc
  rw [isContinuation_iff] at hc
  refine ⟨(encodeUnit_triple hspell).2.2, ?_⟩
  simp only [UInt8.le_iff_toNat_le, UInt8.reduceToNat] at hb hunit ⊢
  omega

theorem encodeChar_of_unit {n : Nat} (hzero : n ≠ 0) (h : n < 0x10000) (hs : IsScalar n) :
    encodeChar (Char.ofNat n) = encodeUnit n := by
  simp only [encodeChar, toNat_ofNat_of_isScalar (by omega) hs]
  rw [if_neg hzero, if_pos h]

theorem encodeChar_joined {high low : Nat} (hhigh : 0xd800 ≤ high ∧ high < 0xdc00)
    (hlow : 0xdc00 ≤ low ∧ low < 0xe000) :
    encodeChar (joined high low) = encodeUnit high ++ encodeUnit low := by
  have hn : (joined high low).toNat = 0x10000 + (high - 0xd800) * 0x400 + (low - 0xdc00) :=
    toNat_ofNat_of_isScalar (by omega) (.inr (by omega))
  have hfirst : 0xd800 + ((joined high low).toNat - 0x10000) / 0x400 = high := by omega
  have hsecond : 0xdc00 + ((joined high low).toNat - 0x10000) % 0x400 = low := by omega
  simp only [encodeChar, hfirst, hsecond]
  rw [if_neg (by omega), if_neg (by omega)]

theorem encodeChar_single {a : UInt8} (hzero : a ≠ 0) (ha : a < 0x80) :
    encodeChar (Char.ofNat a.toNat) = [a] := by
  have hne : a.toNat ≠ 0 := fun h => hzero (UInt8.toNat_inj.1 h)
  have hlt : a.toNat < 0x80 := UInt8.lt_iff_toNat_lt.1 ha
  rw [encodeChar_of_unit hne (by omega) (.inl (by omega)), encodeUnit, if_pos hlt,
    UInt8.ofNat_toNat]

theorem encodeChar_pair {a b : UInt8} (ha : 0xc2 ≤ a ∧ a ≤ 0xdf) (hb : isContinuation b = true) :
    encodeChar (Char.ofNat (pair a b)) = [a, b] := by
  obtain ⟨hge, hlt, hunit⟩ := encodeUnit_pair ha hb
  rw [encodeChar_of_unit (by omega) (by omega) (.inl (by omega)), hunit]

theorem encodeChar_triple {a b c : UInt8} (h : SpellUnit a b c) (hs : IsScalar (triple a b c)) :
    encodeChar (Char.ofNat (triple a b c)) = [a, b, c] := by
  obtain ⟨hge, hlt, hunit⟩ := encodeUnit_triple h
  rw [encodeChar_of_unit (by omega) hlt hs, hunit]

theorem encodeChar_surrogates {a b c e f : UInt8} (h : SpellUnit a b c)
    (hhigh : 0xd800 ≤ triple a b c ∧ triple a b c < 0xdc00) (he : 0xb0 ≤ e ∧ e ≤ 0xbf)
    (hf : isContinuation f = true) :
    encodeChar (joined (triple a b c) (triple 0xed e f)) = [a, b, c, 0xed, e, f] := by
  obtain ⟨hlow, -, hlow₁, hlow₂⟩ :=
    encodeUnit_surrogate ⟨UInt8.le_trans (by decide) he.1, he.2⟩ hf
  have hnot : ¬ e ≤ 0xaf := by grind
  rw [encodeChar_joined hhigh ⟨Nat.le_of_not_lt (hnot ∘ hlow₂.1), hlow₁⟩,
    (encodeUnit_triple h).2.2, hlow]
  rfl

theorem spellUnit_of_bytes {a b c : UInt8}
    (h : (0xe0 ≤ a && a ≤ 0xef && (a != 0xe0 || 0xa0 ≤ b) && isContinuation b &&
      isContinuation c) = true) : SpellUnit a b c := by
  simp only [Bool.and_eq_true, Bool.or_eq_true, bne_iff_ne, decide_eq_true_eq] at h
  obtain ⟨⟨⟨ha, hlow⟩, hb⟩, hc⟩ := h
  exact ⟨ha, hb, hlow, hc⟩

theorem eq_of_decode? {bytes : Bytes} {chars : List Char} (h : decode? bytes = some chars) :
    bytes = chars.flatMap encodeChar := by
  fun_induction decode? bytes generalizing chars with
  | case1 =>
    cases h
    rfl
  | case3 a rest hzero ha ih =>
    obtain ⟨chars, hrest, rfl⟩ := Option.map_eq_some_iff.1 h
    rw [List.flatMap_cons, ← ih hrest, encodeChar_single hzero ha]
    rfl
  | case5 a _ _ b rest hbytes ih =>
    obtain ⟨chars, hrest, rfl⟩ := Option.map_eq_some_iff.1 h
    simp only [Bool.and_eq_true, decide_eq_true_eq] at hbytes
    rw [List.flatMap_cons, ← ih hrest, hbytes.1, hbytes.2]
    rfl
  | case6 a _ _ b rest _ hbytes ih =>
    obtain ⟨chars, hrest, rfl⟩ := Option.map_eq_some_iff.1 h
    simp only [Bool.and_eq_true, decide_eq_true_eq] at hbytes
    rw [List.flatMap_cons, ← ih hrest, encodeChar_pair hbytes.1 hbytes.2]
    rfl
  | case8 =>
    rename_i a _ _ b _ _ c rest hbytes unit hunit ih
    obtain ⟨chars, hrest, rfl⟩ := Option.map_eq_some_iff.1 h
    -- the decoder makes a character of a single unit only if it is no surrogate
    have hscalar : IsScalar (triple a b c) := by
      simp only [isSurrogate, Bool.not_eq_true', Bool.and_eq_false_iff, decide_eq_false_iff_not]
        at hunit
      unfold IsScalar
      omega
    rw [List.flatMap_cons, ← ih hrest, encodeChar_triple (spellUnit_of_bytes hbytes) hscalar]
    rfl
  | case9 =>
    rename_i a _ _ b _ _ c hbytes unit hunit d e f rest hlow ih
    obtain ⟨chars, hrest, rfl⟩ := Option.map_eq_some_iff.1 h
    simp only [isHighSurrogate, Bool.and_eq_true, decide_eq_true_eq] at hlow
    -- the low surrogate has to begin with 0xed and a byte from 0xb0 to 0xbf
    obtain ⟨⟨⟨⟨hhigh, rfl⟩, he⟩, he'⟩, hf⟩ := hlow
    rw [List.flatMap_cons, ← ih hrest,
      encodeChar_surrogates (spellUnit_of_bytes hbytes) hhigh ⟨he, he'⟩ hf]
    rfl
  -- everywhere else decoding gives nothing
  | _ => cases h

/-- Bytes are decoded to the characters that they are the encoding of. -/
theorem decode?_eq_some {bytes : Bytes} {chars : List Char} :
    decode? bytes = some chars ↔ bytes = chars.flatMap encodeChar := by
  refine ⟨eq_of_decode?, ?_⟩
  rintro rfl
  exact decode?_flatMap_encodeChar chars

theorem eq_of_scan_flatMap {chars others : List Char}
    (h : scan (chars.flatMap encodeChar) = others.map .ok) : others = chars := by
  induction chars generalizing others with
  | nil => simpa [scan, eq_comm] using h
  | cons c chars ih =>
    rw [List.flatMap_cons] at h
    -- either the first character is the same in both, or the bytes are not standard UTF-8
    rcases scan_encodeChar c (chars.flatMap encodeChar) with hfirst | ⟨stretch, tail, hfirst⟩
    · obtain ⟨other, others, rfl, hother, hrest⟩ := List.map_eq_cons_iff.1 (h.symm.trans hfirst)
      cases hother
      rw [ih hrest.symm]
    · obtain ⟨other, others, rfl, hother, -⟩ := List.map_eq_cons_iff.1 (h.symm.trans hfirst)
      cases hother

/-- Where a text in modified UTF-8 is standard UTF-8 too, it is so of the same text. -/
theorem eq_of_flatMap_eq_encode {chars : List Char} {text : String}
    (h : chars.flatMap encodeChar = Utf8.encode text) : text.toList = chars := by
  apply eq_of_scan_flatMap
  rw [h, ← mapM_toOption_eq_some]
  exact decode?_encode text

/-- The bytes of a character: two for U+0000, those of two surrogates for a supplementary character,
and else those of standard UTF-8. -/
inductive Spelled : Char → Bytes → Prop
  | zero : Spelled '\x00' [0xc0, 0x80]
  | standard {c : Char} (hzero : c ≠ '\x00') (h : c.toNat < 0x10000) :
    Spelled c (String.utf8EncodeChar c)
  | surrogates {c : Char} {high low : Nat} (hhigh : 0xd800 ≤ high ∧ high < 0xdc00)
      (hlow : 0xdc00 ≤ low ∧ low < 0xe000)
      (h : c.toNat = 0x10000 + (high - 0xd800) * 0x400 + (low - 0xdc00)) :
    Spelled c ([0xed, UInt8.ofNat (0x80 + high / 64 % 64), UInt8.ofNat (0x80 + high % 64)] ++
      [0xed, UInt8.ofNat (0x80 + low / 64 % 64), UInt8.ofNat (0x80 + low % 64)])

theorem spelled_iff {c : Char} {bytes : Bytes} : Spelled c bytes ↔ bytes = encodeChar c := by
  -- any surrogate begins with 0xed
  have hbytes {n : Nat} (h : 0xd800 ≤ n) (h' : n < 0xe000) : encodeUnit n =
      [0xed, UInt8.ofNat (0x80 + n / 64 % 64), UInt8.ofNat (0x80 + n % 64)] := by
    have hfirst : n / 4096 = 13 := by omega
    rw [encodeUnit, if_neg (by omega), if_neg (by omega), hfirst]
    rfl
  constructor
  · intro h
    cases h with
    | zero => rfl
    | standard hzero h =>
      have hne : c.toNat ≠ 0 := fun h => hzero (by rw [← Char.ofNat_toNat c, h])
      simp only [encodeChar, if_neg hne, if_pos h, utf8EncodeChar_lt h]
    | @surrogates _ high low hhigh hlow h =>
      have hc : joined high low = c := by rw [joined, ← h, Char.ofNat_toNat]
      rw [← hbytes hhigh.1 (by omega), ← hbytes (by omega) hlow.2, ← hc,
        encodeChar_joined hhigh hlow]
  · rintro rfl
    have hlt := toNat_lt c
    unfold encodeChar
    by_cases hzero : c.toNat = 0
    · have hc : c = '\x00' := by rw [← Char.ofNat_toNat c, hzero]
      rw [hc]
      exact .zero
    by_cases hunit : c.toNat < 0x10000
    · have hne : c ≠ '\x00' := by
        rintro rfl
        exact hzero rfl
      simp only [if_neg hzero, if_pos hunit, ← utf8EncodeChar_lt hunit]
      exact .standard hne hunit
    · simp only [if_neg hzero, if_neg hunit]
      rw [hbytes (by omega) (by omega), hbytes (by omega) (by omega)]
      exact .surrogates (by omega) (by omega) (by omega)

theorem forall₂_spelled_iff {chars : List Char} {pieces : List Bytes} :
    List.Forall₂ Spelled chars pieces ↔ pieces = chars.map encodeChar := by
  induction chars generalizing pieces with
  | nil => simp
  | cons c chars ih => cases pieces <;> simp [spelled_iff, ih]

end Modified

namespace TextCodec

open Modified (Spelled encodeChar)

/-- What is relied on of reading and writing texts. Standard UTF-8 is read as it is, else modified
UTF-8 is, else nothing; modified UTF-8 is written. -/
structure Lawful (codec : TextCodec) : Prop where
  standard : ∀ text, codec.strict? (Utf8.encode text) = some text
  modified : ∀ {chars pieces}, List.Forall₂ Spelled chars pieces →
    (∀ text, Utf8.encode text ≠ pieces.flatten) →
    codec.strict? pieces.flatten = some (String.ofList chars)
  refused : ∀ {bytes}, (∀ text, Utf8.encode text ≠ bytes) →
    (∀ {chars pieces}, List.Forall₂ Spelled chars pieces → pieces.flatten ≠ bytes) →
    codec.strict? bytes = none
  written : ∀ text, ∃ pieces, List.Forall₂ Spelled text.toList pieces ∧
    codec.encode text = pieces.flatten

variable {codec : TextCodec}

theorem Lawful.encode_eq (h : codec.Lawful) (text : String) :
    codec.encode text = text.toList.flatMap encodeChar := by
  obtain ⟨pieces, hpieces, heq⟩ := h.written text
  rw [heq, Modified.forall₂_spelled_iff.1 hpieces, List.flatMap_def]

theorem Lawful.decode_encode (h : codec.Lawful) (text : String) :
    codec.decode (codec.encode text) = text := by
  have hpieces := Modified.forall₂_spelled_iff.2 (rfl : text.toList.map encodeChar = _)
  rw [h.encode_eq, List.flatMap_def, decode]
  -- bytes that are standard UTF-8 by chance are standard UTF-8 of the same text
  by_cases hstandard : ∃ other, Utf8.encode other = (text.toList.map encodeChar).flatten
  · obtain ⟨other, hother⟩ := hstandard
    have hsame : other.toList = text.toList := by
      apply Modified.eq_of_flatMap_eq_encode
      rw [List.flatMap_def, hother]
    rw [← hother, h.standard, String.toList_inj.1 hsame]
    rfl
  · rw [h.modified hpieces (not_exists.1 hstandard), String.ofList_toList]
    rfl

end TextCodec

namespace Modified

theorem decode?_eq_none {bytes : Bytes} (h : ∀ text, Utf8.encode text ≠ bytes) :
    Utf8.decode? bytes = none := by
  rw [Option.eq_none_iff_forall_ne_some]
  intro chars hchars
  apply h (String.ofList chars)
  rw [Utf8.encode, String.toList_ofList, ← Utf8.decode?_eq_some.1 hchars]

theorem codec_lawful : codec.Lawful where
  standard text := by
    change strict? _ = _
    rw [strict?, Utf8.decode?_encode]
    exact congrArg some String.ofList_toList
  modified {chars pieces} h hother := by
    change strict? _ = _
    rw [strict?, decode?_eq_none hother, forall₂_spelled_iff.1 h, ← List.flatMap_def,
      decode?_flatMap_encodeChar]
    rfl
  refused {bytes} hother hnone := by
    change strict? _ = _
    rw [strict?, decode?_eq_none hother, Option.map_eq_none_iff, Option.eq_none_iff_forall_ne_some]
    intro chars hchars
    apply hnone (forall₂_spelled_iff.2 rfl)
    rw [decode?_eq_some.1 hchars, List.flatMap_def]
  written text := ⟨_, forall₂_spelled_iff.2 rfl, List.flatMap_def⟩

/-- Every text is the one that its bytes have. -/
theorem decode_encode (text : String) : decode (encode text) = text :=
  codec_lawful.decode_encode text

end Modified

end ClassFormat
