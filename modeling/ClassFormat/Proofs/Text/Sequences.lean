import ClassFormat.Proofs.Text.Modified
import Mathlib.Data.Set.List

namespace ClassFormat

namespace Modified

open Utf8

/-- The bytes of one character. -/
inductive Sequence : Bytes → Prop
  | single {a : UInt8} (ha : 0x01 ≤ a ∧ a ≤ 0x7f) : Sequence [a]
  | zero : Sequence [0xc0, 0x80]
  | pair {a b : UInt8} (ha : 0xc2 ≤ a ∧ a ≤ 0xdf) (hb : isContinuation b) : Sequence [a, b]
  | tripleLow {b c : UInt8} (hb : 0xa0 ≤ b ∧ b ≤ 0xbf) (hc : isContinuation c) :
    Sequence [0xe0, b, c]
  | triple {a b c : UInt8} (ha : 0xe1 ≤ a ∧ a ≤ 0xec ∨ a = 0xee ∨ a = 0xef)
    (hb : isContinuation b) (hc : isContinuation c) : Sequence [a, b, c]
  /-- The last units before the surrogates. -/
  | tripleHigh {b c : UInt8} (hb : 0x80 ≤ b ∧ b ≤ 0x9f) (hc : isContinuation c) :
    Sequence [0xed, b, c]
  | surrogates {b c e f : UInt8} (hb : 0xa0 ≤ b ∧ b ≤ 0xaf) (hc : isContinuation c)
    (he : 0xb0 ≤ e ∧ e ≤ 0xbf) (hf : isContinuation f) : Sequence [0xed, b, c, 0xed, e, f]

/-- Bytes put together from those of single characters. -/
def Canonical (bytes : Bytes) : Prop :=
  ∃ sequences : List Bytes, bytes = sequences.flatten ∧ ∀ sequence ∈ sequences, Sequence sequence

theorem exists_char_of_triple {a b c : UInt8} (h : SpellUnit a b c) (hs : a ≠ 0xed ∨ b ≤ 0x9f) :
    ∃ char, encodeChar char = [a, b, c] :=
  ⟨_, encodeChar_triple h ((isScalar_triple_iff h).2 hs)⟩

theorem Sequence.exists_char {bytes : Bytes} (h : Sequence bytes) :
    ∃ char, encodeChar char = bytes := by
  cases h with
  | single ha => exact ⟨_, encodeChar_single (by grind) (by grind)⟩
  | zero => exact ⟨Char.ofNat 0, rfl⟩
  | pair ha hb => exact ⟨_, encodeChar_pair ha hb⟩
  | tripleLow hb hc =>
    have hcont := isContinuation_of_mem hb (by decide) (by decide)
    exact exists_char_of_triple ⟨by decide, hcont, .inr hb.1, hc⟩ (.inl (by decide))
  | triple ha hb hc =>
    exact exists_char_of_triple ⟨by grind, hb, .inl (by grind), hc⟩ (.inl (by grind))
  | tripleHigh hb hc =>
    have hcont := isContinuation_of_mem hb (by decide) (by decide)
    exact exists_char_of_triple ⟨by decide, hcont, .inl (by decide), hc⟩ (.inr hb.2)
  | @surrogates b c e f hb hc he hf =>
    have hhalf : 0xa0 ≤ b ∧ b ≤ 0xbf := ⟨hb.1, UInt8.le_trans hb.2 (by decide)⟩
    obtain ⟨-, hhigh, -, hhigh'⟩ := encodeUnit_surrogate hhalf hc
    have hcont := isContinuation_of_mem hhalf (by decide) (by decide)
    exact ⟨_, encodeChar_surrogates ⟨by decide, hcont, .inl (by decide), hc⟩
      ⟨hhigh, hhigh'.2 hb.2⟩ he hf⟩

theorem sequence_of_spellUnit {a b c : UInt8} (h : SpellUnit a b c)
    (hs : IsScalar (triple a b c)) : Sequence [a, b, c] := by
  rw [isScalar_triple_iff h] at hs
  obtain ⟨ha, hb, hlow, hc⟩ := h
  have hmem : 0x80 ≤ b ∧ b ≤ 0xbf := by simpa [isContinuation] using hb
  by_cases hfirst : a = 0xe0
  · subst hfirst
    exact .tripleLow ⟨hlow.resolve_left (by decide), hmem.2⟩ hc
  by_cases hlast : a = 0xed
  · subst hlast
    exact .tripleHigh ⟨hmem.1, hs.resolve_left (by decide)⟩ hc
  · exact .triple (by grind) hb hc

theorem sequence_encodeUnit {n : Nat} (hzero : n ≠ 0) (h : n < 0x10000) (hs : IsScalar n) :
    Sequence (encodeUnit n) := by
  unfold encodeUnit
  by_cases hone : n < 0x80
  · rw [if_pos hone]
    apply Sequence.single
    simp only [UInt8.le_iff_toNat_le, UInt8.reduceToNat, toNat_byte (by omega : n < 256)]
    omega
  by_cases htwo : n < 0x800
  · rw [if_neg hone, if_pos htwo]
    exact .pair (pair_first (by omega) htwo) (isContinuation_byte n)
  · rw [if_neg hone, if_neg htwo]
    exact sequence_of_spellUnit (spellUnit_bytes (by omega) h) (by rwa [triple_bytes h])

theorem exists_surrogate_bytes {n : Nat} (h : 0xd800 ≤ n) (h' : n < 0xe000) :
    ∃ b c : UInt8, encodeUnit n = [0xed, b, c] ∧ (0xa0 ≤ b ∧ b ≤ 0xbf) ∧ isContinuation c = true ∧
      (n < 0xdc00 ↔ b ≤ 0xaf) := by
  have hspell := spellUnit_bytes (by omega : 0x800 ≤ n) (by omega)
  have htriple := triple_bytes (by omega : n < 0x10000)
  have hnot := mt (isScalar_triple_iff hspell).2 (by rw [htriple]; unfold IsScalar; omega)
  generalize UInt8.ofNat (0xe0 + n / 4096) = a, UInt8.ofNat (0x80 + n / 64 % 64) = b,
    UInt8.ofNat (0x80 + n % 64) = c at hspell htriple hnot
  have hb : 0x80 ≤ b ∧ b ≤ 0xbf := by simpa [isContinuation] using hspell.second
  obtain ⟨rfl, hhigh⟩ : a = 0xed ∧ ¬ b ≤ 0x9f := by simpa using hnot
  obtain ⟨hunit, -, -, hhalf⟩ := encodeUnit_surrogate ⟨by grind, hb.2⟩ hspell.third
  rw [htriple] at hunit hhalf
  exact ⟨b, c, hunit, ⟨by grind, hb.2⟩, hspell.third, hhalf⟩

theorem sequence_encodeChar (char : Char) : Sequence (encodeChar char) := by
  have hlt := toNat_lt char
  unfold encodeChar
  by_cases hzero : char.toNat = 0
  · simp only [if_pos hzero]
    exact .zero
  by_cases hunit : char.toNat < 0x10000
  · simp only [if_neg hzero, if_pos hunit]
    exact sequence_encodeUnit hzero hunit (isScalar_toNat char)
  · simp only [if_neg hzero, if_neg hunit]
    obtain ⟨b, c, hhigh, hb, hc, hhalf⟩ :=
      exists_surrogate_bytes (n := 0xd800 + (char.toNat - 0x10000) / 0x400) (by omega) (by omega)
    obtain ⟨e, f, hlow, he, hf, hhalf'⟩ :=
      exists_surrogate_bytes (n := 0xdc00 + (char.toNat - 0x10000) % 0x400) (by omega) (by omega)
    have hnot : ¬ e ≤ 0xaf := mt hhalf'.2 (by omega)
    rw [hhigh, hlow]
    exact .surrogates ⟨hb.1, hhalf.1 (by omega)⟩ hc ⟨by grind, he.2⟩ hf

theorem sequence_iff {bytes : Bytes} : Sequence bytes ↔ bytes ∈ Set.range encodeChar := by
  constructor
  · exact Sequence.exists_char
  · rintro ⟨char, rfl⟩
    exact sequence_encodeChar char

theorem canonical_iff {bytes : Bytes} : Canonical bytes ↔ ∃ text, encode text = bytes := by
  constructor
  · rintro ⟨sequences, rfl, hall⟩
    obtain ⟨chars, rfl⟩ : sequences ∈ Set.range (List.map encodeChar) := by
      rw [Set.range_list_map]
      exact fun sequence hmem => sequence_iff.1 (hall sequence hmem)
    refine ⟨String.ofList chars, ?_⟩
    rw [encode, String.toList_ofList, List.flatMap_def]
  · rintro ⟨text, rfl⟩
    refine ⟨text.toList.map encodeChar, List.flatMap_def, ?_⟩
    intro sequence hmem
    obtain ⟨char, -, rfl⟩ := List.mem_map.1 hmem
    exact sequence_encodeChar char

end Modified

/-- Bytes are those of their own text just if they are put together from the sequences of
characters. -/
theorem TextCodec.Lawful.encode_decode_iff {codec : TextCodec} (h : codec.Lawful) (bytes : Bytes) :
    codec.encode (codec.decode bytes) = bytes ↔ Modified.Canonical bytes := by
  have hencode (text : String) : codec.encode text = Modified.encode text := h.encode_eq text
  rw [Modified.canonical_iff]
  constructor
  · intro hsame
    exact ⟨codec.decode bytes, by rw [← hencode, hsame]⟩
  · rintro ⟨text, rfl⟩
    rw [← hencode, h.decode_encode]

namespace Modified

theorem encode_decode_iff_canonical (bytes : Bytes) :
    encode (decode bytes) = bytes ↔ Canonical bytes :=
  codec_lawful.encode_decode_iff bytes

example : encode (decode [0x00, 0xf0, 0x9f, 0x98, 0x80]) =
    [0xc0, 0x80, 0xed, 0xa0, 0xbd, 0xed, 0xb8, 0x80] := by decide +kernel

end Modified

end ClassFormat
