import ClassFormat.Proofs.Pool.Interning

namespace ClassFormat

namespace Entry

theorem ofText_eq_ofBytes (text : String) : ofText text = ofBytes (Modified.encode text) := by
  rw [ofText, ofBytes, Modified.decode_encode]

end Entry

namespace Pool

theorem hasOwnText_of_get {pool : Pool} (h : pool.HasOwnTexts) {index : UInt16} {entry : Entry}
    (hget : pool.get index = .ok entry) : entry.HasOwnText :=
  h _ (Array.mem_of_getElem? (get_eq_ok.1 hget)) entry rfl

/-- Where the text of every entry is that of its bytes, an entry is known by its bytes. -/
theorem get_eq_ofText_iff {pool : Pool} (h : pool.HasOwnTexts) {index : UInt16} {text : String} :
    pool.get index = .ok (.ofText text) ↔
      ∃ view, pool.get index = .ok (.utf8 (Modified.encode text) view) := by
  constructor
  · intro hget
    exact ⟨text, hget⟩
  · rintro ⟨view, hget⟩
    have hview : view = Modified.decode (Modified.encode text) := hasOwnText_of_get h hget
    rw [hget, hview, Entry.ofText_eq_ofBytes]
    rfl

/-- Interning gives the index of an entry that was there just if it found the same entry. -/
theorem intern_existing_iff {pool : Pool} (h : pool.slots.size ≤ maxSlots) {entry : Entry} :
    (∃ index later old, intern entry pool = .ok index later ∧ pool.get index = .ok old) ↔
      ∃ index, pool.get index = .ok entry := by
  constructor
  · rintro ⟨index, later, old, hintern, hold⟩
    rcases found_or_added hintern with ⟨hfound, -⟩ | ⟨-, hindex, -⟩
    · exact ⟨index, ((indexOf?_eq_some h).1 hfound).1⟩
    · have hlt := toNat_lt_size hold
      rw [hindex, toNat_count h] at hlt
      omega
  · rintro ⟨index, hget⟩
    cases hfound : pool.indexOf? entry with
    | none => exact absurd hget ((indexOf?_eq_none h).1 hfound index)
    | some first =>
      exact ⟨first, pool, entry, intern_of_some hfound, ((indexOf?_eq_some h).1 hfound).1⟩

/-- Texts survive their encoding, so a text makes the entry that is read from its bytes. Adding it
to a pool that was read gives an index of that pool just if an entry has exactly these bytes. -/
theorem addUtf8_existing_iff (text : String) :
    Modified.decode (Modified.encode text) = text ∧
    Entry.ofText text = Entry.ofBytes (Modified.encode text) ∧
    ∀ (c c' : Cursor) (pool : Pool), Pool.read c = .ok pool c' →
      ((∃ index later old, addUtf8 text pool = .ok index later ∧ pool.get index = .ok old) ↔
        ∃ index view, pool.get index = .ok (.utf8 (Modified.encode text) view)) := by
  refine ⟨Modified.decode_encode text, Entry.ofText_eq_ofBytes text, ?_⟩
  intro c c' pool hread
  have hsize : pool.slots.size ≤ maxSlots := Reachable.size_le (.read hread)
  obtain ⟨_, ⟨-, -, -, htexts⟩, -⟩ := read_exact.sound hread
  simp only [addUtf8, intern_existing_iff hsize, get_eq_ofText_iff htexts]

/-- A pool that has one character in two forms, and a zero byte. -/
def twoForms : Pool :=
  ⟨#[none, some (.utf8 [0xf0, 0x9f, 0x98, 0x80] "😀"),
    some (.utf8 [0xed, 0xa0, 0xbd, 0xed, 0xb8, 0x80] "😀"), some (.utf8 [0x00] "\x00")]⟩

theorem read_twoForms : ∃ c', Pool.read { rest := twoForms.encode } = .ok twoForms c' := by
  have hwell : twoForms.WellFormed :=
    ⟨[.utf8 [0xf0, 0x9f, 0x98, 0x80] "😀", .utf8 [0xed, 0xa0, 0xbd, 0xed, 0xb8, 0x80] "😀",
      .utf8 [0x00] "\x00"], rfl⟩
  have hcheck : twoForms.check = .ok () := rfl
  have htexts : twoForms.HasOwnTexts := by decide +kernel
  obtain ⟨c', hread, -⟩ := read_exact.complete (c := { rest := twoForms.encode })
    ⟨rfl, hcheck, hwell, htexts⟩ (List.append_nil _).symm
  exact ⟨c', hread⟩

/-- The character is found by its bytes, in the second of its forms; the zero is not found, for its
text would be written in two bytes. -/
theorem addUtf8_existing_iff_twoForms :
    (∃ c', Pool.read { rest := twoForms.encode } = .ok twoForms c') ∧
    (∃ index later old, addUtf8 "😀" twoForms = .ok index later ∧ twoForms.get index = .ok old) ∧
    twoForms.utf8 3 = .ok "\x00" ∧
    ¬ ∃ index later old, addUtf8 "\x00" twoForms = .ok index later ∧
      twoForms.get index = .ok old := by
  obtain ⟨c', hread⟩ := read_twoForms
  have hface : twoForms.get 2 = .ok (.utf8 (Modified.encode "😀") "😀") := by
    rw [show Modified.encode "😀" = [0xed, 0xa0, 0xbd, 0xed, 0xb8, 0x80] by decide +kernel]
    rfl
  have hzero (index : UInt16) (view : String) :
      twoForms.get index ≠ .ok (.utf8 (Modified.encode "\x00") view) := by
    intro hget
    rw [show Modified.encode "\x00" = [0xc0, 0x80] by decide +kernel] at hget
    have hmem := Array.mem_of_getElem? (get_eq_ok.1 hget)
    simp [twoForms] at hmem
  refine ⟨⟨c', hread⟩, ?_, rfl, ?_⟩
  · exact ((addUtf8_existing_iff "😀").2.2 _ c' twoForms hread).2 ⟨2, "😀", hface⟩
  · rw [(addUtf8_existing_iff "\x00").2.2 _ c' twoForms hread]
    rintro ⟨index, view, hget⟩
    exact hzero index view hget

end Pool

end ClassFormat
