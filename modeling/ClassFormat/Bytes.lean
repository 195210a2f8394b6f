namespace ClassFormat

abbrev Bytes := List UInt8

def ofBigEndian (bytes : Bytes) : Nat :=
  bytes.foldl (fun n b => n * 256 + b.toNat) 0

/-- The last `width` bytes of a number. -/
def bigEndian : Nat → Nat → Bytes
  | 0, _ => []
  | width + 1, n => bigEndian width (n / 256) ++ [UInt8.ofNat n]

def word8 (n : UInt8) : Bytes := bigEndian 1 n.toNat
def word16 (n : UInt16) : Bytes := bigEndian 2 n.toNat
def word32 (n : UInt32) : Bytes := bigEndian 4 n.toNat
def word64 (n : UInt64) : Bytes := bigEndian 8 n.toNat

@[simp] theorem length_bigEndian (width n : Nat) : (bigEndian width n).length = width := by
  induction width generalizing n with
  | zero => rfl
  | succ width ih => simp [bigEndian, ih]

theorem ofBigEndian_append_singleton (bytes : Bytes) (b : UInt8) :
    ofBigEndian (bytes ++ [b]) = ofBigEndian bytes * 256 + b.toNat := by
  simp [ofBigEndian]

end ClassFormat
