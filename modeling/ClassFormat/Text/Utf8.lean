import ClassFormat.Bytes

namespace ClassFormat.Utf8

def isContinuation (b : UInt8) : Bool := 0x80 ≤ b && b ≤ 0xbf

/-- The bits a continuation byte adds to a code point. -/
def payload (b : UInt8) : Nat := b.toNat % 64

def pair (a b : UInt8) : Nat := a.toNat % 32 * 64 + payload b

def triple (a b c : UInt8) : Nat := (a.toNat % 16 * 64 + payload b) * 64 + payload c

def quadruple (a b c d : UInt8) : Nat :=
  ((a.toNat % 8 * 64 + payload b) * 64 + payload c) * 64 + payload d

/-- Second bytes of three: neither an overlong form nor a surrogate. -/
def startsTriple (a b : UInt8) : Bool :=
  isContinuation b && (a != 0xe0 || 0xa0 ≤ b) && (a != 0xed || b ≤ 0x9f)

/-- Second bytes of four: neither an overlong form nor beyond U+10FFFF. -/
def startsQuadruple (a b : UInt8) : Bool :=
  isContinuation b && (a != 0xf0 || 0x90 ≤ b) && (a != 0xf4 || b ≤ 0x8f)

/-- Valid sequences as their characters, ill-formed stretches as they are, each as long as a valid
sequence could still have started with it. -/
def scan : Bytes → List (Except Bytes Char)
  | [] => []
  | [a] => if a < 0x80 then [.ok (Char.ofNat a.toNat)] else [.error [a]]
  | a :: b :: rest =>
    if a < 0x80 then .ok (Char.ofNat a.toNat) :: scan (b :: rest)
    else if 0xc2 ≤ a && a ≤ 0xdf && isContinuation b then
      .ok (Char.ofNat (pair a b)) :: scan rest
    else if 0xe0 ≤ a && a ≤ 0xef && startsTriple a b then
      match rest with
      | [] => [.error [a, b]]
      | c :: rest =>
        if isContinuation c then .ok (Char.ofNat (triple a b c)) :: scan rest
        else .error [a, b] :: scan (c :: rest)
    else if 0xf0 ≤ a && a ≤ 0xf4 && startsQuadruple a b then
      match rest with
      | [] => [.error [a, b]]
      | [c] => if isContinuation c then [.error [a, b, c]] else .error [a, b] :: scan [c]
      | c :: d :: rest =>
        if isContinuation c then
          if isContinuation d then .ok (Char.ofNat (quadruple a b c d)) :: scan rest
          else .error [a, b, c] :: scan (d :: rest)
        else .error [a, b] :: scan (c :: d :: rest)
    else .error [a] :: scan (b :: rest)

def decode? (bytes : Bytes) : Option (List Char) := (scan bytes).mapM Except.toOption

def replacement : Char := Char.ofNat 0xfffd

def decodeLossy (bytes : Bytes) : List Char :=
  (scan bytes).map fun piece => piece.toOption.getD replacement

def encode (text : String) : Bytes := text.toList.flatMap String.utf8EncodeChar

/-- Sequences of one to three bytes; the last also for surrogates. -/
def encodeUnit (n : Nat) : Bytes :=
  if n < 0x80 then [UInt8.ofNat n]
  else if n < 0x800 then [UInt8.ofNat (0xc0 + n / 64), UInt8.ofNat (0x80 + n % 64)]
  else
    [UInt8.ofNat (0xe0 + n / 4096), UInt8.ofNat (0x80 + n / 64 % 64), UInt8.ofNat (0x80 + n % 64)]

end ClassFormat.Utf8
