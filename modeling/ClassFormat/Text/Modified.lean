import ClassFormat.Text.Utf8

namespace ClassFormat

/-- How texts are read and written. What is not read strictly is read lossily. -/
structure TextCodec where
  strict? : Bytes → Option String
  lossy : Bytes → String
  encode : String → Bytes

def TextCodec.decode (codec : TextCodec) (bytes : Bytes) : String :=
  (codec.strict? bytes).getD (codec.lossy bytes)

namespace Modified

def encodeChar (c : Char) : Bytes :=
  let n := c.toNat
  if n = 0 then [0xc0, 0x80]
  else if n < 0x10000 then Utf8.encodeUnit n
  else Utf8.encodeUnit (0xd800 + (n - 0x10000) / 0x400) ++
    Utf8.encodeUnit (0xdc00 + (n - 0x10000) % 0x400)

def encode (text : String) : Bytes := text.toList.flatMap encodeChar

def isHighSurrogate (unit : Nat) : Bool := 0xd800 ≤ unit && unit < 0xdc00

def isSurrogate (unit : Nat) : Bool := 0xd800 ≤ unit && unit < 0xe000

/-- The character of a high and a low surrogate. -/
def joined (high low : Nat) : Char :=
  Char.ofNat (0x10000 + (high - 0xd800) * 0x400 + (low - 0xdc00))

/-- The characters, if the bytes are modified UTF-8 and every surrogate is one of a pair. -/
def decode? : Bytes → Option (List Char)
  | [] => some []
  | a :: rest =>
    if a = 0 then none
    else if a < 0x80 then (decode? rest).map (Char.ofNat a.toNat :: ·)
    else match rest with
      | [] => none
      | b :: rest =>
        if a = 0xc0 && b = 0x80 then (decode? rest).map (Char.ofNat 0 :: ·)
        else if 0xc2 ≤ a && a ≤ 0xdf && Utf8.isContinuation b then
          (decode? rest).map (Char.ofNat (Utf8.pair a b) :: ·)
        else match rest with
          | [] => none
          | c :: rest =>
            if 0xe0 ≤ a && a ≤ 0xef && (a != 0xe0 || 0xa0 ≤ b) && Utf8.isContinuation b &&
                Utf8.isContinuation c then
              let unit := Utf8.triple a b c
              if !isSurrogate unit then (decode? rest).map (Char.ofNat unit :: ·)
              else match rest with
                | d :: e :: f :: rest =>
                  if isHighSurrogate unit && d = 0xed && 0xb0 ≤ e && e ≤ 0xbf &&
                      Utf8.isContinuation f then
                    (decode? rest).map (joined unit (Utf8.triple d e f) :: ·)
                  else none
                | _ => none
            else none

/-- The text of bytes in standard UTF-8, or else in modified UTF-8. -/
def strict? (bytes : Bytes) : Option String :=
  match Utf8.decode? bytes with
  | some chars => some (String.ofList chars)
  | none => (decode? bytes).map String.ofList

def codec : TextCodec where
  strict? := strict?
  lossy bytes := String.ofList (Utf8.decodeLossy bytes)
  encode := encode

def decode (bytes : Bytes) : String := codec.decode bytes

end Modified

end ClassFormat
