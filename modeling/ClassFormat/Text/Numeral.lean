namespace ClassFormat.Text

/-- Fills `text` up from the left to at least `width` characters. -/
def padLeft (fill : Char) (width : Nat) (text : String) : String :=
  String.ofList (List.replicate (width - text.length) fill) ++ text

def hexDigits (n : Nat) : String := String.ofList (Nat.toDigits 16 n)

/-- Lower case hexadecimal after `0x`, with at least `digits` digits. -/
def hex (digits n : Nat) : String := "0x" ++ padLeft '0' digits (hexDigits n)

def flushRight (width n : Nat) : String := padLeft ' ' width (toString n)

end ClassFormat.Text
