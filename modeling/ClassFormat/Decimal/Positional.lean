import ClassFormat.Decimal.Shortest

namespace ClassFormat.Decimal

def zeros (n : Nat) : String := String.ofList (List.replicate n '0')

/-- All digits of a decimal, with a point only if there are digits behind it. -/
def positional (d : Decimal) : String :=
  let digits := toString d.digits
  let places := (-d.exponent).toNat
  if places = 0 then digits ++ zeros d.exponent.toNat
  else
    let digits := zeros (places + 1 - digits.length) ++ digits
    let whole := digits.length - places
    String.ofList (digits.toList.take whole) ++ "." ++ String.ofList (digits.toList.drop whole)

def FloatValue.text : FloatValue → String
  | .nan => "NaN"
  | .infinite negative => if negative then "-inf" else "inf"
  | .finite negative mantissa exponent atBoundary =>
    (if negative then "-" else "") ++
      if mantissa = 0 then "0" else (shortest mantissa exponent atBoundary).positional

def float32Text (bits : UInt32) : String := (binary32.value bits.toNat).text
def float64Text (bits : UInt64) : String := (binary64.value bits.toNat).text

end ClassFormat.Decimal
