import ResilientCalls.Decimal.Shortest

/-!
# How floats are written

Two styles share the shortest digits: `plain` never uses an exponent and drops an empty fraction,
`exact` always shows that the number is a float.
-/

namespace ResilientCalls.Decimal

/-- The choices a style makes. -/
structure Style where
  /-- Least number of digits after the point. -/
  places : Nat
  /-- Whether very large and very small numbers get an exponent. -/
  exponents : Bool

/-- Never an exponent, and no point in a whole number. -/
def plain : Style := ⟨0, false⟩

/-- At least one digit after the point, and an exponent from `10 ^ 16` on and below `10 ^ -4`. -/
def exact : Style := ⟨1, true⟩

/-- Digits with a point after the first `point` of them, filled up with zeros on either side. -/
def positional (places : Nat) (digits : List Char) (point : Int) : String :=
  let zeros (n : Nat) : List Char := List.replicate n '0'
  let whole := if point ≤ 0 then ['0']
    else digits.take point.toNat ++ zeros (point.toNat - digits.length)
  let fraction := zeros (-point).toNat ++ digits.drop point.toNat
  let padded := fraction ++ zeros (places - fraction.length)
  String.ofList whole ++ if padded.isEmpty then "" else "." ++ String.ofList padded

/-- One digit, a point if there are more, and the power of ten. -/
def scientific (digits : List Char) (point : Int) : String :=
  let rest := digits.drop 1
  String.ofList (digits.take 1) ++ (if rest.isEmpty then "" else "." ++ String.ofList rest)
    ++ "e" ++ toString (point - 1)

/-- A positive number in a style. -/
def Style.writePositive (style : Style) (d : Decimal) : String :=
  let digits := Nat.toDigits 10 d.digits
  let point := digits.length + d.exponent
  if style.exponents && (point ≥ 17 || point ≤ -4) then scientific digits point
  else positional style.places digits point

/-- A float in a style. -/
def Style.write (style : Style) (x : Float) : String :=
  match Binary64.ofFloat x with
  | .nan => "NaN"
  | .infinite negative => if negative then "-inf" else "inf"
  | .finite negative m e =>
      (if negative then "-" else "")
        ++ if m = 0 then positional style.places ['0'] 1 else style.writePositive (shortest m e)

end ResilientCalls.Decimal
