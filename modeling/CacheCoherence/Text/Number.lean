namespace CacheCoherence.Text

def digits (base width n : Nat) : String :=
  let figures := Nat.toDigits base n
  String.ofList (List.replicate (width - figures.length) '0' ++ figures)

def hex (n : Nat) : String := "0x" ++ digits 16 1 n

def hexByte (n : Nat) : String := "0x" ++ digits 16 2 n

def binary (n : Nat) : String := "0b" ++ digits 2 1 n

/-- Left-aligned in a column of `width` characters; longer text is kept whole. -/
def column (width : Nat) (text : String) : String :=
  text ++ String.ofList (List.replicate (width - text.length) ' ')

/-- The nearest integer to `num / den`; a tie goes to the even neighbour. -/
def roundQuotient (num den : Nat) : Nat :=
  let floor := num / den
  let twice := 2 * (num % den)
  if den < twice || (den == twice && floor % 2 == 1) then floor + 1 else floor

/-- A non-negative finite number as the fraction that its bits stand for. -/
def fractionOf (x : Float) : Nat × Nat :=
  let bits := x.toBits.toNat
  let exponent := bits >>> 52 % 0x800
  let fraction := bits % 1 <<< 52
  let significand := if exponent == 0 then fraction else fraction + 1 <<< 52
  let scale := max exponent 1
  if 1075 ≤ scale then (significand <<< (scale - 1075), 1)
  else (significand, 1 <<< (1075 - scale))

/-- Non-negative `x` with `places` digits after the point, rounded from its exact value. -/
def fixed (places : Nat) (x : Float) : String :=
  let (num, den) := fractionOf x
  let one := Nat.pow 10 places
  let units := roundQuotient (num * one) den
  toString (units / one) ++ "." ++ digits 10 places (units % one)

end CacheCoherence.Text
