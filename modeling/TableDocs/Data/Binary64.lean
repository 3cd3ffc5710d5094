/-!
# TableDocs — numbers with a fraction

Numbers with a fraction or an exponent are held as the double-precision number nearest to what is
written, ties to the even significand. Rounding works on exact natural numbers.
-/

namespace TableDocs.Data

/-- A double-precision number. -/
inductive Binary64
  /-- The number `significand * 2 ^ exponent`, or its opposite. -/
  | finite (negative : Bool) (significand : Nat) (exponent : Int)
  | infinite (negative : Bool)
  | nan
  deriving DecidableEq, Repr, Inhabited

namespace Binary64

/-- `base ^ n`, and one where the exponent is negative. -/
def powerUp (base : Nat) (n : Int) : Nat :=
  Nat.pow base n.toNat

/-- The quotient rounded to the nearest natural number, a half to the even one. -/
def roundDiv (num den : Nat) : Nat :=
  let q := num / den
  let r := num % den
  if 2 * r > den || (2 * r == den && q % 2 == 1) then q + 1 else q

/-- The double nearest to the positive fraction `num / den`. The exponent makes the significand fill
53 bits, but is never below the one of the smallest number. -/
def ofFraction (negative : Bool) (num den : Nat) : Binary64 :=
  let guess : Int := (Nat.log2 num : Int) - Nat.log2 den - 52
  let fills (e : Int) : Bool :=
    den * powerUp 2 e * powerUp 2 52 ≤ num * powerUp 2 (-e)
  let exponent := max (if fills guess then guess else guess - 1) (-1074)
  let significand := roundDiv (num * powerUp 2 (-exponent)) (den * powerUp 2 exponent)
  if significand * powerUp 2 exponent ≥ powerUp 2 1024 then .infinite negative
  else .finite negative significand exponent

/-- The double nearest to `mantissa * 10 ^ exponent`. Numbers far outside the range are not worked
out: with more than 310 digits before the point they are infinite, and with more than 330 zeros
behind it they are zero. -/
def ofDecimal (negative : Bool) (mantissa : Nat) (exponent : Int) : Binary64 :=
  let size : Int := (Nat.toDigits 10 mantissa).length + exponent
  if mantissa == 0 || size < -330 then .finite negative 0 0
  else if size > 310 then .infinite negative
  else ofFraction negative (mantissa * powerUp 10 exponent) (powerUp 10 (-exponent))

/-- The value of a finite number without a fraction. -/
def integer? : Binary64 → Option Int
  | finite negative significand exponent =>
    let magnitude? : Option Nat :=
      if exponent ≥ 0 then some (significand * powerUp 2 exponent)
      else if significand % powerUp 2 (-exponent) == 0 then
        some (significand / powerUp 2 (-exponent))
      else none
    magnitude?.map fun n => if negative then -(n : Int) else n
  | _ => none

def isFinite : Binary64 → Bool
  | finite .. => true
  | _ => false

end Binary64

end TableDocs.Data
