namespace LuaGlue.Decimal

def twoTo (n : Nat) : Nat :=
  Nat.pow 2 n

def tenTo (n : Nat) : Nat :=
  Nat.pow 10 n

/-- The magnitude `mantissa * 2 ^ exponent` in the binary format with 53 significant bits, in exact
arithmetic on natural numbers. -/
structure Binary64 where
  mantissa : Nat
  exponent : Int
  deriving DecidableEq

namespace Binary64

/-- The exponent of the smallest magnitude. -/
def minExponent : Int := -1074

/-- The largest exponent of a magnitude with all 53 bits. -/
def maxExponent : Int := 971

def zero : Binary64 := ⟨0, minExponent⟩

/-- The quotient of two numbers rounded to the nearest integer, a half to the even one. -/
def roundDiv (num den : Nat) : Nat :=
  let quotient := num / den
  let twice := 2 * (num % den)
  if twice < den then quotient
  else if den < twice then quotient + 1
  else quotient + quotient % 2

/-- The quotient `num / den` divided by `2 ^ shift`, as a quotient of natural numbers again. -/
def scale (num den : Nat) (shift : Int) : Nat × Nat :=
  if shift < 0 then (num * twoTo (-shift).toNat, den) else (num, den * twoTo shift.toNat)

/-- The exponent at which `num / den` has 53 bits, or the smallest one if it is tiny. -/
def exponentOf (num den : Nat) : Int :=
  let low : Int := (Nat.log2 num : Int) - Nat.log2 den - 53
  let (n, d) := scale num den low
  max minExponent (if n / d < twoTo 53 then low else low + 1)

/-- The magnitude nearest to `num / den`, of two the even one; nothing if it is too large for the
format. -/
def ofRatio? (num den : Nat) : Option Binary64 :=
  if num = 0 then some zero
  else
    let exponent := exponentOf num den
    let (n, d) := scale num den exponent
    let mantissa := roundDiv n d
    let result : Binary64 :=
      if mantissa = twoTo 53 then ⟨twoTo 52, exponent + 1⟩ else ⟨mantissa, exponent⟩
    if result.exponent ≤ maxExponent then some result else none

def ratio (x : Binary64) : Nat × Nat :=
  scale x.mantissa 1 (-x.exponent)

def mul? (x y : Binary64) : Option Binary64 :=
  ofRatio? (x.ratio.1 * y.ratio.1) (x.ratio.2 * y.ratio.2)

def div? (x y : Binary64) : Option Binary64 :=
  ofRatio? (x.ratio.1 * y.ratio.2) (x.ratio.2 * y.ratio.1)

def ten? (n : Nat) : Option Binary64 :=
  ofRatio? (tenTo n) 1

/-- The largest power of ten of the format is `10 ^ 308`. -/
def largestTen : Nat := 308

/-- Divides `n` times by the largest power of ten; zero stays zero. -/
def divLargest? : Nat → Binary64 → Option Binary64
  | 0, x => some x
  | n + 1, x =>
    if x.mantissa = 0 then some x
    else ((ten? largestTen).bind x.div?).bind (divLargest? n)

/-- The significand times a power of ten. Both are rounded first, and then their product or
quotient is, so the result can differ from the nearest magnitude in its last bits. A power below
the format is divided off in several steps. Nothing is left of a result that is too large. -/
def scaleTen? (x : Binary64) (exponent : Int) : Option Binary64 :=
  if x.mantissa = 0 then some x
  else if 0 ≤ exponent then
    if exponent ≤ largestTen then (ten? exponent.toNat).bind x.mul? else none
  else
    let down := (-exponent).toNat
    let steps := (down - 1) / largestTen
    (divLargest? steps x).bind fun x =>
      if x.mantissa = 0 then some x else (ten? (down - largestTen * steps)).bind x.div?

end Binary64

end LuaGlue.Decimal
