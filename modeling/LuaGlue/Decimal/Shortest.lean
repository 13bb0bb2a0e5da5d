import LuaGlue.Decimal.Binary64

namespace LuaGlue.Decimal

/-- The decimal number `digits * 10 ^ exponent`. -/
structure Short where
  digits : Nat
  exponent : Int
  deriving DecidableEq

namespace Short

def atLeast (s : Short) (num den : Nat) : Bool :=
  num * tenTo (-s.exponent).toNat ≤ s.digits * den * tenTo s.exponent.toNat

def atMost (s : Short) (num den : Nat) : Bool :=
  s.digits * den * tenTo s.exponent.toNat ≤ num * tenTo (-s.exponent).toNat

/-- The decimals that are rounded to `x`: its neighbours are half a step away, below a power of
two a quarter, and the ends belong to it if its mantissa is even. -/
def readsBack (x : Binary64) (s : Short) : Bool :=
  let down := if x.mantissa = twoTo 52 ∧ Binary64.minExponent < x.exponent then 1 else 2
  let low := (Binary64.mk (4 * x.mantissa - down) (x.exponent - 2)).ratio
  let high := (Binary64.mk (4 * x.mantissa + 2) (x.exponent - 2)).ratio
  if x.mantissa % 2 = 0 then s.atLeast low.1 low.2 && s.atMost high.1 high.2
  else !s.atMost low.1 low.2 && !s.atLeast high.1 high.2

/-- The power of ten of the first digit of `num / den`. -/
def leadExponent (num den : Nat) : Int :=
  if den ≤ num then (Nat.toDigits 10 (num / den)).length - 1
  else -(((List.range 400).find? fun j => den ≤ num * tenTo j).getD 0 : Nat)

/-- The two neighbours of `num / den` among the multiples of `10 ^ exponent`, the nearer one
first; of two equally near ones the even one. -/
def neighbours (num den : Nat) (exponent : Int) : List Short :=
  let n := num * tenTo (-exponent).toNat
  let d := den * tenTo exponent.toNat
  let below : Short := ⟨n / d, exponent⟩
  let above : Short := ⟨n / d + 1, exponent⟩
  if Binary64.roundDiv n d = n / d then [below, above] else [above, below]

/-- The same number without up to `fuel` zeros at the end of its digits. -/
def trim (fuel : Nat) (s : Short) : Short :=
  match fuel with
  | 0 => s
  | fuel + 1 =>
    if s.digits ≠ 0 ∧ s.digits % 10 = 0 then trim fuel ⟨s.digits / 10, s.exponent + 1⟩ else s

/-- The shortest decimal that reads back as `x`, of several the nearest one. For each number of
digits only the two neighbours of `x` are tried: if a decimal of this many digits reads back, so
does one of them. Seventeen digits are always enough. -/
def ofBinary (x : Binary64) : Short :=
  if x.mantissa = 0 then ⟨0, 0⟩
  else
    let (num, den) := x.ratio
    let lead := leadExponent num den
    let candidates := (List.range 17).flatMap fun (n : Nat) =>
      (neighbours num den (lead - n)).filter (readsBack x)
    ((candidates.head?).getD ⟨0, 0⟩).trim 20

/-- The layout: all digits around a point where the first digit counts from `10 ^ -5` to
`10 ^ 15`, and with an exponent elsewhere, which always has its sign. There is always a digit
behind a point. -/
def text (s : Short) : String :=
  let digits := Nat.toDigits 10 s.digits
  let point := digits.length + s.exponent
  if s.digits = 0 then "0.0"
  else if 0 ≤ s.exponent ∧ point ≤ 16 then
    String.ofList (digits ++ List.replicate s.exponent.toNat '0') ++ ".0"
  else if 0 < point ∧ point ≤ 16 then
    String.ofList (digits.take point.toNat ++ ['.'] ++ digits.drop point.toNat)
  else if -5 < point ∧ point ≤ 0 then
    String.ofList (['0', '.'] ++ List.replicate (-point).toNat '0' ++ digits)
  else
    let mantissa := match digits with
      | [] => []
      | [d] => [d]
      | d :: rest => d :: '.' :: rest
    let sign := if 0 < point then "+" else "-"
    String.ofList mantissa ++ "e" ++ sign ++ toString (point - 1).natAbs

end Short

end LuaGlue.Decimal
