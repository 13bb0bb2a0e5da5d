import LuaGlue.Decimal.Binary64
import LuaGlue.Json.Error

namespace LuaGlue.Json

/-- A number of a JSON text: an integer of 64 bits is kept exactly, and every other number is a
magnitude of the binary format. -/
inductive Number where
  | integer (value : Int)
  | real (negative : Bool) (magnitude : Decimal.Binary64)
  deriving DecidableEq

def digitValue (c : Char) : Nat :=
  c.toNat - '0'.toNat

/-- Takes digits into a significand as long as it has 64 bits, and leaves the others. Those count
only by their number. -/
def absorb (significand : Nat) : List Char → Nat × List Char
  | [] => (significand, [])
  | c :: rest =>
    let next := significand * 10 + digitValue c
    if next < Decimal.twoTo 64 then absorb next rest else (significand, c :: rest)

/-- The digits at the front of a text, and what stands behind them. -/
def digits (cs : List Char) : List Char × List Char :=
  (cs.takeWhile Char.isDigit, cs.dropWhile Char.isDigit)

/-- What a text lacks in which a digit is missing. -/
def missingDigit (rest : List Char) : Error :=
  if rest.isEmpty then .truncated else .malformed

/-- The digits behind a point, if there is one. -/
def fraction? : List Char → Except Error (List Char × List Char)
  | '.' :: rest =>
    match digits rest with
    | ([], rest) => .error (missingDigit rest)
    | found => .ok found
  | rest => .ok ([], rest)

/-- The exponent at the end of a number; nothing if there is none. -/
def exponent? : List Char → Except Error (Option Int × List Char)
  | c :: rest =>
    if c = 'e' ∨ c = 'E' then
      let (negative, rest) := match rest with
        | '+' :: rest => (false, rest)
        | '-' :: rest => (true, rest)
        | rest => (false, rest)
      match digits rest with
      | ([], rest) => .error (missingDigit rest)
      | (found, rest) =>
        let size := found.foldl (fun n c => n * 10 + digitValue c) 0
        .ok (some (if negative then -size else size), rest)
    else .ok (none, c :: rest)
  | [] => .ok (none, [])

/-- The number of these digits. Without fraction and exponent it is an integer if it fits into
64 bits, signed for negative numbers; minus zero is none. -/
def numberOf (negative : Bool) (whole : List Char) (fraction : List Char) (exponent : Option Int) :
    Except Error Number :=
  let (significand, unread) := absorb 0 whole
  let exact := unread.isEmpty && fraction.isEmpty && exponent.isNone
  if exact && !negative then .ok (.integer significand)
  else if exact && negative && 0 < significand && significand ≤ Decimal.twoTo 63 then
    .ok (.integer (-significand))
  else
    let (significand, ignored) := absorb significand fraction
    let shift := (unread.length : Int) - (fraction.length - ignored.length : Nat)
    let magnitude := (Decimal.Binary64.ofRatio? significand 1).bind fun x =>
      x.scaleTen? (shift + exponent.getD 0)
    match magnitude with
    | none => .error .malformed
    | some magnitude => .ok (.real negative magnitude)

/-- Reads a number without its sign. A zero at the start stands alone. -/
def readNumber (negative : Bool) (cs : List Char) : Except Error (Number × List Char) :=
  match digits cs with
  | ([], rest) => .error (missingDigit rest)
  | ('0' :: _ :: _, _) => .error .malformed
  | (whole, rest) => do
    let (fraction, rest) ← fraction? rest
    let (exponent, rest) ← exponent? rest
    let number ← numberOf negative whole fraction exponent
    .ok (number, rest)

end LuaGlue.Json
