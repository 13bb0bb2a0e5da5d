namespace LuaGlue.Text.Utf8

/-- A character, or the number of bytes that do not make one. -/
inductive Piece where
  | char (c : Char)
  | broken (bytes : Nat)
  deriving DecidableEq

/-- For the first byte of a longer character: how many bytes follow it, the range of the next
one, and the bits of the character it carries itself. The ranges leave out longer forms than
needed, surrogates, and everything above U+10FFFF. -/
def lead? (b : UInt8) : Option (Nat × UInt8 × UInt8 × Nat) :=
  if 0xC2 ≤ b ∧ b ≤ 0xDF then some (1, 0x80, 0xBF, b.toNat - 0xC0)
  else if b = 0xE0 then some (2, 0xA0, 0xBF, 0)
  else if b = 0xED then some (2, 0x80, 0x9F, 0xD)
  else if 0xE1 ≤ b ∧ b ≤ 0xEF then some (2, 0x80, 0xBF, b.toNat - 0xE0)
  else if b = 0xF0 then some (3, 0x90, 0xBF, 0)
  else if 0xF1 ≤ b ∧ b ≤ 0xF3 then some (3, 0x80, 0xBF, b.toNat - 0xF0)
  else if b = 0xF4 then some (3, 0x80, 0x8F, 4)
  else none

/-- At most `n` continuation bytes, the first of them between `lo` and `hi`. -/
def continuation (lo hi : UInt8) : Nat → List UInt8 → List UInt8
  | n + 1, b :: rest => if lo ≤ b ∧ b ≤ hi then b :: continuation 0x80 0xBF n rest else []
  | _, _ => []

/-- The piece that starts with `b`, and how many of the bytes behind `b` belong to it. -/
def first (b : UInt8) (rest : List UInt8) : Piece × Nat :=
  if b < 0x80 then (.char (Char.ofNat b.toNat), 0)
  else
    match lead? b with
    | none => (.broken 1, 0)
    | some (n, lo, hi, bits) =>
      let tail := continuation lo hi n rest
      if tail.length = n then
        (.char (Char.ofNat (tail.foldl (fun code b => code * 64 + b.toNat % 64) bits)), n)
      else (.broken (1 + tail.length), tail.length)

/-- All pieces of some bytes, in order. A broken piece is a start of a character that goes no
further, or else a single byte, so each of them stands for one lost character. -/
def pieces : List UInt8 → List Piece
  | [] => []
  | b :: rest => (first b rest).1 :: pieces (rest.drop (first b rest).2)
termination_by bytes => bytes.length
decreasing_by
  simp only [List.length_drop, List.length_cons]
  omega

/-- The longest part at the front that is well formed. -/
def frontText (bytes : ByteArray) : String :=
  let chars := (pieces bytes.toList).map fun
    | .char c => some c
    | .broken _ => none
  String.ofList ((chars.takeWhile Option.isSome).filterMap id)

/-- The bytes as text, with U+FFFD for each broken piece. -/
def lossy (bytes : ByteArray) : String :=
  String.ofList ((pieces bytes.toList).map fun
    | .char c => c
    | .broken _ => '\uFFFD')

end LuaGlue.Text.Utf8
