import LuaGlue.Json.Error

namespace LuaGlue.Json

def hexDigit (n : Nat) : Char :=
  Nat.digitChar n

/-- How a character is written: quotation marks, backslashes and controls are escaped, by a letter
where there is one, and every other character stands for itself. -/
def escape (c : Char) : List Char :=
  if c = '"' then ['\\', '"']
  else if c = '\\' then ['\\', '\\']
  else if c = '\x08' then ['\\', 'b']
  else if c = '\t' then ['\\', 't']
  else if c = '\n' then ['\\', 'n']
  else if c = '\x0c' then ['\\', 'f']
  else if c = '\r' then ['\\', 'r']
  else if c < ' ' then ['\\', 'u', '0', '0', hexDigit (c.toNat / 16), hexDigit (c.toNat % 16)]
  else [c]

def quote (text : String) : String :=
  String.ofList (['"'] ++ text.toList.flatMap escape ++ ['"'])

/-- The value of a hexadecimal digit of either case. -/
def hexValue? (c : Char) : Option Nat :=
  if '0' ≤ c ∧ c ≤ '9' then some (c.toNat - '0'.toNat)
  else if 'a' ≤ c ∧ c ≤ 'f' then some (c.toNat - 'a'.toNat + 10)
  else if 'A' ≤ c ∧ c ≤ 'F' then some (c.toNat - 'A'.toNat + 10)
  else none

/-- Reads four hexadecimal digits. A text is too short for them if it has fewer than four bytes
left, whatever they are. -/
def readHex (cs : List Char) : Except Error (Nat × List Char) :=
  match cs with
  | a :: b :: c :: d :: rest =>
    match hexValue? a, hexValue? b, hexValue? c, hexValue? d with
    | some a, some b, some c, some d => .ok (((a * 16 + b) * 16 + c) * 16 + d, rest)
    | _, _, _, _ => .error .malformed
  | short => if (String.ofList short).utf8ByteSize < 4 then .error .truncated else .error .malformed

theorem length_lt_of_readHex {cs rest : List Char} {n : Nat} (h : readHex cs = .ok (n, rest)) :
    rest.length < cs.length := by
  unfold readHex at h
  split at h
  · split at h
    · cases h
      simp only [List.length_cons]
      omega
    · cases h
  · split at h <;> cases h

/-- Numbers that are the second half of a character. -/
def isLowHalf (n : Nat) : Bool :=
  0xDC00 ≤ n && n ≤ 0xDFFF

/-- Numbers that are the first half of a character. -/
def isHighHalf (n : Nat) : Bool :=
  0xD800 ≤ n && n ≤ 0xDBFF

/-- The character with these halves. -/
def joinHalves (high low : Nat) : Char :=
  Char.ofNat (0x10000 + (high - 0xD800) * 0x400 + (low - 0xDC00))

/-- Reads the second half of a character that is given by two numbers. -/
def readLowHalf (high : Nat) (cs : List Char) : Except Error (Char × List Char) :=
  match cs with
  | [] => .error .truncated
  | ['\\'] => .error .truncated
  | '\\' :: 'u' :: rest =>
    match readHex rest with
    | .error e => .error e
    | .ok (low, rest) =>
      if isLowHalf low then .ok (joinHalves high low, rest) else .error .malformed
  | _ => .error .malformed

theorem length_le_of_readLowHalf {high : Nat} {cs rest : List Char} {c : Char}
    (h : readLowHalf high cs = .ok (c, rest)) : rest.length ≤ cs.length := by
  unfold readLowHalf at h
  split at h
  · cases h
  · cases h
  · split at h
    · cases h
    · rename_i hhex
      have := length_lt_of_readHex hhex
      split at h
      · rw [Except.ok.injEq, Prod.mk.injEq] at h
        obtain ⟨-, rfl⟩ := h
        simp only [List.length_cons]
        omega
      · cases h
  · cases h

/-- Reads a character that is given by its number, as one or two halves. Halves that do not make a
pair are refused. -/
def readNumbered (cs : List Char) : Except Error (Char × List Char) :=
  match readHex cs with
  | .error e => .error e
  | .ok (n, rest) =>
    if isLowHalf n then .error .malformed
    else if isHighHalf n then readLowHalf n rest
    else .ok (Char.ofNat n, rest)

theorem length_lt_of_readNumbered {cs rest : List Char} {c : Char}
    (h : readNumbered cs = .ok (c, rest)) : rest.length < cs.length := by
  unfold readNumbered at h
  split at h
  · cases h
  · rename_i hhex
    have := length_lt_of_readHex hhex
    split at h
    · cases h
    split at h
    · have := length_le_of_readLowHalf h
      omega
    · cases h
      assumption

def unescape (cs : List Char) : Except Error (Char × List Char) :=
  match cs with
  | [] => .error .truncated
  | '"' :: rest => .ok ('"', rest)
  | '\\' :: rest => .ok ('\\', rest)
  | '/' :: rest => .ok ('/', rest)
  | 'b' :: rest => .ok ('\x08', rest)
  | 'f' :: rest => .ok ('\x0c', rest)
  | 'n' :: rest => .ok ('\n', rest)
  | 'r' :: rest => .ok ('\r', rest)
  | 't' :: rest => .ok ('\t', rest)
  | 'u' :: rest => readNumbered rest
  | _ => .error .malformed

theorem length_lt_of_unescape {cs rest : List Char} {c : Char}
    (h : unescape cs = .ok (c, rest)) : rest.length < cs.length := by
  unfold unescape at h
  split at h
  case h_10 => exact Nat.lt_succ_of_lt (length_lt_of_readNumbered h)
  all_goals cases h
  all_goals simp

/-- Reads a string from behind its first quotation mark to behind its last one. Controls must be
escaped. -/
def unquote (cs : List Char) : Except Error (List Char × List Char) :=
  match cs with
  | [] => .error .truncated
  | '"' :: rest => .ok ([], rest)
  | '\\' :: rest =>
    match _ : unescape rest with
    | .error e => .error e
    | .ok (c, rest) => (unquote rest).map fun (text, rest) => (c :: text, rest)
  | c :: rest =>
    if c < ' ' then .error .malformed
    else (unquote rest).map fun (text, rest) => (c :: text, rest)
termination_by cs.length
decreasing_by
  · have := length_lt_of_unescape ‹unescape _ = .ok (c, rest)›
    simp only [List.length_cons]
    omega
  · simp

end LuaGlue.Json
