import LuaGlue.Json.Shape
import LuaGlue.Proofs.Json.Layout

namespace LuaGlue.Json

/-- A JSON value. The members of an object are in order, and a key may be repeated. -/
inductive Value where
  | null
  | boolean (value : Bool)
  | number (value : Number)
  | text (value : String)
  | list (items : List Value)
  | object (members : List (String × Value))

def Value.shape : Value → Shape
  | null => .null
  | boolean value => .boolean value
  | number value => value.shape
  | text value => .text value
  | list _ => .list
  | object _ => .object

/-- The four hexadecimal digits of a number, each in either case. -/
inductive Hex : Nat → List Char → Prop
  | mk {a b c d : Char} {x y z w : Nat} (ha : hexValue? a = some x) (hb : hexValue? b = some y)
      (hc : hexValue? c = some z) (hd : hexValue? d = some w) :
      Hex (((x * 16 + y) * 16 + z) * 16 + w) [a, b, c, d]

/-- The letters behind a backslash, and the characters they stand for. -/
def letterEscapes : List (Char × Char) :=
  [('"', '"'), ('\\', '\\'), ('/', '/'), ('b', '\x08'), ('f', '\x0c'), ('n', '\n'), ('r', '\r'),
    ('t', '\t')]

/-- The ways to write a character in a string: as itself, by a letter, by its number, or by the
numbers of its halves. -/
inductive Spells : Char → List Char → Prop
  | plain {c : Char} (hquote : c ≠ '"') (hslash : c ≠ '\\') (hcontrol : ¬ c < ' ') : Spells c [c]
  | letter {letter c : Char} (h : (letter, c) ∈ letterEscapes) : Spells c ['\\', letter]
  | number {n : Nat} {digits : List Char} (h : Hex n digits) (hlow : isLowHalf n = false)
      (hhigh : isHighHalf n = false) : Spells (Char.ofNat n) ('\\' :: 'u' :: digits)
  | halves {high low : Nat} {first second : List Char} (hfirst : Hex high first)
      (hsecond : Hex low second) (hhigh : isHighHalf high = true) (hlow : isLowHalf low = true) :
      Spells (joinHalves high low) ('\\' :: 'u' :: (first ++ '\\' :: 'u' :: second))

/-- A string from behind its first quotation mark, each of its characters in some spelling. -/
inductive SpelledOut : List Char → List Char → Prop
  | nil : SpelledOut [] ['"']
  | cons {c : Char} {cs spelled rest : List Char} (h : Spells c spelled)
      (hrest : SpelledOut cs rest) : SpelledOut (c :: cs) (spelled ++ rest)

/-- At least one digit. -/
def Digits (cs : List Char) : Prop :=
  cs ≠ [] ∧ ∀ c ∈ cs, c.isDigit = true

/-- The digits behind the point of a number. -/
inductive Fraction : List Char → List Char → Prop
  | none : Fraction [] []
  | point {cs : List Char} (h : Digits cs) : Fraction cs ('.' :: cs)

/-- The number of some digits. -/
def decimal (cs : List Char) : Nat :=
  cs.foldl (fun n c => n * 10 + digitValue c) 0

inductive Exponent : Option Int → List Char → Prop
  | none : Exponent none []
  | plain {e : Char} {cs : List Char} (he : e = 'e' ∨ e = 'E') (h : Digits cs) :
      Exponent (some (decimal cs)) (e :: cs)
  | plus {e : Char} {cs : List Char} (he : e = 'e' ∨ e = 'E') (h : Digits cs) :
      Exponent (some (decimal cs)) (e :: '+' :: cs)
  | minus {e : Char} {cs : List Char} (he : e = 'e' ∨ e = 'E') (h : Digits cs) :
      Exponent (some (-decimal cs)) (e :: '-' :: cs)

/-- A number without its sign. Only a zero that stands alone can come first, and the number must not
be too large for the binary format. -/
inductive Numeral (negative : Bool) : Number → List Char → Prop
  | mk {number : Number} {whole fraction point power : List Char} {exponent : Option Int}
      (hwhole : Digits whole) (hzero : ∀ rest, whole = '0' :: rest → rest = [])
      (hfraction : Fraction fraction point) (hexponent : Exponent exponent power)
      (hnumber : numberOf negative whole fraction exponent = .ok number) :
      Numeral negative number (whole ++ (point ++ power))

mutual

/-- The texts of a value, without blanks around it. -/
inductive Written : Value → List Char → Prop
  | null : Written .null ['n', 'u', 'l', 'l']
  | ofTrue : Written (.boolean true) ['t', 'r', 'u', 'e']
  | ofFalse : Written (.boolean false) ['f', 'a', 'l', 's', 'e']
  | number {number : Number} {cs : List Char} (h : Numeral false number cs) :
      Written (.number number) cs
  | negative {number : Number} {cs : List Char} (h : Numeral true number cs) :
      Written (.number number) ('-' :: cs)
  | text {value : String} {cs : List Char} (h : SpelledOut value.toList cs) :
      Written (.text value) ('"' :: cs)
  | list {items : List Value} {cs : List Char} (h : ItemsWritten true items cs) :
      Written (.list items) ('[' :: cs)
  | object {members : List (String × Value)} {cs : List Char} (h : MembersWritten true members cs) :
      Written (.object members) ('\x7b' :: cs)

/-- The items of a list and its end. -/
inductive ItemsWritten : Bool → List Value → List Char → Prop
  | nil {isFirst : Bool} {blanks : List Char} (h : Blanks blanks) :
      ItemsWritten isFirst [] (blanks ++ [']'])
  | cons {isFirst : Bool} {item : Value} {items : List Value} {lead cs rest : List Char}
      (hlead : Leads isFirst lead) (hitem : Written item cs)
      (hitems : ItemsWritten false items rest) :
      ItemsWritten isFirst (item :: items) (lead ++ (cs ++ rest))

/-- The members of an object and its end. -/
inductive MembersWritten : Bool → List (String × Value) → List Char → Prop
  | nil {isFirst : Bool} {blanks : List Char} (h : Blanks blanks) :
      MembersWritten isFirst [] (blanks ++ ['\x7d'])
  | cons {isFirst : Bool} {key : String} {value : Value} {members : List (String × Value)}
      {lead spelled before behind cs rest : List Char} (hlead : Leads isFirst lead)
      (hkey : SpelledOut key.toList spelled) (hbefore : Blanks before) (hbehind : Blanks behind)
      (hvalue : Written value cs) (hmembers : MembersWritten false members rest) :
      MembersWritten isFirst ((key, value) :: members)
        (lead ++ '"' :: (spelled ++ (before ++ ':' :: (behind ++ (cs ++ rest)))))

end

/-- A whole text is a value with blanks around it. -/
def Document (value : Value) (text : String) : Prop :=
  ∃ before cs behind, text.toList = before ++ (cs ++ behind) ∧ Blanks before ∧ Written value cs ∧
    Blanks behind

theorem spells_escape (c : Char) : Spells c (escape c) := by
  rcases escape_cases c with ⟨hc, hquote, hslash, hcontrol⟩ | ⟨letter, hc, hletter⟩ |
    ⟨n, hn, rfl, hc⟩
  · rw [hc]
    exact .plain hquote hslash hcontrol
  · rw [hc]
    have hread := hletter []
    have hnumber : readNumbered [] = .error .truncated := rfl
    unfold unescape at hread
    split at hread
    case h_1 heq => cases heq
    case h_10 heq =>
      cases heq
      cases hnumber.symm.trans hread
    case h_11 => cases hread
    all_goals
      rename_i heq
      cases heq
      cases hread
      exact .letter (by decide)
  · rw [hc]
    have hzero : hexValue? '0' = some 0 := rfl
    have hhigh := hexValue?_hexDigit (n / 16) (by omega)
    have hlow := hexValue?_hexDigit (n % 16) (by omega)
    have hvalue : ((0 * 16 + 0) * 16 + n / 16) * 16 + n % 16 = n := by omega
    have hhex := Hex.mk hzero hzero hhigh hlow
    rw [hvalue] at hhex
    obtain ⟨hnotLow, hnotHigh⟩ := not_half_of_lt (by omega : n < 0xD800)
    exact .number hhex hnotLow hnotHigh

/-- The writer of strings uses one of the spellings. -/
theorem spelledOut_quoted (cs : List Char) : SpelledOut cs (quoted cs) := by
  induction cs with
  | nil => exact .nil
  | cons c cs ih =>
    rw [quoted, List.flatMap_cons, List.append_assoc]
    exact .cons (spells_escape c) ih

theorem written_quote (value : String) : Written (.text value) (quote value).toList := by
  rw [toList_quote]
  exact .text (spelledOut_quoted value.toList)

theorem document_of_written {value : Value} {cs : List Char} {text : String} (h : Written value cs)
    (htext : text.toList = cs) : Document value text := by
  have hnone : Blanks [] := List.forall_mem_nil _
  refine ⟨[], cs, [], ?_, hnone, h, hnone⟩
  rw [htext, List.nil_append, List.append_nil]

end LuaGlue.Json
