namespace LuaGlue.Text

/-- The bytes of a text, encoded in UTF-8. -/
def bytes (text : String) : List UInt8 :=
  text.toUTF8.data.toList

theorem bytes_eq_flatMap (text : String) :
    bytes text = text.toList.flatMap String.utf8EncodeChar := by
  obtain ⟨cs, rfl⟩ : ∃ cs, text = String.ofList cs := ⟨text.toList, String.ofList_toList.symm⟩
  rw [bytes, String.toUTF8_eq_toByteArray, String.toByteArray_ofList, List.utf8Encode,
    List.data_toByteArray, String.toList_ofList]

section Chars

variable {m n : Nat} {xs ys : List UInt8}

private theorem ofNat_cons_lt (hn : n < 256) (h : m < n) :
    UInt8.ofNat m :: xs < UInt8.ofNat n :: ys :=
  .rel ((UInt8.ofNat_lt_iff_lt (Nat.lt_trans h hn) hn).2 h)

/-- The first bytes decide, and where they are equal the bytes behind them. -/
private theorem ofNat_cons_lt_of_le (hn : n < 256) (h : m ≤ n) (hrest : m = n → xs < ys) :
    UInt8.ofNat m :: xs < UInt8.ofNat n :: ys := by
  rcases Nat.lt_or_eq_of_le h with hlt | rfl
  · exact ofNat_cons_lt hn hlt
  · exact .cons (hrest rfl)

/-- The smaller character has the smaller bytes, whatever comes behind them. -/
theorem utf8EncodeChar_append_lt {c d : Char} (h : c < d) (xs ys : List UInt8) :
    String.utf8EncodeChar c ++ xs < String.utf8EncodeChar d ++ ys := by
  have hval : c.val.toNat < d.val.toNat := h
  have hmax : d.val.toNat < 0x110000 := by
    rcases d.valid with hlow | hhigh
    · exact Nat.lt_trans hlow (by decide)
    · exact hhigh.2
  unfold String.utf8EncodeChar
  generalize c.val.toNat = m at hval
  generalize d.val.toNat = n at hval hmax
  dsimp only
  -- The cases are the lengths of the first character, and within them those of the second one.
  split
  · split
    · exact ofNat_cons_lt (by omega) hval
    split
    · exact ofNat_cons_lt (by omega) (by omega)
    split
    · exact ofNat_cons_lt (by omega) (by omega)
    · exact ofNat_cons_lt (by omega) (by omega)
  split
  · rw [if_neg (by omega)]
    split
    · exact ofNat_cons_lt_of_le (by omega) (by omega) fun _ => ofNat_cons_lt (by omega) (by omega)
    split
    · exact ofNat_cons_lt (by omega) (by omega)
    · exact ofNat_cons_lt (by omega) (by omega)
  split
  · rw [if_neg (by omega), if_neg (by omega)]
    split
    · exact ofNat_cons_lt_of_le (by omega) (by omega) fun _ =>
        ofNat_cons_lt_of_le (by omega) (by omega) fun _ => ofNat_cons_lt (by omega) (by omega)
    · exact ofNat_cons_lt (by omega) (by omega)
  · rw [if_neg (by omega), if_neg (by omega), if_neg (by omega)]
    exact ofNat_cons_lt_of_le (by omega) (by omega) fun _ =>
      ofNat_cons_lt_of_le (by omega) (by omega) fun _ =>
        ofNat_cons_lt_of_le (by omega) (by omega) fun _ => ofNat_cons_lt (by omega) (by omega)

end Chars

theorem bytes_lt_of_lt {first second : String} (h : first < second) :
    bytes first < bytes second := by
  rw [bytes_eq_flatMap, bytes_eq_flatMap]
  have hchars : first.toList < second.toList := h
  generalize first.toList = cs at hchars
  generalize second.toList = ds at hchars
  induction hchars with
  | @nil d ds =>
    cases hbytes : (d :: ds).flatMap String.utf8EncodeChar with
    | nil =>
      rw [List.flatMap_cons, List.append_eq_nil_iff] at hbytes
      exact absurd hbytes.1 String.utf8EncodeChar_ne_nil
    | cons b bs => exact .nil
  | cons _ ih =>
    rw [List.flatMap_cons, List.flatMap_cons]
    exact List.append_left_lt ih
  | rel hlt =>
    rw [List.flatMap_cons, List.flatMap_cons]
    exact utf8EncodeChar_append_lt hlt _ _

/-- The order of texts is the order of their bytes: a character that takes more bytes starts with a
greater byte, and the bytes of characters of one length are the digits of their numbers. -/
theorem bytes_lt_iff {first second : String} : bytes first < bytes second ↔ first < second := by
  refine ⟨fun h => ?_, bytes_lt_of_lt⟩
  by_cases hlt : first < second
  · exact hlt
  by_cases heq : first = second
  · subst heq
    exact absurd h (List.lt_irrefl _)
  · have hgt := bytes_lt_of_lt (Std.lt_of_le_of_ne hlt (Ne.symm heq))
    exact absurd h (List.lt_asymm hgt)

end LuaGlue.Text
