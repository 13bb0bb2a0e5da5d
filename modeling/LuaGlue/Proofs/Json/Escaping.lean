import LuaGlue.Proofs.Json.Taking

namespace LuaGlue.Json

theorem hexValue?_hexDigit : ∀ n < 16, hexValue? (hexDigit n) = some n := by
  decide

theorem unquote_of_unescape {c : Char} {cs rest : List Char} (h : unescape cs = .ok (c, rest)) :
    unquote ('\\' :: cs) = (unquote rest).map fun (text, rest) => (c :: text, rest) := by
  rw [unquote]
  split
  · rename_i he
    cases he.symm.trans h
  · rename_i hread
    cases hread.symm.trans h
    rfl

theorem unquote_of_unescape_error {cs : List Char} {e : Error} (h : unescape cs = .error e) :
    unquote ('\\' :: cs) = .error e := by
  rw [unquote]
  split
  · rename_i he
    cases he.symm.trans h
    rfl
  · rename_i hread
    cases hread.symm.trans h

theorem unquote_of_plain {c : Char} (hquote : c ≠ '"') (hslash : c ≠ '\\') (hcontrol : ¬ c < ' ')
    (cs : List Char) :
    unquote (c :: cs) = (unquote cs).map fun (text, rest) => (c :: text, rest) := by
  rw [unquote]
  · rw [if_neg hcontrol]
  · exact hquote
  · exact hslash

/-- How a character is written: as it is, by a letter, or as a control by its number. -/
theorem escape_cases (c : Char) :
    (escape c = [c] ∧ c ≠ '"' ∧ c ≠ '\\' ∧ ¬ c < ' ') ∨
    (∃ letter, escape c = ['\\', letter] ∧ ∀ cs, unescape (letter :: cs) = .ok (c, cs)) ∨
    (∃ n < 32, c = Char.ofNat n ∧
      escape c = ['\\', 'u', '0', '0', hexDigit (n / 16), hexDigit (n % 16)]) := by
  unfold escape
  iterate 7
    split
    · subst_vars
      exact .inr (.inl ⟨_, rfl, fun _ => rfl⟩)
  split
  · rename_i hcontrol
    exact .inr (.inr ⟨c.toNat, hcontrol, (Char.ofNat_toNat c).symm, rfl⟩)
  · exact .inl ⟨rfl, by assumption, by assumption, by assumption⟩

theorem unescape_number (cs : List Char) : unescape ('u' :: cs) = readNumbered cs :=
  rfl

theorem not_half_of_lt {n : Nat} (h : n < 0xD800) :
    isLowHalf n = false ∧ isHighHalf n = false := by
  simp only [isLowHalf, isHighHalf, Bool.and_eq_false_iff, decide_eq_false_iff_not]
  omega

theorem unescape_control {n : Nat} (h : n < 32) (cs : List Char) :
    unescape ('u' :: '0' :: '0' :: hexDigit (n / 16) :: hexDigit (n % 16) :: cs) =
      .ok (Char.ofNat n, cs) := by
  have hzero : hexValue? '0' = some 0 := rfl
  have hhigh := hexValue?_hexDigit (n / 16) (by omega)
  have hlow := hexValue?_hexDigit (n % 16) (by omega)
  have hvalue : ((0 * 16 + 0) * 16 + n / 16) * 16 + n % 16 = n := by omega
  obtain ⟨hnotLow, hnotHigh⟩ := not_half_of_lt (by omega : n < 0xD800)
  rw [unescape_number]
  simp only [readNumbered, readHex, hzero, hhigh, hlow, hvalue, hnotLow, hnotHigh]
  rfl

/-- A number of a control that is cut off is too short. -/
theorem unescape_control_cut {n : Nat} (h : n < 32) {front rest : List Char}
    (heq : front ++ rest = ['u', '0', '0', hexDigit (n / 16), hexDigit (n % 16)])
    (hne : rest ≠ []) : unescape front = .error .truncated := by
  -- The reader counts bytes before it looks at digits, and three digits are three bytes.
  have hsize : ∀ m < 16, (String.ofList ['0', '0', hexDigit m]).utf8ByteSize < 4 := by decide
  have hthree := hsize (n / 16) (by omega)
  obtain rfl | ⟨_, rfl, hnumber⟩ := cut_cons heq
  · rfl
  obtain rfl | ⟨_, rfl, hzero⟩ := cut_cons hnumber
  · rfl
  obtain rfl | ⟨_, rfl, hhigh⟩ := cut_cons hzero
  · rfl
  obtain rfl | ⟨_, rfl, hlow⟩ := cut_cons hhigh
  · rfl
  obtain rfl | ⟨_, rfl, hnil⟩ := cut_cons hlow
  · rw [unescape_number]
    simp only [readNumbered, readHex, if_pos hthree]
  · exact absurd (List.append_eq_nil_iff.1 hnil).2 hne

theorem unquote_escape_append (c : Char) (cs : List Char) :
    unquote (escape c ++ cs) = (unquote cs).map fun (text, rest) => (c :: text, rest) := by
  rcases escape_cases c with ⟨hc, hquote, hslash, hcontrol⟩ | ⟨letter, hc, hletter⟩ |
    ⟨n, hn, rfl, hc⟩
  · rw [hc]
    exact unquote_of_plain hquote hslash hcontrol cs
  · rw [hc]
    exact unquote_of_unescape (hletter cs)
  · rw [hc]
    exact unquote_of_unescape (unescape_control hn cs)

/-- A character that is not written completely is truncated. -/
theorem unquote_escape_cut {c : Char} {front rest : List Char} (h : front ++ rest = escape c)
    (hne : rest ≠ []) : unquote front = .error .truncated := by
  have hnil : unquote [] = .error .truncated := by rw [unquote]
  rcases escape_cases c with ⟨hc, -⟩ | ⟨letter, hc, -⟩ | ⟨n, hn, -, hc⟩
  · rw [hc] at h
    obtain rfl | ⟨_, rfl, hend⟩ := cut_cons h
    · exact hnil
    · exact absurd (List.append_eq_nil_iff.1 hend).2 hne
  · rw [hc] at h
    obtain rfl | ⟨_, rfl, hletter⟩ := cut_cons h
    · exact hnil
    obtain rfl | ⟨_, rfl, hend⟩ := cut_cons hletter
    · exact unquote_of_unescape_error rfl
    · exact absurd (List.append_eq_nil_iff.1 hend).2 hne
  · rw [hc] at h
    obtain rfl | ⟨_, rfl, hnumber⟩ := cut_cons h
    · exact hnil
    · exact unquote_of_unescape_error (unescape_control_cut hn hnumber hne)

/-- A string from behind its first quotation mark. -/
def quoted (cs : List Char) : List Char :=
  cs.flatMap escape ++ ['"']

/-- Each escape stands for its own character, and none of them is complete before its last
character. -/
theorem takes_unquote (cs : List Char) : Takes unquote (quoted cs) cs := by
  induction cs with
  | nil =>
    constructor
    · intro rest
      rw [quoted, List.flatMap_nil, List.nil_append, List.singleton_append, unquote]
    · intro front rest heq hne
      obtain rfl | ⟨_, rfl, hend⟩ := cut_cons heq
      · rw [unquote]
      · exact absurd (List.append_eq_nil_iff.1 hend).2 hne
  | cons c cs ih =>
    rw [quoted, List.flatMap_cons, List.append_assoc]
    apply (ih.map (c :: ·)).behind
    · exact unquote_escape_append c
    · intro front rest heq hne
      exact unquote_escape_cut heq hne

theorem toList_quote (text : String) : (quote text).toList = '"' :: quoted text.toList := by
  rw [quote, String.toList_ofList, List.append_assoc]
  rfl

theorem takes_string (value : String) :
    Takes (fun cs => (unquote cs).map fun (text, rest) => (String.ofList text, rest))
      (quoted value.toList) value := by
  have h := (takes_unquote value.toList).map String.ofList
  rwa [String.ofList_toList] at h

end LuaGlue.Json
