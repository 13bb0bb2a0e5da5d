import LuaGlue.Json.Piece
import LuaGlue.Proofs.Json.Escaping

namespace LuaGlue.Json

variable {α : Type} {read : List Char → Except Error (α × List Char)} {text : List Char} {value : α}

/-- A row of pieces is laid out: there may be blanks before each of them. -/
inductive LaidOut : List Piece → List Char → Prop
  | nil : LaidOut [] []
  | cons {piece : Piece} {pieces : List Piece} {blanks text : List Char} (hblanks : Blanks blanks)
      (h : LaidOut pieces text) :
      LaidOut (piece :: pieces) (blanks ++ (piece.written.toList ++ text))

theorem laidOut_compact (pieces : List Piece) : LaidOut pieces (compact pieces).toList := by
  induction pieces with
  | nil => exact .nil
  | cons piece rest ih =>
    have hjoin : (compact (piece :: rest)).toList =
        [] ++ (piece.written.toList ++ (compact rest).toList) := by
      simp [compact]
    rw [hjoin]
    exact .cons (List.forall_mem_nil _) ih

theorem laidOut_append_iff {pieces more : List Piece} :
    LaidOut (pieces ++ more) text ↔
      ∃ front behind, text = front ++ behind ∧ LaidOut pieces front ∧ LaidOut more behind := by
  induction pieces generalizing text with
  | nil =>
    constructor
    · intro h
      exact ⟨[], text, rfl, .nil, h⟩
    · rintro ⟨front, behind, rfl, h, hmore⟩
      cases h
      exact hmore
  | cons piece pieces ih =>
    constructor
    · intro h
      cases h with
      | cons hblanks h =>
        obtain ⟨front, behind, rfl, hfront, hbehind⟩ := ih.1 h
        refine ⟨_, behind, ?_, .cons hblanks hfront, hbehind⟩
        simp only [List.append_assoc]
    · rintro ⟨front, behind, rfl, h, hmore⟩
      cases h with
      | cons hblanks h =>
        simp only [List.append_assoc]
        exact .cons hblanks (ih.2 ⟨_, _, rfl, h, hmore⟩)

theorem LaidOut.exists_of_mark {mark : Char} {pieces : List Piece}
    (h : LaidOut (.mark mark :: pieces) text) :
    ∃ blanks inner, text = blanks ++ mark :: inner ∧ Blanks blanks ∧ LaidOut pieces inner := by
  cases h with
  | cons hblanks h => exact ⟨_, _, by simp [Piece.written], hblanks, h⟩

theorem LaidOut.exists_of_text {value : String} {pieces : List Piece}
    (h : LaidOut (.text value :: pieces) text) :
    ∃ blanks inner, text = blanks ++ '"' :: (quoted value.toList ++ inner) ∧ Blanks blanks ∧
      LaidOut pieces inner := by
  cases h with
  | cons hblanks h =>
    rw [Piece.written, toList_quote]
    exact ⟨_, _, rfl, hblanks, h⟩

/-- Rows behind an opening mark, or else behind an item, and the closing mark behind them. -/
def closedRows (close : Char) (isFirst : Bool) : List (List Piece) → List Piece
  | [] => [.mark close]
  | row :: rest => (if isFirst then row else .mark ',' :: row) ++ closedRows close false rest

theorem separated_append (close : Char) (rows : List (List Piece)) :
    separated rows ++ [.mark close] = closedRows close true rows := by
  fun_induction separated rows with
  | case1 => rfl
  | case2 row => rfl
  | case3 row rest hne ih =>
    rw [List.append_assoc, List.cons_append, ih]
    cases rest with
    | nil => exact absurd rfl hne
    | cons next rest => rfl

/-- What stands before an item: blanks, and a comma among them if another item came before. -/
inductive Leads : Bool → List Char → Prop
  | first {blanks : List Char} (h : Blanks blanks) : Leads true blanks
  | comma {before behind : List Char} (hbefore : Blanks before) (hbehind : Blanks behind) :
      Leads false (before ++ ',' :: behind)

variable {close : Char} {isFirst : Bool} {lead : List Char}

theorem Leads.turn_eq (h : Leads isFirst lead) (hcomma : close ≠ ',') {c : Char}
    (hc : isBlank c = false) (hclose : c ≠ close) (cs : List Char) :
    turn close isFirst (lead ++ c :: cs) = .ok (.item (c :: cs)) := by
  have hblank : isBlank ',' = false := rfl
  cases h with
  | first h => simp only [turn, skipBlanks_mark h hc, if_neg hclose, if_true]
  | comma hbefore hbehind =>
    rw [List.append_assoc, List.cons_append]
    simp only [turn, skipBlanks_mark hbefore hblank, skipBlanks_mark hbehind hc,
      if_neg hcomma.symm, if_neg hclose, if_true, Bool.false_eq_true, if_false]

/-- A text that ends before the next item is too short. -/
theorem Leads.turn_cut (h : Leads isFirst lead) (hcomma : close ≠ ',') {front : List Char}
    (hfront : front <+: lead) : turn close isFirst front = .error .truncated := by
  have hblanks : ∀ {blanks : List Char} {isFirst : Bool}, Blanks blanks →
      turn close isFirst blanks = .error .truncated := by
    intro blanks isFirst hblanks
    simp only [turn, hblanks.skipBlanks_eq_nil]
  cases h with
  | first h => exact hblanks (h.of_prefix hfront)
  | comma hbefore hbehind =>
    obtain ⟨rest, heq⟩ := hfront
    rcases cut_append heq with ⟨lost, hlost, -⟩ | ⟨inner, rfl, hinner⟩
    · exact hblanks (hbefore.of_prefix ⟨lost, hlost⟩)
    · obtain rfl | ⟨inner, rfl, hend⟩ := cut_cons hinner
      · rw [List.append_nil]
        exact hblanks hbefore
      · have hblank : isBlank ',' = false := rfl
        have hrest := hbehind.of_prefix ⟨rest, hend⟩
        simp only [turn, skipBlanks_mark hbefore hblank, if_neg hcomma.symm, if_true,
          hrest.skipBlanks_eq_nil, Bool.false_eq_true, if_false]

theorem turn_close {blanks : List Char} (h : Blanks blanks) (hclose : isBlank close = false)
    (cs : List Char) : turn close isFirst (blanks ++ close :: cs) = .ok (.done cs) := by
  simp only [turn, skipBlanks_mark h hclose, if_true]

theorem LaidOut.exists_of_rows {value : String} {row : List Piece} {rows : List (List Piece)}
    (h : LaidOut (closedRows close isFirst ((.text value :: row) :: rows)) text) :
    ∃ lead inner behind, text = lead ++ '"' :: (quoted value.toList ++ (inner ++ behind)) ∧
      Leads isFirst lead ∧ LaidOut row inner ∧ LaidOut (closedRows close false rows) behind := by
  cases isFirst with
  | true =>
    rw [closedRows, if_pos rfl, List.cons_append] at h
    obtain ⟨blanks, inner, rfl, hblanks, h⟩ := h.exists_of_text
    obtain ⟨inner, behind, rfl, hrow, hrows⟩ := laidOut_append_iff.1 h
    exact ⟨blanks, inner, behind, rfl, .first hblanks, hrow, hrows⟩
  | false =>
    rw [closedRows, if_neg Bool.false_ne_true, List.cons_append, List.cons_append] at h
    obtain ⟨before, _, rfl, hbefore, h⟩ := h.exists_of_mark
    obtain ⟨blanks, inner, rfl, hblanks, h⟩ := h.exists_of_text
    obtain ⟨inner, behind, rfl, hrow, hrows⟩ := laidOut_append_iff.1 h
    refine ⟨before ++ ',' :: blanks, inner, behind, ?_, .comma hbefore hblanks, hrow, hrows⟩
    simp only [List.append_assoc, List.cons_append]

/-- An item of a list or an object is taken if it is taken from behind its first character. -/
theorem Takes.behindLead (close : Char) {body : List Char → Except Error (α × List Char)} {c : Char}
    (h : Takes body text value) (hlead : Leads isFirst lead) (hcomma : close ≠ ',')
    (hc : isBlank c = false) (hclose : c ≠ close)
    (herror : ∀ cs e, turn close isFirst cs = .error e → read cs = .error e)
    (hitem : ∀ cs rest, turn close isFirst cs = .ok (.item (c :: rest)) → read cs = body rest) :
    Takes read (lead ++ c :: text) value := by
  -- The first character of the item belongs to what is passed: only it tells an item from the end.
  rw [List.append_cons]
  apply h.behind
  · intro cs
    rw [← List.append_cons]
    exact hitem _ _ (hlead.turn_eq hcomma hc hclose cs)
  · intro front rest heq hne
    apply herror
    rcases cut_append heq with ⟨lost, hlost, -⟩ | ⟨inner, rfl, hinner⟩
    · exact hlead.turn_cut hcomma ⟨lost, hlost⟩
    · obtain rfl | ⟨_, rfl, hend⟩ := cut_cons hinner
      · rw [List.append_nil]
        exact hlead.turn_cut hcomma (List.prefix_refl lead)
      · exact absurd (List.append_eq_nil_iff.1 hend).2 hne

/-- The end of a list or an object. -/
theorem Takes.ofClose (h : LaidOut [.mark close] text) (hclose : isBlank close = false)
    (herror : ∀ cs e, turn close isFirst cs = .error e → read cs = .error e)
    (hdone : ∀ cs rest, turn close isFirst cs = .ok (.done rest) → read cs = .ok (value, rest)) :
    Takes read text value := by
  obtain ⟨blanks, _, rfl, hblanks, h⟩ := h.exists_of_mark
  cases h
  constructor
  · intro rest
    rw [← List.append_cons]
    exact hdone _ _ (turn_close hblanks hclose rest)
  · intro front rest heq hne
    apply herror
    simp only [turn, (hblanks.cut_mark heq hne).skipBlanks_eq_nil]

/-- A list or an object is taken if it is taken from behind its opening mark. -/
theorem Takes.ofRows {body : List Char → Except Error (α × List Char)} {mark close : Char}
    {rows : List (List Piece)} (h : LaidOut (.mark mark :: separated rows ++ [.mark close]) text)
    (hmark : isBlank mark = false)
    (hbody : ∀ inner, LaidOut (closedRows close true rows) inner → Takes body inner value)
    (hnone : ∀ cs, skipBlanks cs = [] → read cs = .error .truncated)
    (hread : ∀ cs rest, skipBlanks cs = mark :: rest → read cs = body rest) :
    Takes read text value := by
  rw [List.cons_append, separated_append] at h
  obtain ⟨blanks, inner, rfl, hblanks, h⟩ := h.exists_of_mark
  exact (hbody inner h).behindMark hblanks hmark hnone hread

theorem takes_readText {value : String} (h : LaidOut [.text value] text) :
    Takes readText text value := by
  obtain ⟨blanks, _, rfl, hblanks, h⟩ := h.exists_of_text
  cases h
  rw [List.append_nil]
  apply (takes_string value).behindMark hblanks rfl
  · intro cs hcs
    simp only [readText, hcs]
  · intro cs rest hcs
    simp only [readText, hcs]

theorem readItems_eq (isFirst : Bool) (cs : List Char) :
    readItems isFirst cs = match turn ']' isFirst cs with
      | .error e => .error e
      | .ok (.done rest) => .ok ([], rest)
      | .ok (.item item) => (readText item).bind fun (text, rest) =>
        (readItems false rest).map fun (texts, rest) => (text :: texts, rest) := by
  rw [readItems]
  split
  · rename_i hturn
    rw [hturn]
  · rename_i hturn
    rw [hturn]
  · rename_i hturn
    rw [hturn]
    dsimp only
    split <;> rename_i hread <;> rw [hread] <;> rfl

theorem takes_readItems {texts : List String}
    (h : LaidOut (closedRows ']' isFirst (texts.map fun value => [.text value])) text) :
    Takes (readItems isFirst) text texts := by
  induction texts generalizing isFirst text with
  | nil =>
    apply Takes.ofClose h rfl
    · intro cs e hturn
      rw [readItems_eq, hturn]
    · intro cs rest hturn
      rw [readItems_eq, hturn]
  | cons value rest ih =>
    obtain ⟨lead, inner, behind, rfl, hlead, hrow, hrows⟩ := h.exists_of_rows
    cases hrow
    have hitem := (takes_string value).andThen
      (fun text cs => (readItems false cs).map fun (texts, rest) => (text :: texts, rest))
      ((ih hrows).map (value :: ·))
    apply hitem.behindLead ']' hlead (by decide) rfl (by decide)
    · intro cs e hturn
      rw [readItems_eq, hturn]
    · intro cs rest hturn
      rw [readItems_eq, hturn]
      rfl

theorem takes_readList {texts : List String} (h : LaidOut (listPieces texts) text) :
    Takes readList text texts := by
  apply Takes.ofRows h rfl fun _ h => takes_readItems h
  · intro cs hcs
    simp only [readList, hcs]
  · intro cs rest hcs
    simp only [readList, hcs]

theorem readPairs_eq (isFirst : Bool) (cs : List Char) :
    readPairs isFirst cs = match turn '\x7d' isFirst cs with
      | .error e => .error e
      | .ok (.done rest) => .ok ([], rest)
      | .ok (.item item) => (readKey item).bind fun (key, rest) =>
        (readTarget rest).bind fun (target, rest) =>
          (readPairs false rest).map fun (pairs, rest) => ((key, target) :: pairs, rest) := by
  rw [readPairs]
  split
  · rename_i hturn
    rw [hturn]
  · rename_i hturn
    rw [hturn]
  · rename_i hturn
    rw [hturn]
    dsimp only
    split
    · rename_i hkey
      rw [hkey]
      rfl
    · rename_i hkey
      rw [hkey, Except.bind]
      dsimp only
      split <;> rename_i htarget <;> rw [htarget] <;> rfl

theorem takes_readTarget {value : String} (h : LaidOut [.mark ':', .text value] text) :
    Takes readTarget text value := by
  obtain ⟨blanks, inner, rfl, hblanks, h⟩ := h.exists_of_mark
  apply (takes_readText h).behindMark hblanks rfl
  · intro cs hcs
    simp only [readTarget, colon, hcs]
  · intro cs rest hcs
    simp only [readTarget, colon, hcs]

theorem takes_readPairs {pairs : List (String × String)}
    (h : LaidOut (closedRows '\x7d' isFirst
      (pairs.map fun pair => fieldPieces pair.1 [.text pair.2])) text) :
    Takes (readPairs isFirst) text pairs := by
  induction pairs generalizing isFirst text with
  | nil =>
    apply Takes.ofClose h rfl
    · intro cs e hturn
      rw [readPairs_eq, hturn]
    · intro cs rest hturn
      rw [readPairs_eq, hturn]
  | cons pair rest ih =>
    obtain ⟨lead, inner, behind, rfl, hlead, hrow, hrows⟩ := h.exists_of_rows
    have htarget := (takes_readTarget hrow).andThen
      (fun target cs => (readPairs false cs).map fun (pairs, rest) =>
        ((pair.1, target) :: pairs, rest))
      ((ih hrows).map (pair :: ·))
    have hitem := (takes_string pair.1).andThen
      (fun key cs => (readTarget cs).bind fun (target, rest) =>
        (readPairs false rest).map fun (pairs, rest) => ((key, target) :: pairs, rest))
      htarget
    apply hitem.behindLead '\x7d' hlead (by decide) rfl (by decide)
    · intro cs e hturn
      rw [readPairs_eq, hturn]
    · intro cs rest hturn
      rw [readPairs_eq, hturn]
      rfl

theorem takes_readObject {pairs : List (String × String)}
    (h : LaidOut (objectPieces (pairs.map fun pair => fieldPieces pair.1 [.text pair.2])) text) :
    Takes readObject text pairs := by
  apply Takes.ofRows h rfl fun _ h => takes_readPairs h
  · intro cs hcs
    simp only [readObject, hcs]
  · intro cs rest hcs
    simp only [readObject, hcs]

/-- A row of pieces may be written with blanks before each piece and behind the last one. -/
def Spaced (pieces : List Piece) (text : String) : Prop :=
  ∃ inner blanks, text.toList = inner ++ blanks ∧ LaidOut pieces inner ∧ Blanks blanks

/-- A row that is taken however it is laid out is a whole text as it is written, and so it is with
blanks. Where the text as it is written is cut off, it is truncated. -/
theorem finish_of_takes {pieces : List Piece}
    (h : ∀ text, LaidOut pieces text → Takes read text value) :
    finish (read (compact pieces).toList) = .ok value ∧
    (∀ text, Spaced pieces text → finish (read text.toList) = .ok value) ∧
    (∀ front : String, front.toList <+: (compact pieces).toList → front ≠ compact pieces →
      finish (read front.toList) = .error .truncated) := by
  have hspaced : ∀ text, Spaced pieces text → finish (read text.toList) = .ok value := by
    rintro text ⟨inner, blanks, htext, hinner, hblanks⟩
    rw [htext]
    exact (h inner hinner).finish_eq hblanks
  refine ⟨hspaced _ ?_, hspaced, fun front hfront hne => ?_⟩
  · exact ⟨_, [], (List.append_nil _).symm, laidOut_compact pieces, List.forall_mem_nil _⟩
  · apply (h _ (laidOut_compact pieces)).finish_cut hfront
    intro heq
    exact hne (String.toList_inj.1 heq)

end LuaGlue.Json
