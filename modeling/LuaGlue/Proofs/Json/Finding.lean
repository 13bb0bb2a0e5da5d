import LuaGlue.Proofs.Json.Mismatch
import LuaGlue.Proofs.Json.Spelling

namespace LuaGlue.Json

variable {α β : Type}

/-- A reader finds a value in a text and leaves what stands behind the text, or it finds a mismatch.
That depends on the value only, and not on how it is written. What stands behind must not continue a
number at the end of the text. -/
def Finds (read : List Char → Except Error (α × List Char)) (cs : List Char)
    (found : Except Mismatch α) : Prop :=
  ∀ rest, EndsNumber rest → read (cs ++ rest) = (found.map (·, rest)).mapError .mismatch

variable {read body : List Char → Except Error (α × List Char)} {cs more blanks lead : List Char}
  {found : Except Mismatch α} {close : Char} {isFirst : Bool}

namespace Finds

theorem map (h : Finds read cs found) (f : α → β) :
    Finds (fun cs => (read cs).map fun (value, rest) => (f value, rest)) cs (found.map f) := by
  intro rest hrest
  simp only [h rest hrest]
  cases found <;> rfl

theorem andThen (next : α → List Char → Except Error (β × List Char))
    {result : α → Except Mismatch β} (h : Finds read cs found)
    (hmore : ∀ rest, EndsNumber rest → EndsNumber (more ++ rest))
    (hnext : ∀ value, found = .ok value → Finds (next value) more (result value)) :
    Finds (fun cs => (read cs).bind fun (value, rest) => next value rest) (cs ++ more)
      (found.bind result) := by
  intro rest hrest
  rw [List.append_assoc]
  simp only [h _ (hmore rest hrest)]
  cases hfound : found with
  | error mismatch => rfl
  | ok value => exact hnext value hfound rest hrest

theorem behindMark (h : Finds body cs found) {mark : Char} (hblanks : Blanks blanks)
    (hmark : isBlank mark = false)
    (hread : ∀ cs rest, skipBlanks cs = mark :: rest → read cs = body rest) :
    Finds read (blanks ++ mark :: cs) found := by
  intro rest hrest
  rw [List.append_assoc, List.cons_append, hread _ _ (skipBlanks_mark hblanks hmark _),
    h rest hrest]

/-- An item of a list or an object is found if it is found from behind its first character. -/
theorem behindLead (close : Char) {c : Char} (h : Finds body cs found) (hlead : Leads isFirst lead)
    (hcomma : close ≠ ',') (hc : isBlank c = false) (hclose : c ≠ close)
    (hitem : ∀ cs rest, turn close isFirst cs = .ok (.item (c :: rest)) → read cs = body rest) :
    Finds read (lead ++ c :: cs) found := by
  intro rest hrest
  rw [List.append_assoc, List.cons_append, hitem _ _ (hlead.turn_eq hcomma hc hclose _),
    h rest hrest]

theorem ofClose {value : α} (hblanks : Blanks blanks) (hclose : isBlank close = false)
    (hdone : ∀ cs rest, turn close isFirst cs = .ok (.done rest) → read cs = .ok (value, rest)) :
    Finds read (blanks ++ [close]) (.ok value) := by
  intro rest _
  rw [List.append_assoc, List.singleton_append, hdone _ _ (turn_close hblanks hclose rest)]
  rfl

end Finds

section Ends

theorem endsNumber_nil : EndsNumber [] := by
  rintro c ⟨⟩

theorem EndsNumber.behind {rest : List Char} (h : EndsNumber rest) (hblanks : Blanks blanks) :
    EndsNumber (blanks ++ rest) := by
  have hblank : ∀ c, isBlank c = true → c.isDigit = false ∧ c ≠ '.' ∧ c ≠ 'e' ∧ c ≠ 'E' := by
    intro c hc
    simp only [isBlank, Bool.or_eq_true, decide_eq_true_eq] at hc
    rcases hc with ((rfl | rfl) | rfl) | rfl <;> decide
  cases blanks with
  | nil => exact h
  | cons c blanks =>
    rintro _ ⟨⟩
    exact hblank c (hblanks c List.mem_cons_self)

theorem endsNumber_mark {mark : Char} (h : mark ∈ [',', ':', ']', '\x7d']) (rest : List Char) :
    EndsNumber (mark :: rest) := by
  rintro _ ⟨⟩
  simp only [List.mem_cons, List.not_mem_nil, or_false] at h
  rcases h with rfl | rfl | rfl | rfl <;> decide

theorem Leads.endsNumber (h : Leads false lead) (rest : List Char) : EndsNumber (lead ++ rest) := by
  cases h with
  | comma hbefore _ =>
    rw [List.append_assoc]
    exact (endsNumber_mark (by decide) _).behind hbefore

theorem ItemsWritten.endsNumber {items : List Value} (h : ItemsWritten false items cs)
    (rest : List Char) : EndsNumber (cs ++ rest) := by
  cases h with
  | nil h =>
    rw [List.append_assoc]
    exact (endsNumber_mark (by decide) _).behind h
  | cons hlead _ _ =>
    rw [List.append_assoc]
    exact hlead.endsNumber _

theorem MembersWritten.endsNumber {members : List (String × Value)}
    (h : MembersWritten false members cs) (rest : List Char) : EndsNumber (cs ++ rest) := by
  cases h with
  | nil h =>
    rw [List.append_assoc]
    exact (endsNumber_mark (by decide) _).behind h
  | cons hlead _ _ _ _ _ =>
    rw [List.append_assoc]
    exact hlead.endsNumber _

end Ends

/-- What the first character of a value tells about it. -/
structure Value.StartsWith (value : Value) (c : Char) : Prop where
  not_blank : isBlank c = false
  ne_bracket : c ≠ ']'
  ne_brace : c ≠ '\x7d'
  text : c = '"' → ∃ text, value = .text text
  list : c = '[' → ∃ items, value = .list items
  object : c = '\x7b' → ∃ members, value = .object members

theorem Value.StartsWith.of_scalar {c : Char}
    (h : c ∈ ['n', 't', 'f', '-'] ∨ c.isDigit = true) (value : Value) : value.StartsWith c := by
  have hne : ∀ d, ¬ (d ∈ ['n', 't', 'f', '-'] ∨ d.isDigit = true) → c ≠ d := by
    rintro d hd rfl
    exact hd h
  constructor
  · rw [← Bool.not_eq_true]
    intro hblank
    simp only [isBlank, Bool.or_eq_true, decide_eq_true_eq] at hblank
    rcases hblank with ((heq | heq) | heq) | heq <;> exact hne _ (by decide) heq
  · exact hne _ (by decide)
  · exact hne _ (by decide)
  · exact fun heq => absurd heq (hne _ (by decide))
  · exact fun heq => absurd heq (hne _ (by decide))
  · exact fun heq => absurd heq (hne _ (by decide))

section Values

variable {value : Value}

theorem Written.exists_front (h : Written value cs) :
    ∃ c rest, cs = c :: rest ∧ value.StartsWith c := by
  cases h with
  | null => exact ⟨_, _, rfl, .of_scalar (.inl (by decide)) _⟩
  | ofTrue => exact ⟨_, _, rfl, .of_scalar (.inl (by decide)) _⟩
  | ofFalse => exact ⟨_, _, rfl, .of_scalar (.inl (by decide)) _⟩
  | number h =>
    obtain ⟨c, rest, rfl, hc⟩ := h.exists_cons
    exact ⟨c, rest, rfl, .of_scalar (.inr hc) _⟩
  | negative h => exact ⟨_, _, rfl, .of_scalar (.inl (by decide)) _⟩
  | text h =>
    refine ⟨_, _, rfl, rfl, by decide, by decide, fun _ => ⟨_, rfl⟩, ?_, ?_⟩ <;>
      exact fun heq => absurd heq (by decide)
  | list h =>
    refine ⟨_, _, rfl, rfl, by decide, by decide, ?_, fun _ => ⟨_, rfl⟩, ?_⟩ <;>
      exact fun heq => absurd heq (by decide)
  | object h =>
    refine ⟨_, _, rfl, rfl, by decide, by decide, ?_, ?_, fun _ => ⟨_, rfl⟩⟩ <;>
      exact fun heq => absurd heq (by decide)

/-- A value of the wrong kind is refused as a whole. -/
theorem Written.finds_shape {wanted : Wanted} (h : Written value cs) (hblanks : Blanks blanks)
    (hread : ∀ cs c rest, skipBlanks cs = c :: rest → value.StartsWith c →
      read cs = .error (refuse wanted (c :: rest))) :
    Finds read (blanks ++ cs) (.error (.shape value.shape wanted)) := by
  intro rest hrest
  have hshape := shapeOf_append h hrest
  obtain ⟨c, cs, rfl, hstart⟩ := h.exists_front
  rw [List.append_assoc, List.cons_append,
    hread _ _ _ (skipBlanks_mark hblanks hstart.not_blank _) hstart, refuse, ← List.cons_append,
    hshape]
  rfl

theorem finds_string {text : String} {spelled : List Char} (h : SpelledOut text.toList spelled) :
    Finds (fun cs => (unquote cs).map fun (text, rest) => (String.ofList text, rest)) spelled
      (.ok text) := by
  intro rest _
  simp only [unquote_spelledOut h rest, Except.map, String.ofList_toList]
  rfl

theorem finds_readText (h : Written value cs) (hblanks : Blanks blanks) :
    Finds readText (blanks ++ cs) value.asText := by
  have hrefuse : ∀ cs c rest, skipBlanks cs = c :: rest → c ≠ '"' →
      readText cs = .error (refuse .text (c :: rest)) := by
    intro cs c rest hcs hne
    simp only [readText, hcs]
    split <;> simp_all
  cases value with
  | text text =>
    cases h with
    | text h =>
      apply (finds_string h).behindMark hblanks rfl
      intro cs rest hcs
      simp only [readText, hcs]
  | _ =>
    apply h.finds_shape hblanks
    intro cs c rest hcs hstart
    apply hrefuse cs c rest hcs
    intro hc
    obtain ⟨_, heq⟩ := hstart.text hc
    cases heq

theorem finds_readItems {items : List Value} (h : ItemsWritten isFirst items cs) :
    Finds (readItems isFirst) cs (items.mapM Value.asText) := by
  induction items generalizing isFirst cs with
  | nil =>
    cases h with
    | nil hblanks =>
      rw [List.mapM_nil]
      apply Finds.ofClose hblanks rfl
      intro cs rest hturn
      rw [readItems_eq, hturn]
  | cons item items ih =>
    cases h with
    | cons hlead hitem hitems =>
      have hfound := (finds_readText hitem (List.forall_mem_nil _)).andThen
        (fun text cs => (readItems false cs).map (Prod.map (text :: ·) id))
        (fun rest _ => hitems.endsNumber rest) fun text _ => (ih hitems).map (text :: ·)
      obtain ⟨c, cs, rfl, hstart⟩ := hitem.exists_front
      have hbehind : Finds (fun cs => (readText (c :: cs)).bind fun text =>
          (readItems false text.2).map (Prod.map (text.1 :: ·) id))
          _ _ := fun rest hrest => hfound rest hrest
      rw [mapM_cons_eq]
      apply hbehind.behindLead ']' hlead (by decide) hstart.not_blank hstart.ne_bracket
      intro cs rest hturn
      rw [readItems_eq, hturn]
      rfl

theorem finds_readList (h : Written value cs) (hblanks : Blanks blanks) :
    Finds readList (blanks ++ cs) value.asTexts := by
  have hrefuse : ∀ cs c rest, skipBlanks cs = c :: rest → c ≠ '[' →
      readList cs = .error (refuse .list (c :: rest)) := by
    intro cs c rest hcs hne
    simp only [readList, hcs]
    split <;> simp_all
  cases value with
  | list items =>
    cases h with
    | list h =>
      apply (finds_readItems h).behindMark hblanks rfl
      intro cs rest hcs
      simp only [readList, hcs]
  | _ =>
    apply h.finds_shape hblanks
    intro cs c rest hcs hstart
    apply hrefuse cs c rest hcs
    intro hc
    obtain ⟨_, heq⟩ := hstart.list hc
    cases heq

theorem finds_readTarget {before behind : List Char} (h : Written value cs)
    (hbefore : Blanks before) (hbehind : Blanks behind) :
    Finds readTarget (before ++ ':' :: (behind ++ cs)) value.asText := by
  apply (finds_readText h hbehind).behindMark hbefore rfl
  intro cs rest hcs
  simp only [readTarget, colon, hcs]

theorem finds_readPairs {members : List (String × Value)} (h : MembersWritten isFirst members cs) :
    Finds (readPairs isFirst) cs (members.mapM Value.asPair) := by
  induction members generalizing isFirst cs with
  | nil =>
    cases h with
    | nil hblanks =>
      rw [List.mapM_nil]
      apply Finds.ofClose hblanks rfl
      intro cs rest hturn
      rw [readPairs_eq, hturn]
  | cons member members ih =>
    cases h with
    | @cons _ key value _ lead spelled before behind cs rest hlead hkey hbefore hbehind hvalue
        hmembers =>
      have htarget := (finds_readTarget hvalue hbefore hbehind).andThen
        (fun target cs => (readPairs false cs).map (Prod.map ((key, target) :: ·) id))
        (fun rest _ => hmembers.endsNumber rest)
        fun target _ => (ih hmembers).map ((key, target) :: ·)
      rw [List.append_assoc, List.cons_append, List.append_assoc] at htarget
      have hcolon : ∀ more, EndsNumber more →
          EndsNumber (before ++ ':' :: (behind ++ (cs ++ rest)) ++ more) := by
        intro more _
        rw [List.append_assoc]
        exact (endsNumber_mark (by decide) _).behind hbefore
      have hmember := (finds_string hkey).andThen
        (fun key cs => (readTarget cs).bind fun target =>
          (readPairs false target.2).map (Prod.map ((key, target.1) :: ·) id))
        hcolon fun _ heq => Except.ok.inj heq ▸ htarget
      have hfound : (((key, value) :: members).mapM Value.asPair) =
          value.asText.bind fun target => (members.mapM Value.asPair).map ((key, target) :: ·) := by
        rw [mapM_cons_eq, Value.asPair]
        cases value.asText <;> rfl
      rw [hfound]
      apply hmember.behindLead '\x7d' hlead (by decide) rfl (by decide)
      intro cs rest hturn
      rw [readPairs_eq, hturn]
      rfl

theorem finds_readObject (h : Written value cs) (hblanks : Blanks blanks) :
    Finds readObject (blanks ++ cs) value.asPairs := by
  have hrefuse : ∀ cs c rest, skipBlanks cs = c :: rest → c ≠ '\x7b' →
      readObject cs = .error (refuse .object (c :: rest)) := by
    intro cs c rest hcs hne
    simp only [readObject, hcs]
    split <;> simp_all
  cases value with
  | object members =>
    cases h with
    | object h =>
      apply (finds_readPairs h).behindMark hblanks rfl
      intro cs rest hcs
      simp only [readObject, hcs]
  | _ =>
    apply h.finds_shape hblanks
    intro cs c rest hcs hstart
    apply hrefuse cs c rest hcs
    intro hc
    obtain ⟨_, heq⟩ := hstart.object hc
    cases heq

end Values

/-- What stands around a value does not matter. -/
theorem finish_finds (h : Finds read cs found) (hblanks : Blanks blanks) :
    finish (read (cs ++ blanks)) = found.mapError .mismatch := by
  have hends : EndsNumber blanks := by
    have hnil := endsNumber_nil.behind hblanks
    rwa [List.append_nil] at hnil
  rw [h blanks hends]
  cases found with
  | error mismatch => rfl
  | ok value =>
    change finish (.ok (value, blanks)) = .ok value
    rw [finish, hblanks.skipBlanks_eq_nil]
    rfl

end LuaGlue.Json
