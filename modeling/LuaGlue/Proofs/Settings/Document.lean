import LuaGlue.Proofs.Json.Finding
import LuaGlue.Proofs.Settings.Override

namespace LuaGlue.Settings

open Json

variable {s : Settings} {field : Field} {missing : List Field} {value : Value}
  {cs blanks : List Char} {isFirst : Bool}

theorem finds_readField (s : Settings) (field : Field) (h : Written value cs)
    (hblanks : Blanks blanks) : Finds (s.readField field) (blanks ++ cs) (s.give field value) := by
  cases field with
  | includes => exact (finds_readList h hblanks).map fun includes => { s with includes }
  | usings => exact (finds_readList h hblanks).map fun usings => { s with usings }
  | aliases =>
    have hread := ((finds_readObject h hblanks).map AliasTable.ofList).map
      fun aliases => { s with aliases }
    have hgive : (value.asPairs.map AliasTable.ofList).map (fun aliases => { s with aliases }) =
        s.give .aliases value := by
      rw [give]
      cases value.asPairs <;> rfl
    rwa [hgive] at hread
  | registerFunction =>
    exact (finds_readText h hblanks).map fun registerFunction => { s with registerFunction }
  | interpreter => exact (finds_readText h hblanks).map fun interpreter => { s with interpreter }

theorem finds_readName {key : String} {spelled : List Char} (h : SpelledOut key.toList spelled) :
    Finds (fun cs => readName missing ('"' :: cs)) spelled (findField missing key) := by
  intro rest _
  simp only [readName, readKey, unquote_spelledOut h rest, Except.map, String.ofList_toList,
    findField]
  cases Field.ofName? key with
  | none => rfl
  | some field =>
    by_cases hmem : field ∈ missing
    · simp only [if_pos hmem]
      rfl
    · simp only [if_neg hmem]
      rfl

/-- A member is taken before the members behind it. -/
theorem foldlM_giveMember_cons (key : String) (value : Value) (members : List (String × Value)) :
    (((key, value) :: members).foldlM giveMember (s, missing)).map Prod.fst =
      (findField missing key).bind fun field => (s.give field value).bind fun s =>
        (members.foldlM giveMember (s, missing.erase field)).map Prod.fst := by
  rw [List.foldlM_cons, giveMember]
  cases findField missing key with
  | error mismatch => rfl
  | ok field =>
    dsimp only [Except.bind]
    cases s.give field value <;> rfl

theorem finds_readFields {members : List (String × Value)} (h : MembersWritten isFirst members cs) :
    Finds (readFields isFirst missing s) cs
      ((members.foldlM giveMember (s, missing)).map Prod.fst) := by
  induction members generalizing isFirst missing s cs with
  | nil =>
    cases h with
    | nil hblanks =>
      apply Finds.ofClose hblanks rfl
      intro cs rest hturn
      rw [readFields_eq, hturn]
  | cons member members ih =>
    cases h with
    | @cons _ key value _ lead spelled before behind cs rest hlead hkey hbefore hbehind hvalue
        hmembers =>
      have hfield : ∀ field, Finds (fun cs => (colon cs).bind fun rest =>
          (s.readField field rest).bind fun given =>
            readFields false (missing.erase field) given.1 given.2)
          (before ++ ':' :: (behind ++ (cs ++ rest)))
          ((s.give field value).bind fun s =>
            (members.foldlM giveMember (s, missing.erase field)).map Prod.fst) := by
        intro field
        have hread := (finds_readField s field hvalue hbehind).andThen
          (fun s cs => readFields false (missing.erase field) s cs)
          (fun rest _ => hmembers.endsNumber rest) fun s _ => ih hmembers
        rw [List.append_assoc] at hread
        apply hread.behindMark hbefore rfl
        intro cs rest hcs
        simp only [colon, hcs, Except.bind]
      have hcolon : ∀ more, EndsNumber more →
          EndsNumber (before ++ ':' :: (behind ++ (cs ++ rest)) ++ more) := by
        intro more _
        rw [List.append_assoc]
        exact (endsNumber_mark (by decide) _).behind hbefore
      have hname : Finds (fun cs => readName missing ('"' :: cs)) spelled (findField missing key) :=
        finds_readName hkey
      have hmember := hname.andThen
        (fun field cs => (colon cs).bind fun rest =>
          (s.readField field rest).bind fun given =>
            readFields false (missing.erase field) given.1 given.2)
        hcolon fun field _ => hfield field
      rw [foldlM_giveMember_cons]
      apply hmember.behindLead '\x7d' hlead (by decide) rfl (by decide)
      intro cs rest hturn
      rw [readFields_eq, hturn]

/-- Without a field left, every further value is one too many. -/
theorem readPositions_nil {items : List Value} (h : ItemsWritten isFirst items cs)
    (rest : List Char) :
    readPositions isFirst s (cs ++ rest) [] =
      if items.length = 0 then .ok (s, rest) else .error .malformed := by
  have hcomma : isBlank ',' = false := rfl
  cases h with
  | nil hblanks =>
    rw [List.append_assoc, List.singleton_append, readPositions, skipBlanks_mark hblanks rfl]
    rfl
  | cons hlead hitem _ =>
    obtain ⟨c, cs, rfl, hstart⟩ := hitem.exists_front
    cases hlead with
    | first hblanks =>
      rw [List.append_assoc, List.cons_append, List.cons_append, readPositions,
        skipBlanks_mark hblanks hstart.not_blank]
      split
      · contradiction
      · rename_i heq
        cases heq
        exact absurd rfl hstart.ne_bracket
      · rfl
    | comma hbefore _ =>
      rw [List.append_assoc, List.append_assoc, List.cons_append, readPositions,
        skipBlanks_mark hbefore hcomma]
      rfl

/-- Values by position are taken as if they were named by the fields in order. -/
theorem readPositions_append {fields : List Field} {items : List Value}
    (h : ItemsWritten isFirst items cs) (hmissing : ∀ field ∈ fields, field ∈ missing)
    (hnodup : fields.Nodup) (rest : List Char) :
    readPositions isFirst s (cs ++ rest) fields =
      ((((fields.map Field.name).zip items).foldlM giveMember (s, missing)).mapError
        Json.Error.mismatch).bind fun given =>
          if items.length ≤ fields.length then .ok (given.1, rest) else .error .malformed := by
  induction fields generalizing isFirst missing s items cs with
  | nil =>
    rw [readPositions_nil h]
    simp only [List.length_nil, Nat.le_zero]
    rfl
  | cons field fields ih =>
    cases h with
    | nil hblanks =>
      rw [List.append_assoc, List.singleton_append, readPositions, turn_close hblanks rfl]
      rfl
    | @cons _ item items lead cs behind hlead hitem hitems =>
      have hmem := hmissing field List.mem_cons_self
      have hread := finds_readField s field hitem (List.forall_mem_nil _) (behind ++ rest)
        (hitems.endsNumber rest)
      have hgiven : giveMember (s, missing) (field.name, item) =
          (s.give field item).map (·, missing.erase field) := by
        rw [giveMember, findField_eq_ok_iff.2 ⟨rfl, hmem⟩]
        rfl
      obtain ⟨c, cs, rfl, hstart⟩ := hitem.exists_front
      rw [List.append_assoc, List.append_assoc, List.cons_append, readPositions,
        hlead.turn_eq (by decide) hstart.not_blank hstart.ne_bracket]
      rw [List.nil_append, List.cons_append] at hread
      rw [List.map_cons, List.zip_cons_cons, List.foldlM_cons, hgiven]
      simp only [hread, List.length_cons, Nat.add_le_add_iff_right]
      cases s.give field item with
      | error mismatch => rfl
      | ok s => exact ih hitems (forall_mem_erase hmissing hnodup) (List.nodup_cons.1 hnodup).2

section Documents

variable {text : String}

theorem ofJson_object {members : List (String × Value)} (h : Document (.object members) text) :
    ofJson text = (ofMembers members).mapError .mismatch := by
  obtain ⟨before, cs, behind, htext, hbefore, hwritten, hbehind⟩ := h
  cases hwritten with
  | @object _ cs hmembers =>
    have hread : Finds read (before ++ '\x7b' :: cs) (ofMembers members) := by
      apply (finds_readFields hmembers).behindMark hbefore rfl
      intro cs rest hcs
      simp only [read, hcs]
    rw [ofJson, htext, ← List.append_assoc, finish_finds hread hbehind]

/-- The values of a list belong to the fields in order. -/
def byPosition (items : List Value) : List (String × Value) :=
  (Field.all.map Field.name).zip items

theorem ofJson_list {items : List Value} (h : Document (.list items) text) :
    ofJson text = ((ofMembers (byPosition items)).mapError .mismatch).bind fun s =>
      if items.length ≤ Field.all.length then .ok s else .error .malformed := by
  obtain ⟨before, cs, behind, htext, hbefore, hwritten, hbehind⟩ := h
  cases hwritten with
  | @list _ cs hitems =>
    have hread : read text.toList = readPositions true {} (cs ++ behind) Field.all := by
      rw [htext, List.cons_append, read, skipBlanks_mark hbefore rfl]
      rfl
    rw [ofJson, hread, readPositions_append hitems (fun _ h => h) (by decide), ofMembers,
      byPosition]
    cases ((Field.all.map Field.name).zip items).foldlM giveMember ({}, Field.all) with
    | error mismatch => rfl
    | ok given =>
      simp only [Except.mapError, Except.bind, Except.map]
      split
      · simp only [finish, hbehind.skipBlanks_eq_nil]
        rfl
      · rfl

/-- A document that is neither an object nor a list is refused. -/
theorem ofJson_other (h : Document value text) (hlist : ∀ items, value ≠ .list items)
    (hobject : ∀ members, value ≠ .object members) :
    ofJson text = .error (.mismatch (.shape value.shape .settings)) := by
  obtain ⟨before, cs, behind, htext, hbefore, hwritten, hbehind⟩ := h
  have hread : Finds read (before ++ cs) (.error (.shape value.shape .settings)) := by
    apply hwritten.finds_shape hbefore
    intro cs c rest hcs hstart
    unfold read
    rw [hcs]
    split
    · contradiction
    · rename_i heq
      cases heq
      obtain ⟨members, heq⟩ := hstart.object rfl
      exact absurd heq (hobject members)
    · rename_i heq
      cases heq
      obtain ⟨items, heq⟩ := hstart.list rfl
      exact absurd heq (hlist items)
    · rfl
  rw [ofJson, htext, ← List.append_assoc, finish_finds hread hbehind]
  rfl

theorem mapError_ofMembers_eq_ok_iff {members : List (String × Value)} :
    (ofMembers members).mapError Json.Error.mismatch = .ok s ↔ s.Overrides members := by
  rw [← ofMembers_eq_ok_iff]
  cases ofMembers members with
  | error mismatch => exact ⟨nofun, nofun⟩
  | ok given => exact ⟨fun h => congrArg _ (Except.ok.inj h), fun h => congrArg _ (Except.ok.inj h)⟩

theorem mapError_ofMembers_eq_error_iff {members : List (String × Value)} {e : Json.Error} :
    (ofMembers members).mapError Json.Error.mismatch = .error e ↔
      ∃ mismatch, e = .mismatch mismatch ∧ FirstMismatch members mismatch := by
  simp only [← ofMembers_eq_error_iff]
  cases ofMembers members with
  | error mismatch =>
    constructor
    · rintro ⟨⟩
      exact ⟨mismatch, rfl, rfl⟩
    · rintro ⟨_, rfl, ⟨⟩⟩
      rfl
  | ok given =>
    constructor
    · rintro ⟨⟩
    · rintro ⟨_, -, ⟨⟩⟩

theorem ofJson_list_eq_ok_iff {items : List Value} (h : Document (.list items) text) :
    ofJson text = .ok s ↔
      items.length ≤ Field.all.length ∧ s.Overrides (byPosition items) := by
  rw [ofJson_list h, ← mapError_ofMembers_eq_ok_iff]
  cases (ofMembers (byPosition items)).mapError Json.Error.mismatch with
  | error e => exact ⟨nofun, nofun⟩
  | ok given =>
    rw [Except.bind]
    by_cases hlength : items.length ≤ Field.all.length
    · rw [if_pos hlength]
      exact (and_iff_right hlength).symm
    · rw [if_neg hlength]
      exact ⟨nofun, fun hgiven => absurd hgiven.1 hlength⟩

/-- A list that is too long is only noticed if there is no mismatch in its first values. -/
theorem ofJson_list_eq_error_iff {items : List Value} {e : Json.Error}
    (h : Document (.list items) text) :
    ofJson text = .error e ↔
      (∃ mismatch, e = .mismatch mismatch ∧ FirstMismatch (byPosition items) mismatch) ∨
      e = .malformed ∧ Field.all.length < items.length ∧
        ∃ s : Settings, s.Overrides (byPosition items) := by
  rw [ofJson_list h, ← mapError_ofMembers_eq_error_iff]
  simp only [← mapError_ofMembers_eq_ok_iff]
  cases (ofMembers (byPosition items)).mapError Json.Error.mismatch with
  | error e' =>
    refine ⟨.inl, ?_⟩
    rintro (heq | ⟨-, -, given, hgiven⟩)
    · exact heq
    · cases hgiven
  | ok given =>
    rw [Except.bind]
    by_cases hlength : items.length ≤ Field.all.length
    · rw [if_pos hlength]
      refine ⟨nofun, ?_⟩
      rintro (heq | ⟨-, hlt, -⟩)
      · cases heq
      · exact absurd hlength (Nat.not_le_of_lt hlt)
    · rw [if_neg hlength]
      constructor
      · rintro ⟨⟩
        exact .inr ⟨rfl, Nat.lt_of_not_le hlength, given, rfl⟩
      · rintro (heq | ⟨rfl, -, -⟩)
        · cases heq
        · rfl

end Documents

/-- Every document is read by what it says. An object gives the settings that override the default
ones with its fields, wherever they stand, and otherwise it is refused with its first mismatch. A
list gives the same as an object that names the first fields in order, but it must not be longer
than there are fields. Every other value is refused. -/
theorem ofJson_document (text : String) :
    (∀ members, Document (.object members) text →
      (∀ s, ofJson text = .ok s ↔ s.Overrides members) ∧
      (∀ e, ofJson text = .error e ↔
        ∃ mismatch, e = .mismatch mismatch ∧ FirstMismatch members mismatch) ∧
      ∀ others otherText, Document (.object others) otherText → members.Perm others →
        ∀ s, ofJson text = .ok s → ofJson otherText = .ok s) ∧
    (∀ items, Document (.list items) text →
      (∀ s, ofJson text = .ok s ↔
        items.length ≤ Field.all.length ∧ s.Overrides (byPosition items)) ∧
      (∀ e, ofJson text = .error e ↔
        (∃ mismatch, e = .mismatch mismatch ∧ FirstMismatch (byPosition items) mismatch) ∨
        e = .malformed ∧ Field.all.length < items.length ∧
          ∃ s : Settings, s.Overrides (byPosition items)) ∧
      ∀ otherText, Document (.object (byPosition items)) otherText →
        items.length ≤ Field.all.length → ofJson text = ofJson otherText) ∧
    ∀ value, Document value text → (∀ items, value ≠ .list items) →
      (∀ members, value ≠ .object members) →
        ofJson text = .error (.mismatch (.shape value.shape .settings)) := by
  refine ⟨fun members h => ⟨fun s => ?_, fun e => ?_, ?_⟩, fun items h =>
    ⟨fun s => ofJson_list_eq_ok_iff h, fun e => ofJson_list_eq_error_iff h, ?_⟩,
    fun value => ofJson_other⟩
  · rw [ofJson_object h, mapError_ofMembers_eq_ok_iff]
  · rw [ofJson_object h, mapError_ofMembers_eq_error_iff]
  · intro others otherText hother hperm s hread
    rw [ofJson_object h, mapError_ofMembers_eq_ok_iff] at hread
    rw [ofJson_object hother, mapError_ofMembers_eq_ok_iff]
    exact hread.perm hperm
  · intro otherText hother hlength
    rw [ofJson_list h, ofJson_object hother]
    cases (ofMembers (byPosition items)).mapError Json.Error.mismatch with
    | error e => rfl
    | ok given => exact if_pos hlength

/-- The last alias for a type counts, in either order of the fields; the item that is no string
comes before the unknown field; and a list names the first field. -/
theorem ofJson_document_fields :
    ofJson "\x7b\"\\u0075sings\":[\"n\"], \"type_aliases\":\x7b\"a\":\"b\",\"a\":\"c\"\x7d\x7d" =
      .ok { usings := ["n"], aliases := .ofList [("a", "c")] } ∧
    ofJson "\x7b\"type_aliases\":\x7b\"a\":\"b\",\"a\":\"c\"\x7d,\"usings\":[\"n\"]\x7d" =
      .ok { usings := ["n"], aliases := .ofList [("a", "c")] } ∧
    ofJson "\x7b\"usings\":[\"n\",1],\"nope\":null\x7d" =
      .error (.mismatch (.shape (.integer 1) .text)) ∧
    ofJson "[[\"n\"]]" = .ok { includes := ["n"] } ∧
    ofJson "[[\"n\"]]" = ofJson "\x7b\"includes\":[\"n\"]\x7d" ∧
    ofJson "null" = .error (.mismatch (.shape .null .settings)) := by
  have hnone : Blanks [] := by decide
  have hspace : Blanks [' '] := by decide
  have hfirst : Leads true [] := .first hnone
  have hnext : Leads false [','] := .comma hnone hnone
  have hlist : Written (.list [.text "n"]) _ :=
    .list (.cons hfirst (written_quote "n") (.nil hnone))
  have haliases : Written (.object [("a", .text "b"), ("a", .text "c")]) _ :=
    .object (.cons hfirst (spelledOut_quoted _) hnone hnone (written_quote "b")
      (.cons hnext (spelledOut_quoted _) hnone hnone (written_quote "c") (.nil hnone)))
  have hpermuted : Document (.object
      [("type_aliases", .object [("a", .text "b"), ("a", .text "c")]),
        ("usings", .list [.text "n"])])
      "\x7b\"type_aliases\":\x7b\"a\":\"b\",\"a\":\"c\"\x7d,\"usings\":[\"n\"]\x7d" :=
    document_of_written (.object (.cons hfirst (spelledOut_quoted _) hnone hnone haliases
      (.cons hnext (spelledOut_quoted _) hnone hnone hlist (.nil hnone)))) (by decide +kernel)
  have hhex := Hex.mk (rfl : hexValue? '0' = some 0) (rfl : hexValue? '0' = some 0)
    (rfl : hexValue? '7' = some 7) (rfl : hexValue? '5' = some 5)
  have hkey : SpelledOut "usings".toList _ :=
    .cons (.number hhex rfl rfl) (spelledOut_quoted "sings".toList)
  have hobject : Document (.object [("usings", .list [.text "n"]),
      ("type_aliases", .object [("a", .text "b"), ("a", .text "c")])])
      "\x7b\"\\u0075sings\":[\"n\"], \"type_aliases\":\x7b\"a\":\"b\",\"a\":\"c\"\x7d\x7d" :=
    document_of_written (.object (.cons hfirst hkey hnone hnone hlist
      (.cons (.comma hnone hspace) (spelledOut_quoted _) hnone hnone haliases (.nil hnone))))
      (by decide +kernel)
  have hone : Written (.number (.integer 1)) (['1'] ++ ([] ++ [])) :=
    .number (.mk ⟨nofun, List.forall_mem_singleton.2 rfl⟩ (fun _ heq => by cases heq) .none .none
      rfl)
  have hrefused : Document (.object [("usings", .list [.text "n", .number (.integer 1)]),
      ("nope", .null)]) "\x7b\"usings\":[\"n\",1],\"nope\":null\x7d" :=
    document_of_written (.object (.cons hfirst (spelledOut_quoted _) hnone hnone
      (.list (.cons hfirst (written_quote "n") (.cons hnext hone (.nil hnone))))
      (.cons hnext (spelledOut_quoted _) hnone hnone .null (.nil hnone)))) (by decide +kernel)
  have hvalues : Document (.list [.list [.text "n"]]) "[[\"n\"]]" :=
    document_of_written (.list (.cons hfirst hlist (.nil hnone))) (by decide +kernel)
  have hnamed : Document (.object [("includes", .list [.text "n"])])
      "\x7b\"includes\":[\"n\"]\x7d" :=
    document_of_written
      (.object (.cons hfirst (spelledOut_quoted _) hnone hnone hlist (.nil hnone)))
      (by decide +kernel)
  have hgiveUsings : give {} .usings (.list [.text "n"]) = .ok { usings := ["n"] } := rfl
  have hgiveIncludes : give {} .includes (.list [.text "n"]) = .ok { includes := ["n"] } := rfl
  have hgiveAliases : give { usings := ["n"] } .aliases
      (.object [("a", .text "b"), ("a", .text "c")]) =
        .ok { usings := ["n"], aliases := .ofList [("a", "c")] } := by
    have htable : AliasTable.ofList [("a", "b"), ("a", "c")] = .ofList [("a", "c")] := by
      decide +kernel
    rw [← htable]
    rfl
  have hdefault : Overrides {} [] := overrides_nil.2 rfl
  have hincludes := hdefault.concat (by decide) hgiveIncludes
  have hgiven := (hdefault.concat (by decide) hgiveUsings).concat (by decide) hgiveAliases
  have hrefuses : Field.Refuses .usings (.list [.text "n", .number (.integer 1)])
      (.shape (.integer 1) .text) :=
    .item ["n"] (.intro fun _ heq => by cases heq) []
  have hmismatch : FirstMismatch
      [("usings", .list [.text "n", .number (.integer 1)]), ("nope", .null)]
      (.shape (.integer 1) .text) :=
    .value [("nope", .null)] ⟨_, hdefault⟩ (by decide) hrefuses
  obtain ⟨hok, -, hperm⟩ := (ofJson_document _).1 _ hobject
  obtain ⟨-, herror, -⟩ := (ofJson_document _).1 _ hrefused
  obtain ⟨hvaluesOk, -, hsame⟩ := (ofJson_document _).2.1 _ hvalues
  have hread := (hok _).2 hgiven
  exact ⟨hread, hperm _ _ hpermuted (.swap _ _ _) _ hread, (herror _).2 ⟨_, rfl, hmismatch⟩,
    (hvaluesOk _).2 ⟨by decide, hincludes⟩, hsame _ hnamed (by decide),
    (ofJson_document _).2.2 _ (document_of_written .null (by decide +kernel)) nofun nofun⟩

end LuaGlue.Settings
