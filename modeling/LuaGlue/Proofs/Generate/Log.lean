import LuaGlue.Proofs.Binder.Records
import LuaGlue.Proofs.Generate.Limit

namespace LuaGlue

namespace Binder

variable (settings : Settings) (limit : Option Nat)

/-- Tokens that are read behind the head. -/
def readTokens (tokens : List Token) : Outcome (Hearing Binder) :=
  Hearing.feedAll (hear settings.aliases) ⟨{}, (writeHead settings limit).state⟩ tokens

variable {settings limit}

theorem writeHead_eq (settings : Settings) (limit : Option Nat) :
    ∃ sink : Sink, (writeHead settings limit).state = { fresh limit with sink } ∧
      sink.limit = limit ∧ sink.bytes = Sink.cut limit (Glue.prelude settings).toUTF8 ∧
      (writeHead settings limit).error =
        if Sink.overflows limit (Glue.prelude settings).toUTF8 then some .sinkFull else none := by
  have hlines : Glue.preludeLines settings ≠ [] := by simp [Glue.preludeLines]
  have hlimit : (fresh limit).sink.limit = limit := rfl
  have hempty : (fresh limit).sink.bytes = Sink.cut limit .empty := by
    cases limit with
    | none => rfl
    | some n => exact (Sink.extract_of_size_le (Nat.zero_le n)).symm
  obtain ⟨sink, hsink, hbytes, hstate, herror⟩ :=
    writeLines_of_bytes_eq_cut hlimit hempty (Glue.preludeLines settings)
  have hfails := herror hlines
  rw [ByteArray.empty_append] at hbytes hfails
  exact ⟨sink, hstate, hsink, hbytes, hfails⟩

/-- A head that fits leaves room for what is written behind it. -/
theorem keeps_writeHead (h : Sink.overflows limit (Glue.prelude settings).toUTF8 = false) :
    (writeHead settings limit).error = none ∧
    Keeps limit (Glue.prelude settings).toUTF8 (writeHead settings limit).state ∧
    (writeHead settings limit).state.registry.symbols = [] := by
  obtain ⟨sink, hstate, hsink, hbytes, herror⟩ := writeHead_eq settings limit
  rw [h] at herror
  rw [hstate]
  exact ⟨herror, ⟨hsink, .inl ⟨rfl, rfl⟩, hbytes⟩, rfl⟩

/-- Every run starts with a head that fits, and there is an account of it. -/
theorem exists_accounts_readTokens
    (h : Sink.overflows limit (Glue.prelude settings).toUTF8 = false) (tokens : List Token) :
    ∃ written pending, Accounts settings.aliases limit (Glue.prelude settings).toUTF8
      ⟨{}, (writeHead settings limit).state⟩ tokens written pending := by
  obtain ⟨-, hkeeps, -⟩ := keeps_writeHead h
  have htidy : ({} : Recognizer).Tidy := .of_not_inBody id rfl
  have hnew : ({} : Recognizer).Coherent := .of_isCtor htidy rfl
  exact exists_accounts hkeeps h hnew tokens

end Binder

section Generate

variable {settings : Settings} {limit : Option Nat} {source : String}

/-- An error while the tokens are read ends everything. -/
theorem generate_of_read_error {e : Error}
    (hhead : (Binder.writeHead settings limit).error = none)
    (h : (Binder.readTokens settings limit (Token.lex source).tokens).error = some e) :
    generate settings (.ofLimit limit) source =
      (Binder.readTokens settings limit (Token.lex source).tokens).map Hearing.listener := by
  have hrun : (Binder.hear settings.aliases).run (Binder.writeHead settings limit).state source =
      Binder.readTokens settings limit (Token.lex source).tokens := by
    rw [Listener.run, Hearing.feedText]
    rw [Binder.readTokens] at h ⊢
    rw [Outcome.andThen_of_error h, Outcome.andThen_of_error h]
  have hmapped : ((Binder.readTokens settings limit (Token.lex source).tokens).map
      Hearing.listener).error = some e := h
  rw [generate_of_head hhead, hrun, Outcome.andThen_of_error hmapped]

/-- Behind the tokens only an unclosed comment is logged, and only the registration is written, if
the description is complete. -/
theorem generate_of_read (hhead : (Binder.writeHead settings limit).error = none)
    (h : (Binder.readTokens settings limit (Token.lex source).tokens).error = none)
    {all : ByteArray} (hkeeps : Binder.Keeps limit all
      (Binder.readTokens settings limit (Token.lex source).tokens).state.listener) :
    (generate settings (.ofLimit limit) source).records =
      (Binder.readTokens settings limit (Token.lex source).tokens).records ++
        (Token.lex source).records ∧
    (generate settings (.ofLimit limit) source).state.registry =
      (Binder.readTokens settings limit (Token.lex source).tokens).state.listener.registry ∧
    ∃ more, (generate settings (.ofLimit limit) source).state.sink.bytes =
      Sink.cut limit (all ++ more) := by
  have hrun : (Binder.hear settings.aliases).run (Binder.writeHead settings limit).state source =
      ⟨(Binder.readTokens settings limit (Token.lex source).tokens).state,
        (Binder.readTokens settings limit (Token.lex source).tokens).records ++
          (Token.lex source).records,
        (Binder.readTokens settings limit
          (Token.lex source).tokens).state.recognizer.finish?⟩ := by
    rw [Listener.run, Hearing.feedText]
    rw [Binder.readTokens] at h ⊢
    rw [Outcome.andThen_of_error_eq_none h, Outcome.andThen_of_error_eq_none rfl]
    simp [Hearing.finish]
  rw [generate_of_head hhead, hrun]
  generalize (Binder.readTokens settings limit (Token.lex source).tokens) = fed at hkeeps ⊢
  cases hfinish : fed.state.recognizer.finish? with
  | some e =>
    rw [Outcome.andThen_of_error rfl]
    refine ⟨rfl, rfl, .empty, ?_⟩
    rw [ByteArray.append_empty]
    exact hkeeps.bytes_eq
  | none =>
    obtain ⟨sink, -, hbytes, hstate, -⟩ := Binder.writeLines_of_bytes_eq_cut hkeeps.limit_eq
      hkeeps.bytes_eq (Glue.registrationLines settings fed.state.listener.registry)
    have hrecords := Binder.records_writeLines fed.state.listener
      (Glue.registrationLines settings fed.state.listener.registry)
    rw [Outcome.andThen_of_error_eq_none rfl]
    simp only [Outcome.map, hstate, hrecords, List.append_nil]
    exact ⟨trivial, trivial, _, hbytes⟩

/-- The log of a run tells what has happened. The definitions in `written` were written completely;
the one in `pending`, if there is one, ended the run since its glue did not fit. -/
structure LogTells (settings : Settings) (limit : Option Nat) (source : String)
    (written : List (String × Glue.Function)) (pending : Option (String × Glue.Function)) :
    Prop where
  /-- A token has a record if those before it are read without an error. The record has the place
  that they lead to. -/
  fed : ∀ k, ((generate settings (.ofLimit limit) source).records.filter Record.isFed)[k]? =
    if (Binder.readTokens settings limit ((Token.lex source).tokens.take k)).error = none then
      (Token.lex source).tokens[k]?.map (.fed (Binder.readTokens settings limit
        ((Token.lex source).tokens.take k)).state.recognizer.place)
    else none
  wraps_behind_name : Record.WrapsBehindName (generate settings (.ofLimit limit) source).records
  /-- Each class that is told is attempted, be it refused or not. -/
  wrapped : (generate settings (.ofLimit limit) source).records.filterMap Record.wrapping? =
    ((Binder.hear settings.aliases).told (Binder.writeHead settings limit).state
      source).filterMap Event.classStart?
  accepted : (Binder.writeHead settings limit).state.accepted settings.aliases
      ((Binder.hear settings.aliases).told (Binder.writeHead settings limit).state source) =
    written ++ pending.toList
  emitted : (generate settings (.ofLimit limit) source).records.filterMap Record.emitted? =
    written.map fun definition => definition.2.symbol
  registered : (generate settings (.ofLimit limit) source).state.registry.symbols =
    (written ++ pending.toList).map fun definition => definition.2.symbol
  /-- All of the glue that is logged is in the output. -/
  output : ∃ behind, (generate settings (.ofLimit limit) source).state.sink.bytes =
    (Glue.prelude settings).toUTF8 ++ Binder.glueOf written ++ behind
  /-- The output ends in glue that is not logged. -/
  cut_off : ∀ definition ∈ pending,
    (generate settings (.ofLimit limit) source).state.sink.bytes =
      Sink.cut limit ((Glue.prelude settings).toUTF8 ++
        Binder.glueOf (written ++ [definition])) ∧
    Sink.overflows limit ((Glue.prelude settings).toUTF8 ++
      Binder.glueOf (written ++ [definition])) = true ∧
    (generate settings (.ofLimit limit) source).error = some .sinkFull
  pending_iff : pending.isSome = true ↔
    (Binder.readTokens settings limit (Token.lex source).tokens).error = some .sinkFull
  /-- A real name is logged for a class, whose name is one word. -/
  native : ∀ wrapper target,
    .native wrapper target ∈ (generate settings (.ofLimit limit) source).records →
      Text.Unbroken wrapper
  /-- An unclosed comment is logged once, behind everything else, and only without an error. -/
  unclosed : ∃ before, .unclosedComment ∉ before ∧
    ((Binder.readTokens settings limit (Token.lex source).tokens).error = none ∧
        Token.EndsInComment source ∧
        (generate settings (.ofLimit limit) source).records = before ++ [.unclosedComment] ∨
      ¬ ((Binder.readTokens settings limit (Token.lex source).tokens).error = none ∧
        Token.EndsInComment source) ∧
        (generate settings (.ofLimit limit) source).records = before)

/-- What the lines of the most detailed log say, told apart by their first words. -/
structure LinesTell (settings : Settings) (limit : Option Nat) (source : String)
    (written : List (String × Glue.Function)) : Prop where
  /-- The line of a token has the place it is read at, and its text. -/
  fed : ∀ k, (Record.linesFrom "TRACE "
      (generate settings (.ofLimit limit) source).records)[k]? =
    if (Binder.readTokens settings limit ((Token.lex source).tokens.take k)).error = none then
      (Token.lex source).tokens[k]?.map fun token =>
        "TRACE " ++ (Binder.readTokens settings limit
          ((Token.lex source).tokens.take k)).state.recognizer.place.label ++
        " <- `" ++ token.text ++ "`"
    else none
  wrapped : Record.linesFrom "INFO Wrapping class "
      (generate settings (.ofLimit limit) source).records =
    (((Binder.hear settings.aliases).told (Binder.writeHead settings limit).state
      source).filterMap Event.classStart?).map fun wrapper =>
        "INFO Wrapping class \"" ++ wrapper ++ "\"..."
  /-- All symbols start with `_`, and no other line goes on like that. -/
  emitted : Record.linesFrom "DEBUG emitted _"
      (generate settings (.ofLimit limit) source).records =
    written.map fun definition => "DEBUG emitted " ++ definition.2.symbol
  unclosed :
    (Binder.readTokens settings limit (Token.lex source).tokens).error = none ∧
      Token.EndsInComment source →
    Record.linesFrom "WARN " (generate settings (.ofLimit limit) source).records =
      ["WARN input ends inside an unterminated /* comment"]
  closed :
    ¬ ((Binder.readTokens settings limit (Token.lex source).tokens).error = none ∧
      Token.EndsInComment source) →
    Record.linesFrom "WARN " (generate settings (.ofLimit limit) source).records = []

/-- The lines say what the records tell. -/
theorem LogTells.linesTell {written : List (String × Glue.Function)}
    {pending : Option (String × Glue.Function)}
    (h : LogTells settings limit source written pending) :
    LinesTell settings limit source written := by
  have hsymbol : ∀ symbol,
      .emitted symbol ∈ (generate settings (.ofLimit limit) source).records →
        symbol.startsWith "_" = true := by
    intro symbol hmem
    have hwritten : symbol ∈ written.map fun definition => definition.2.symbol := by
      rw [← h.emitted]
      exact List.mem_filterMap.2 ⟨_, hmem, rfl⟩
    have hregistered :
        symbol ∈ (generate settings (.ofLimit limit) source).state.registry.symbols := by
      rw [h.registered, List.map_append]
      exact List.mem_append_left _ hwritten
    obtain ⟨declaration, -, rfl⟩ := List.mem_map.1 hregistered
    rw [String.startsWith_string_iff]
    simp [Glue.symbol]
  obtain ⟨before, hbefore, hrecords⟩ := h.unclosed
  have hnone : before.filter (· = .unclosedComment) = [] := by
    rw [List.filter_eq_nil_iff]
    intro record hrecord heq
    exact hbefore (of_decide_eq_true heq ▸ hrecord)
  refine ⟨fun k => ?_, ?_, ?_, fun hends => ?_, fun hends => ?_⟩
  · rw [Record.linesFrom_trace, List.getElem?_map, h.fed]
    split
    · rw [Option.map_map]
      rfl
    · rfl
  · rw [Record.linesFrom_wrapping, h.wrapped]
  · rw [Record.linesFrom_emitted h.native hsymbol, h.emitted, List.map_map]
    rfl
  · obtain ⟨-, -, hrecords⟩ | ⟨hnot, -⟩ := hrecords
    · rw [Record.linesFrom_warn, hrecords, List.filter_append, hnone]
      rfl
    · exact absurd hends hnot
  · obtain ⟨hread, hinside, -⟩ | ⟨-, hrecords⟩ := hrecords
    · exact absurd ⟨hread, hinside⟩ hends
    · rw [Record.linesFrom_warn, hrecords, hnone]
      rfl

/-- Of what is logged behind the tokens nothing is about a token, a class or a definition. -/
theorem logTells_of_accounts {written : List (String × Glue.Function)}
    {pending : Option (String × Glue.Function)}
    (hempty : (Binder.writeHead settings limit).state.registry.symbols = [])
    (haccounts : Binder.Accounts settings.aliases limit (Glue.prelude settings).toUTF8
      ⟨{}, (Binder.writeHead settings limit).state⟩ (Token.lex source).tokens written pending)
    {unclosed : Bool}
    (hunclosed : unclosed = true ↔
      (Binder.readTokens settings limit (Token.lex source).tokens).error = none ∧
        Token.EndsInComment source)
    (hrecords : (generate settings (.ofLimit limit) source).records =
      (Binder.readTokens settings limit (Token.lex source).tokens).records ++
        if unclosed then [.unclosedComment] else [])
    (hregistry : (generate settings (.ofLimit limit) source).state.registry =
      (Binder.readTokens settings limit (Token.lex source).tokens).state.listener.registry)
    (hbytes : ∃ more, (generate settings (.ofLimit limit) source).state.sink.bytes =
      Sink.cut limit ((Glue.prelude settings).toUTF8 ++
        Binder.glueOf (written ++ pending.toList) ++ more))
    (hfull : (Binder.readTokens settings limit (Token.lex source).tokens).error = some .sinkFull →
      (generate settings (.ofLimit limit) source).error = some .sinkFull) :
    LogTells settings limit source written pending := by
  have hbehind {β : Type} {find : Record → Option β} (hfind : find .unclosedComment = none) :
      (if unclosed then [Record.unclosedComment] else []).filterMap find = [] := by
    cases unclosed <;> simp [hfind]
  have hoverflows : ∀ definition ∈ pending, Sink.overflows limit
      ((Glue.prelude settings).toUTF8 ++ Binder.glueOf (written ++ [definition])) = true :=
    haccounts.overflows
  obtain ⟨more, hmore⟩ := hbytes
  refine ⟨fun k => ?_, ?_, ?_, haccounts.accepted_eq, ?_, ?_, ?_, fun definition hdefinition => ?_,
    haccounts.pending_iff, fun wrapper target hmem => ?_, ?_⟩
  · have hfed := Hearing.fed_records (Binder.filter_isFed_hear settings.aliases)
      ⟨{}, (Binder.writeHead settings limit).state⟩ (Token.lex source).tokens k
    have hrest : (if unclosed then [Record.unclosedComment] else []).filter Record.isFed = [] := by
      cases unclosed <;> rfl
    rw [hrecords, List.filter_append, hrest, List.append_nil]
    exact hfed
  · rw [hrecords]
    exact (Binder.wrapsBehindName_feedAll _ _ _).append (.of_filterMap_eq_nil (hbehind rfl))
  · have hwrapped := Hearing.filterMap_records (fun _ _ => rfl)
      (Binder.filterMap_wrapping?_hear settings.aliases)
      ⟨{}, (Binder.writeHead settings limit).state⟩ (Token.lex source).tokens
    rw [hrecords, List.filterMap_append, hbehind rfl, List.append_nil]
    exact hwrapped.trans (List.filterMap_eq_flatMap_toList _ _).symm
  · rw [hrecords, List.filterMap_append, hbehind rfl, List.append_nil]
    exact haccounts.emitted_eq
  · rw [hregistry]
    exact haccounts.symbols_eq.trans (by rw [hempty, List.nil_append])
  · rw [hmore, Binder.glueOf_append, ← ByteArray.append_assoc, ByteArray.append_assoc]
    exact Sink.exists_cut_append_eq haccounts.fits _
  · obtain rfl : pending = some definition := hdefinition
    have hover := hoverflows definition rfl
    refine ⟨?_, hover, hfull (haccounts.pending_iff.1 rfl)⟩
    rw [hmore]
    exact Sink.cut_append_of_overflows hover _
  · obtain ⟨sink, hhead, -⟩ := Binder.writeHead_eq settings limit
    have hnameless : Text.Unbroken (Binder.writeHead settings limit).state.names.wrapper := by
      rw [hhead]
      exact List.forall_mem_nil _
    have htokens : ∀ token ∈ (Token.lex source).tokens, Text.Unbroken token.text :=
      fun token htoken => (Token.lexable_of_mem_lex htoken).isBlank_eq_false
    rw [hrecords, List.mem_append] at hmem
    obtain hread | hbehind := hmem
    · exact Binder.unbroken_of_native_mem (h := ⟨{}, (Binder.writeHead settings limit).state⟩)
        hnameless htokens hread
    · cases unclosed <;> simp at hbehind
  · refine ⟨(Binder.readTokens settings limit (Token.lex source).tokens).records, ?_, ?_⟩
    · exact Binder.unclosedComment_notMem_feedAll _ _ _
    · cases unclosed with
      | true => exact .inl ⟨(hunclosed.1 rfl).1, (hunclosed.1 rfl).2, hrecords⟩
      | false =>
        refine .inr ⟨fun hends => Bool.false_ne_true (hunclosed.2 hends), ?_⟩
        rw [hrecords]
        exact List.append_nil _

/-- Nothing is logged if the head does not fit. Otherwise there is an account of the run, and its
log tells it. -/
theorem exists_logTells (settings : Settings) (limit : Option Nat) (source : String) :
    ((Binder.writeHead settings limit).error = some .sinkFull ∧
      (generate settings (.ofLimit limit) source).records = []) ∨
    ((Binder.writeHead settings limit).error = none ∧
      ∃ written pending, LogTells settings limit source written pending) := by
  cases hover : Sink.overflows limit (Glue.prelude settings).toUTF8 with
  | true =>
    obtain ⟨-, -, -, -, herror⟩ := Binder.writeHead_eq settings limit
    rw [hover, if_pos rfl] at herror
    rw [generate_of_head_error herror]
    exact .inl ⟨herror, Binder.records_writeLines _ _⟩
  | false =>
    obtain ⟨hhead, -, hempty⟩ := Binder.keeps_writeHead hover
    obtain ⟨written, pending, haccounts⟩ :=
      Binder.exists_accounts_readTokens hover (Token.lex source).tokens
    refine .inr ⟨hhead, written, pending, ?_⟩
    cases herror : (Binder.readTokens settings limit (Token.lex source).tokens).error with
    | some e =>
      have hgenerate := generate_of_read_error hhead herror
      have hclosed : false = true ↔
          (Binder.readTokens settings limit (Token.lex source).tokens).error = none ∧
            Token.EndsInComment source := by
        rw [herror]
        exact iff_of_false Bool.false_ne_true (by rintro ⟨⟨⟩, -⟩)
      refine logTells_of_accounts hempty haccounts hclosed ?_ ?_ ⟨.empty, ?_⟩ ?_
      · rw [hgenerate]
        exact (List.append_nil _).symm
      · rw [hgenerate]
        rfl
      · rw [hgenerate, ByteArray.append_empty]
        exact haccounts.keeps.bytes_eq
      · rw [hgenerate]
        exact id
    | none =>
      obtain ⟨hrecords, hregistry, hbytes⟩ := generate_of_read hhead herror haccounts.keeps
      refine logTells_of_accounts hempty haccounts ?_ hrecords hregistry hbytes ?_
      · rw [herror, Token.unclosed_iff_endsInComment]
        exact (and_iff_right rfl).symm
      · rw [herror]
        rintro ⟨⟩

/-- Nothing is logged if the head does not fit. Otherwise the log tells what has happened, in its
records and in its lines. -/
theorem generate_log (settings : Settings) (limit : Option Nat) (source : String) :
    ((Binder.writeHead settings limit).error = some .sinkFull ∧
      (generate settings (.ofLimit limit) source).records = []) ∨
    ((Binder.writeHead settings limit).error = none ∧
      ∃ written pending, LogTells settings limit source written pending ∧
        LinesTell settings limit source written) := by
  obtain ⟨hfails, hnothing⟩ | ⟨hfits, written, pending, htells⟩ :=
    exists_logTells settings limit source
  · exact .inl ⟨hfails, hnothing⟩
  · exact .inr ⟨hfits, written, pending, htells, htells.linesTell⟩

/-- A member without room for its glue is recorded, and not logged. -/
example :
    (generate { includes := [], usings := [] } (.ofLimit (some 100))
      "class A { void f() }").state.registry.symbols = ["_A_f"] ∧
    (generate { includes := [], usings := [] } (.ofLimit (some 100))
      "class A { void f() }").records.filterMap Record.emitted? = [] := by
  decide +kernel

end Generate

end LuaGlue
