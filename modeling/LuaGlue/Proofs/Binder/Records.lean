import LuaGlue.Proofs.Binder.Calls
import LuaGlue.Proofs.Recognizer.Coherence
import LuaGlue.Proofs.Recognizer.Completion
import LuaGlue.Proofs.Recognizer.Log

namespace LuaGlue

theorem Signature.classStart?_event (s : Signature) : s.event.classStart? = none := by
  unfold Signature.event
  split <;> rfl

/-- A class is named by the token that starts it. -/
theorem Recognizer.Tells.text_of_classStart? {r accepted refused : Recognizer} {t : Token}
    {event : Event} (h : r.Tells t event accepted refused) {wrapper : String}
    (hstart : event.classStart? = some wrapper) : t.text = wrapper := by
  cases h with
  | classStart => exact Option.some.inj hstart
  | nativeName | classEnd => cases hstart
  | declaration =>
    rw [Signature.classStart?_event] at hstart
    cases hstart

namespace Binder

variable {aliases : AliasTable} {limit : Option Nat} {all : ByteArray} {b : Binder} {event : Event}

/-- A definition logs nothing but its symbol. -/
theorem eq_of_mem_records_define {member : String} {function : Glue.Function} {record : Record}
    (h : record ∈ (b.define member function).records) : record = .emitted function.symbol := by
  cases hadd : b.registry.addMember b.names.wrapper member with
  | error e =>
    rw [define_of_error hadd] at h
    cases h
  | ok registry =>
    have hlines := records_writeLines { b with registry } function.lines
    rw [define_of_ok hadd] at h
    cases herror : ({ b with registry }.writeLines function.lines).error with
    | some e =>
      rw [Outcome.andThen_of_error herror, hlines] at h
      cases h
    | none =>
      rw [Outcome.andThen_of_error_eq_none herror, hlines] at h
      exact List.mem_singleton.1 h

theorem records_hear_classStart (aliases : AliasTable) (b : Binder) (wrapper : String) :
    (hear aliases b (.classStart wrapper)).records = [.wrapping wrapper] := by
  rw [hear]
  split <;> rfl

/-- What a binder logs of an event that does not start a class. -/
theorem mem_records_hear {record : Record} (h : record ∈ (hear aliases b event).records) :
    (∃ wrapper, event = .classStart wrapper ∧ record = .wrapping wrapper) ∨
    (∃ native, record = .native b.names.wrapper native) ∨ ∃ symbol, record = .emitted symbol := by
  cases event with
  | classStart wrapper =>
    rw [records_hear_classStart, List.mem_singleton] at h
    exact .inl ⟨wrapper, rfl, h⟩
  | nativeName native => exact .inr (.inl ⟨native, List.mem_singleton.1 h⟩)
  | method s => exact .inr (.inr ⟨_, eq_of_mem_records_define h⟩)
  | ctor s => exact .inr (.inr ⟨_, eq_of_mem_records_define h⟩)
  | classEnd => cases h

theorem filter_isFed_hear (aliases : AliasTable) (b : Binder) (event : Event) :
    (hear aliases b event).records.filter Record.isFed = [] := by
  refine List.filter_eq_nil_iff.2 fun record hrecord => ?_
  rcases mem_records_hear hrecord with ⟨_, -, rfl⟩ | ⟨_, rfl⟩ | ⟨_, rfl⟩ <;>
    exact Bool.false_ne_true

theorem filterMap_wrapping?_hear (aliases : AliasTable) (b : Binder) (event : Event) :
    (hear aliases b event).records.filterMap Record.wrapping? = event.classStart?.toList := by
  cases event with
  | classStart wrapper =>
    rw [records_hear_classStart]
    rfl
  | nativeName | method | ctor | classEnd =>
    refine List.filterMap_eq_nil_iff.2 fun record hrecord => ?_
    rcases mem_records_hear hrecord with ⟨_, hstart, -⟩ | ⟨_, rfl⟩ | ⟨_, rfl⟩
    · cases hstart
    · rfl
    · rfl

end Binder

/-- Each attempt of a class stands directly behind the token of its name. -/
def Record.WrapsBehindName (records : List Record) : Prop :=
  ∀ front wrapper behind, records = front ++ .wrapping wrapper :: behind →
    ∃ before token, front = before ++ [.fed .className token] ∧ token.text = wrapper

namespace Record.WrapsBehindName

theorem append {first second : List Record} (hfirst : WrapsBehindName first)
    (hsecond : WrapsBehindName second) : WrapsBehindName (first ++ second) := by
  intro front wrapper behind hrecords
  rcases List.append_eq_append_iff.1 hrecords with ⟨more, rfl, hmore⟩ | ⟨more, rfl, hmore⟩
  · obtain ⟨before, token, rfl, htext⟩ := hsecond more wrapper behind hmore
    exact ⟨first ++ before, token, by rw [List.append_assoc], htext⟩
  · cases more with
    | nil =>
      obtain ⟨before, token, hnil, -⟩ := hsecond [] wrapper behind hmore.symm
      simp at hnil
    | cons record more =>
      obtain ⟨rfl, -⟩ := List.cons.inj hmore
      exact hfirst front wrapper more rfl

theorem of_filterMap_eq_nil {records : List Record}
    (h : records.filterMap Record.wrapping? = []) : WrapsBehindName records := by
  rintro front wrapper behind rfl
  simp [Record.wrapping?] at h

theorem behindName (token : Token) :
    WrapsBehindName [.fed .className token, .wrapping token.text] := by
  intro front wrapper behind hrecords
  cases front with
  | nil => cases hrecords
  | cons record front =>
    obtain ⟨rfl, hrest⟩ := List.cons.inj hrecords
    cases front with
    | nil =>
      obtain ⟨heq, -⟩ := List.cons.inj hrest
      exact ⟨[], token, rfl, Record.wrapping.inj heq⟩
    | cons record front =>
      obtain ⟨-, hnil⟩ := List.cons.inj hrest
      simp at hnil

end Record.WrapsBehindName

namespace Binder

theorem wrapsBehindName_feed (aliases : AliasTable) (h : Hearing Binder) (token : Token) :
    Record.WrapsBehindName (h.feed (hear aliases) token).records := by
  have hlogged : (h.feed (hear aliases) token).records.filterMap Record.wrapping? =
      (h.recognizer.step token).event?.toList.flatMap fun event => event.classStart?.toList := by
    rw [Hearing.records_feed, List.filterMap_cons_none rfl, List.filterMap_flatMap]
    simp only [filterMap_wrapping?_hear]
  cases hstep : h.recognizer.step token with
  | next after => exact .of_filterMap_eq_nil (by rw [hlogged, hstep]; rfl)
  | reject e => exact .of_filterMap_eq_nil (by rw [hlogged, hstep]; rfl)
  | tell event accepted refused =>
    rw [hstep] at hlogged
    cases Recognizer.tells_of_step hstep with
    | classStart hplace =>
      have hrecords : (h.feed (hear aliases) token).records =
          [.fed .className token, .wrapping token.text] := by
        rw [Hearing.feed_of_tell hstep, records_hear_classStart, hplace]
      rw [hrecords]
      exact .behindName token
    | nativeName | classEnd => exact .of_filterMap_eq_nil hlogged
    | declaration =>
      refine .of_filterMap_eq_nil (hlogged.trans ?_)
      simp [Step.event?, Signature.classStart?_event]

theorem wrapsBehindName_feedAll (aliases : AliasTable) (h : Hearing Binder)
    (tokens : List Token) : Record.WrapsBehindName (h.feedAll (hear aliases) tokens).records := by
  induction tokens generalizing h with
  | nil => exact .of_filterMap_eq_nil rfl
  | cons token rest ih =>
    have hfirst := wrapsBehindName_feed aliases h token
    cases herror : (h.feed (hear aliases) token).error with
    | some e => rwa [Hearing.feedAll_of_error herror]
    | none =>
      rw [Hearing.feedAll_of_error_eq_none herror]
      exact hfirst.append (ih _)

theorem names_define (b : Binder) (member : String) (function : Glue.Function) :
    (b.define member function).state.names = b.names := by
  cases hadd : b.registry.addMember b.names.wrapper member with
  | error e => rw [define_of_error hadd]
  | ok registry =>
    obtain ⟨sink, hstate⟩ := exists_state_define_of_ok hadd function
    rw [hstate]

/-- Only the start of a class changes which class is the current one. -/
theorem wrapper_hear (aliases : AliasTable) (b : Binder) (event : Event) :
    (hear aliases b event).state.names.wrapper = b.names.wrapper ∨
      event = .classStart (hear aliases b event).state.names.wrapper := by
  cases event with
  | classStart wrapper =>
    cases hadd : b.registry.addClass wrapper with
    | error e =>
      rw [hear_classStart_of_error aliases hadd]
      exact .inl rfl
    | ok registry =>
      rw [hear_classStart_of_ok aliases hadd]
      exact .inr rfl
  | method | ctor => exact .inl (congrArg _ (names_define b _ _))
  | nativeName | classEnd => exact .inl rfl

/-- The current class is named by a token, so its name is a word if the tokens are. -/
theorem unbroken_feed (aliases : AliasTable) {h : Hearing Binder} {token : Token}
    (hwrapper : Text.Unbroken h.listener.names.wrapper) (htoken : Text.Unbroken token.text) :
    Text.Unbroken (h.feed (hear aliases) token).state.listener.names.wrapper := by
  cases hstep : h.recognizer.step token with
  | next after => rwa [Hearing.feed_of_next hstep]
  | reject e => rwa [Hearing.feed_of_reject hstep]
  | tell event accepted refused =>
    rw [Hearing.feed_of_tell hstep]
    rcases wrapper_hear aliases h.listener event with hsame | hstart
    · exact hsame ▸ hwrapper
    · have hnamed := (Recognizer.tells_of_step hstep).text_of_classStart? (congrArg _ hstart)
      exact hnamed ▸ htoken

theorem unbroken_of_native_mem {h : Hearing Binder}
    (hwrapper : Text.Unbroken h.listener.names.wrapper) {tokens : List Token}
    (htokens : ∀ token ∈ tokens, Text.Unbroken token.text) {wrapper native : String}
    (hmem : .native wrapper native ∈ (h.feedAll (hear aliases) tokens).records) :
    Text.Unbroken wrapper := by
  induction tokens generalizing h with
  | nil => cases hmem
  | cons token rest ih =>
    have hfirst (hfed : .native wrapper native ∈ (h.feed (hear aliases) token).records) :
        Text.Unbroken wrapper := by
      rw [Hearing.records_feed, List.mem_cons, List.mem_flatMap] at hfed
      obtain hfed | ⟨event, -, hevent⟩ := hfed
      · cases hfed
      · rcases mem_records_hear hevent with ⟨_, -, heq⟩ | ⟨_, heq⟩ | ⟨_, heq⟩ <;> cases heq
        exact hwrapper
    cases herror : (h.feed (hear aliases) token).error with
    | some e =>
      rw [Hearing.feedAll_of_error herror] at hmem
      exact hfirst hmem
    | none =>
      rw [Hearing.feedAll_of_error_eq_none herror, List.mem_append] at hmem
      have hafter := unbroken_feed aliases hwrapper (htokens token List.mem_cons_self)
      exact hmem.elim hfirst (ih hafter fun t ht => htokens t (List.mem_cons_of_mem _ ht))

/-- A comment that is not closed is none of the business of a binder. -/
theorem unclosedComment_notMem_feedAll (aliases : AliasTable) (h : Hearing Binder)
    (tokens : List Token) : .unclosedComment ∉ (h.feedAll (hear aliases) tokens).records := by
  have hnone (b : Binder) (event : Event) :
      (hear aliases b event).records.filterMap (Option.guard (· = .unclosedComment)) = [] := by
    refine List.filterMap_eq_nil_iff.2 fun record hrecord => ?_
    rcases mem_records_hear hrecord with ⟨_, -, rfl⟩ | ⟨_, rfl⟩ | ⟨_, rfl⟩ <;> rfl
  have hfound := Hearing.filterMap_records (fun _ _ => rfl) hnone h tokens
  intro hmem
  have hguard : Option.guard (· = Record.unclosedComment) .unclosedComment =
      some .unclosedComment := rfl
  have hmem' := List.mem_filterMap.2 ⟨_, hmem, hguard⟩
  rw [hfound] at hmem'
  simp at hmem'

variable {aliases : AliasTable} {limit : Option Nat} {all : ByteArray} {b : Binder} {event : Event}

/-- The glue of an accepted definition has the symbol of its member. -/
theorem symbol_of_accepted? (hcoherent : event.Coherent) {member : String}
    {function : Glue.Function} (h : b.accepted? aliases event = some (member, function)) :
    function.symbol = Glue.symbol b.names.wrapper member := by
  have hdefinition : event.definition? aliases b.names = some (member, function) :=
    (Option.filter_eq_some_iff.1 h).1
  cases event with
  | method s =>
    obtain ⟨rfl, rfl⟩ : s.memberName = member ∧ .ofMethod aliases b.names s = function := by
      simpa [Event.definition?] using hdefinition
    have hmethod : s.isCtor = false := hcoherent
    rw [Signature.memberName, hmethod]
    rfl
  | ctor s =>
    obtain ⟨rfl, rfl⟩ : Signature.ctorName = member ∧ .ofCtor aliases b.names s = function := by
      simpa [Event.definition?] using hdefinition
    rfl
  | classStart | nativeName | classEnd => cases hdefinition

/-- What one token adds to a binder that has written `all`: the definition that it completes, if it
completes one that is accepted. Without room for its glue the definition is recorded and not
logged. -/
structure Adds (aliases : AliasTable) (limit : Option Nat) (all : ByteArray) (h : Hearing Binder)
    (token : Token) (added : Option (String × Glue.Function)) : Prop where
  accepted_eq : ∀ events, h.listener.accepted aliases
      ((h.recognizer.step token).event?.toList ++ events) =
    added.toList ++ (h.feed (hear aliases) token).state.listener.accepted aliases events
  emitted_eq : (h.feed (hear aliases) token).records.filterMap Record.emitted? =
    if (h.feed (hear aliases) token).error = none then
      added.toList.map fun definition => definition.2.symbol
    else []
  symbols_eq : (h.feed (hear aliases) token).state.listener.registry.symbols =
    h.listener.registry.symbols ++ added.toList.map fun definition => definition.2.symbol
  keeps : Keeps limit (all ++ glueOf added.toList) (h.feed (hear aliases) token).state.listener
  overflows_iff : (h.feed (hear aliases) token).error = some .sinkFull ↔
    Sink.overflows limit (all ++ glueOf added.toList) = true
  refused : ∀ e, (h.feed (hear aliases) token).error = some e → e ≠ .sinkFull → added = none

section Adds

variable {h : Hearing Binder} {token : Token}

theorem append_glueOf_nil (all : ByteArray) : all ++ glueOf [] = all :=
  ByteArray.append_empty

/-- A token that completes no definition, or one that is not accepted. -/
theorem Adds.nothing (hkeeps : Keeps limit all (h.feed (hear aliases) token).state.listener)
    (hfits : Sink.overflows limit all = false)
    (haccepted : ∀ events, h.listener.accepted aliases
        ((h.recognizer.step token).event?.toList ++ events) =
      (h.feed (hear aliases) token).state.listener.accepted aliases events)
    (hemitted : (h.feed (hear aliases) token).records.filterMap Record.emitted? = [])
    (hdeclarations : (h.feed (hear aliases) token).state.listener.registry.declarations =
      h.listener.registry.declarations)
    (hfull : (h.feed (hear aliases) token).error ≠ some .sinkFull) :
    Adds aliases limit all h token none where
  accepted_eq := haccepted
  emitted_eq := by
    rw [hemitted]
    split <;> rfl
  symbols_eq := by
    rw [Registry.symbols, hdeclarations]
    exact (List.append_nil _).symm
  keeps := by
    rw [Option.toList_none, append_glueOf_nil]
    exact hkeeps
  overflows_iff := by
    rw [Option.toList_none, append_glueOf_nil, hfits]
    exact iff_of_false hfull Bool.false_ne_true
  refused := fun _ _ _ => rfl

/-- The listener answers to the event of a token. -/
theorem Keeps.adds_of_tell (hkeeps : Keeps limit all h.listener)
    (hfits : Sink.overflows limit all = false) {accepted refused : Recognizer}
    (hstep : h.recognizer.step token = .tell event accepted refused)
    (hcoherent : event.Coherent) : ∃ added, Adds aliases limit all h token added := by
  have htold (events : List Event) : h.listener.accepted aliases
      ((h.recognizer.step token).event?.toList ++ events) =
        (h.listener.accepted? aliases event).toList ++
          (h.feed (hear aliases) token).state.listener.accepted aliases events := by
    rw [Hearing.feed_of_tell hstep, hstep]
    rfl
  have hlogged : (h.feed (hear aliases) token).records.filterMap Record.emitted? =
      (hear aliases h.listener event).records.filterMap Record.emitted? := by
    rw [Hearing.feed_of_tell hstep]
    rfl
  have hstate : (h.feed (hear aliases) token).state.listener =
      (hear aliases h.listener event).state := by rw [Hearing.feed_of_tell hstep]
  have herror : (h.feed (hear aliases) token).error =
      (hear aliases h.listener event).error := by rw [Hearing.feed_of_tell hstep]
  cases hkeeps.answers aliases event with
  | @duplicate e hnone hsame hemitted hfails hduplicate =>
    refine ⟨none, .nothing ?_ hfits ?_ ?_ ?_ ?_⟩
    · rwa [hstate, hsame]
    · intro events
      rw [htold, hnone]
      rfl
    · rw [hlogged, hemitted]
    · rw [hstate, hsame]
    · rw [herror, hfails]
      rintro ⟨rfl⟩
      exact hduplicate
  | other hnone hafter hdeclarations hemitted hfails =>
    refine ⟨none, .nothing ?_ hfits ?_ ?_ ?_ ?_⟩
    · rwa [hstate]
    · intro events
      rw [htold, hnone]
      rfl
    · rw [hlogged, hemitted]
    · rw [hstate, hdeclarations]
    · rw [herror, hfails]
      rintro ⟨⟩
  | @defined member function hsome hafter hdeclarations hemitted hfails =>
    have hglue : glueOf [(member, function)] = function.text.toUTF8 := glueOf_singleton _
    refine ⟨some (member, function), fun events => ?_, ?_, ?_, ?_, ?_, ?_⟩
    · rw [htold, hsome]
    · rw [hlogged, hemitted, herror, hfails]
      cases Sink.overflows limit (all ++ function.text.toUTF8) <;> rfl
    · rw [hstate, Registry.symbols, hdeclarations, List.map_append, List.map_singleton,
        ← symbol_of_accepted? hcoherent hsome]
      rfl
    · rw [hstate, Option.toList_some, hglue]
      exact hafter
    · rw [herror, hfails, Option.toList_some, hglue]
      cases Sink.overflows limit (all ++ function.text.toUTF8) <;> simp
    · intro e hfull hne
      rw [herror, hfails] at hfull
      split at hfull
      · exact absurd (Option.some.inj hfull).symm hne
      · cases hfull

/-- The step of a run: each token adds a definition or nothing. -/
theorem Keeps.exists_adds (hkeeps : Keeps limit all h.listener)
    (hfits : Sink.overflows limit all = false) (hcoherent : h.recognizer.Coherent)
    (token : Token) : ∃ added, Adds aliases limit all h token added := by
  cases hstep : h.recognizer.step token with
  | next after =>
    refine ⟨none, .nothing ?_ hfits ?_ ?_ ?_ ?_⟩ <;> rw [Hearing.feed_of_next hstep]
    · exact hkeeps
    · rw [hstep]
      exact fun events => rfl
    · rfl
    · rintro ⟨⟩
  | reject e =>
    refine ⟨none, .nothing ?_ hfits ?_ ?_ ?_ ?_⟩ <;> rw [Hearing.feed_of_reject hstep]
    · exact hkeeps
    · rw [hstep]
      exact fun events => rfl
    · rfl
    · rintro ⟨rfl⟩
      rcases Recognizer.error_of_reject hstep with ⟨expected, hfull⟩ | hfull <;> cases hfull
  | tell event accepted refused =>
    obtain ⟨hevent, -⟩ := hcoherent.tell (Recognizer.tells_of_step hstep)
    exact hkeeps.adds_of_tell hfits hstep hevent

end Adds

/-- What is to be said of a binder that is fed some tokens, after it has written `all`: the
definitions in `written` were accepted and written, and behind them the one in `pending` was
accepted and did not fit. Only those that were written are logged. -/
structure Accounts (aliases : AliasTable) (limit : Option Nat) (all : ByteArray)
    (h : Hearing Binder) (tokens : List Token) (written : List (String × Glue.Function))
    (pending : Option (String × Glue.Function)) : Prop where
  accepted_eq : h.listener.accepted aliases (h.told (hear aliases) tokens) =
    written ++ pending.toList
  emitted_eq : (h.feedAll (hear aliases) tokens).records.filterMap Record.emitted? =
    written.map fun definition => definition.2.symbol
  symbols_eq : (h.feedAll (hear aliases) tokens).state.listener.registry.symbols =
    h.listener.registry.symbols ++
      (written ++ pending.toList).map fun definition => definition.2.symbol
  keeps : Keeps limit (all ++ glueOf (written ++ pending.toList))
    (h.feedAll (hear aliases) tokens).state.listener
  fits : Sink.overflows limit (all ++ glueOf written) = false
  overflows : ∀ definition ∈ pending,
    Sink.overflows limit (all ++ glueOf (written ++ [definition])) = true
  pending_iff : pending.isSome = true ↔
    (h.feedAll (hear aliases) tokens).error = some .sinkFull

namespace Accounts

variable {h : Hearing Binder} {token : Token} {rest : List Token}
  {added pending : Option (String × Glue.Function)} {written : List (String × Glue.Function)}

theorem nil (hkeeps : Keeps limit all h.listener) (hfits : Sink.overflows limit all = false) :
    Accounts aliases limit all h [] [] none := by
  rw [← append_glueOf_nil all] at hkeeps hfits
  refine ⟨rfl, rfl, (List.append_nil _).symm, hkeeps, hfits, ?_, iff_of_false ?_ ?_⟩
  · rintro definition ⟨⟩
  · exact Bool.false_ne_true
  · rintro ⟨⟩

/-- Nothing is read behind an error. What was added with it is still pending. -/
theorem of_error {e : Error} (herror : (h.feed (hear aliases) token).error = some e)
    (hfits : Sink.overflows limit all = false) (hadds : Adds aliases limit all h token added)
    (rest : List Token) : Accounts aliases limit all h (token :: rest) [] added := by
  have hfed := Hearing.feedAll_of_error herror rest
  have hfull : added.isSome = true ↔ (h.feed (hear aliases) token).error = some .sinkFull := by
    constructor
    · intro hsome
      by_contra hne
      have hnone := hadds.refused e herror fun heq => hne (heq ▸ herror)
      rw [hnone] at hsome
      cases hsome
    · intro hfull
      have hover := hadds.overflows_iff.1 hfull
      cases added with
      | none =>
        rw [Option.toList_none, append_glueOf_nil, hfits] at hover
        cases hover
      | some definition => rfl
  refine ⟨?_, ?_, ?_, ?_, ?_, fun definition hdefinition => ?_, ?_⟩
  · have haccepted := hadds.accepted_eq []
    rw [List.append_nil] at haccepted
    rw [Hearing.told_of_error herror, haccepted]
    exact List.append_nil _
  · rw [hfed, hadds.emitted_eq, herror, if_neg (by rintro ⟨⟩)]
    rfl
  · rw [hfed]
    exact hadds.symbols_eq
  · rw [hfed]
    exact hadds.keeps
  · rw [append_glueOf_nil, hfits]
  · obtain rfl : added = some definition := hdefinition
    exact hadds.overflows_iff.1 (hfull.1 rfl)
  · rw [hfed]
    exact hfull

/-- What a token without an error adds is written in front of what is written behind it. -/
theorem cons (hnone : (h.feed (hear aliases) token).error = none)
    (hadds : Adds aliases limit all h token added)
    (hrest : Accounts aliases limit (all ++ glueOf added.toList)
      (h.feed (hear aliases) token).state rest written pending) :
    Accounts aliases limit all h (token :: rest) (added.toList ++ written) pending := by
  have hfed := Hearing.feedAll_of_error_eq_none hnone rest
  have hall (definitions : List (String × Glue.Function)) :
      all ++ glueOf (added.toList ++ definitions) =
        all ++ glueOf added.toList ++ glueOf definitions := by
    rw [ByteArray.append_assoc, ← glueOf_append]
  refine ⟨?_, ?_, ?_, ?_, ?_, fun definition hdefinition => ?_, ?_⟩
  · rw [Hearing.told_of_error_eq_none hnone, hadds.accepted_eq, hrest.accepted_eq,
      List.append_assoc]
  · rw [hfed, List.filterMap_append, hadds.emitted_eq, if_pos hnone, hrest.emitted_eq,
      List.map_append]
  · rw [hfed, hrest.symbols_eq, hadds.symbols_eq, List.append_assoc, List.append_assoc]
    exact congrArg _ List.map_append.symm
  · rw [hfed, List.append_assoc, hall]
    exact hrest.keeps
  · rw [hall]
    exact hrest.fits
  · rw [List.append_assoc, hall]
    exact hrest.overflows definition hdefinition
  · rw [hfed]
    exact hrest.pending_iff

end Accounts

/-- Whatever tokens a binder is fed, there is an account of them. -/
theorem exists_accounts {h : Hearing Binder} (hkeeps : Keeps limit all h.listener)
    (hfits : Sink.overflows limit all = false) (hcoherent : h.recognizer.Coherent)
    (tokens : List Token) :
    ∃ written pending, Accounts aliases limit all h tokens written pending := by
  induction tokens generalizing h all with
  | nil => exact ⟨[], none, .nil hkeeps hfits⟩
  | cons token rest ih =>
    obtain ⟨added, hadds⟩ : ∃ added, Adds aliases limit all h token added :=
      hkeeps.exists_adds hfits hcoherent token
    cases herror : (h.feed (hear aliases) token).error with
    | some e => exact ⟨[], added, .of_error herror hfits hadds rest⟩
    | none =>
      have hfits' : Sink.overflows limit (all ++ glueOf added.toList) = false := by
        rw [Bool.eq_false_iff, Ne, ← hadds.overflows_iff, herror]
        rintro ⟨⟩
      obtain ⟨-, hafter⟩ := Hearing.coherent_feed (hear aliases) hcoherent token
      obtain ⟨written, pending, hrest⟩ := ih hadds.keeps hfits' hafter
      exact ⟨_, pending, .cons herror hadds hrest⟩

end Binder

end LuaGlue
