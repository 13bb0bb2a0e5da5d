import LuaGlue.Proofs.Recognizer.Restart
import LuaGlue.Proofs.Token.Layout

namespace LuaGlue

/-- A constructor is neither static nor has it a name or a return type. -/
def Signature.Coherent (s : Signature) : Prop :=
  s.isCtor = true → s.isStatic = false ∧ s.name = "" ∧ s.returns = ""

/-- None of the parameter types is empty. -/
def Signature.ParamsFilled (s : Signature) : Prop :=
  ∀ type ∈ s.params, type ≠ ""

/-- What is told as a method or as a constructor is one. -/
def Event.Coherent : Event → Prop
  | .method s => s.isCtor = false
  | .ctor s => s.isCtor = true ∧ s.isStatic = false ∧ s.name = "" ∧ s.returns = ""
  | .classStart _ | .nativeName _ | .classEnd => True

/-- Nothing is missing from what is told of a declaration. -/
def Event.Complete : Event → Prop
  | .method s => s.name ≠ "" ∧ s.returns ≠ "" ∧ s.ParamsFilled
  | .ctor s => s.ParamsFilled
  | .classStart _ | .nativeName _ | .classEnd => True

theorem Signature.Coherent.event {s : Signature} (h : s.Coherent) : s.event.Coherent := by
  unfold Signature.event
  split
  · rename_i hctor
    exact ⟨hctor, h hctor⟩
  · rename_i hmethod
    exact Bool.eq_false_iff.2 hmethod

/-- Every signature with a parameter has a last one. -/
theorem Signature.exists_addParam {s : Signature} (h : s.params ≠ []) :
    ∃ before last, s = addParam before last := by
  refine ⟨{ s with params := s.params.dropLast }, s.params.getLast h, ?_⟩
  simp only [addParam, List.dropLast_concat_getLast]

theorem Signature.params_addParam_ne_nil (s : Signature) (type : String) :
    (s.addParam type).params ≠ [] :=
  List.concat_ne_nil type s.params

theorem Signature.paramsFilled_addParam_iff {s : Signature} {type : String} :
    (s.addParam type).ParamsFilled ↔ s.ParamsFilled ∧ type ≠ "" := by
  rw [ParamsFilled, addParam, List.forall_mem_append, List.forall_mem_singleton]
  rfl

/-- Behind the name of a method or the keyword of a constructor. -/
def Place.InParams : Place → Prop
  | paramsOpen | param | paramEnd => True
  | outside | className | classHead | nativeName | nativeNameEnd | memberType | memberName => False

namespace Recognizer

/-- What is collected is coherent, and where a name is still missing it is that of a method. One
signature is filled in for constructors and methods alike, and it may be given up on the way. -/
structure Coherent (r : Recognizer) : Prop where
  tidy : r.Tidy
  signature : r.signature.Coherent
  memberName : r.place = .memberName → r.signature.isCtor = false

/-- What has been collected of a declaration is not empty, as far as it has been read. -/
structure Filled (r : Recognizer) : Prop where
  tidy : r.Tidy
  returns : r.place = .memberName → r.signature.returns ≠ ""
  method : r.place.InParams → r.signature.isCtor = false →
    r.signature.name ≠ "" ∧ r.signature.returns ≠ ""
  params : r.signature.ParamsFilled
  last : r.place = .paramEnd → r.signature.params ≠ []

variable {r after accepted refused : Recognizer} {t : Token} {event : Event}

theorem Coherent.of_isCtor (htidy : r.Tidy) (h : r.signature.isCtor = false) : r.Coherent := by
  refine ⟨htidy, fun hctor => ?_, fun _ => h⟩
  rw [h] at hctor
  cases hctor

theorem Coherent.next (h : r.Coherent) (hmoves : r.Moves t after) : after.Coherent := by
  have htidy := h.tidy.next hmoves
  cases hmoves with
  | classKeyword | nativeNameStart | nativeNameEnd | paramsStart | comma =>
    exact ⟨htidy, h.signature, nofun⟩
  | passedOver | semicolon => exact h
  | bodyStart => exact .of_isCtor htidy rfl
  | staticKeyword hplace | returns hplace =>
    refine .of_isCtor htidy ?_
    exact congrArg Signature.isCtor (h.tidy.signature_start hplace)
  | ctorKeyword hplace _ hstatic =>
    refine ⟨htidy, fun _ => ⟨hstatic, ?_, ?_⟩, nofun⟩
    · exact congrArg Signature.name (h.tidy.signature_start hplace)
    · exact congrArg Signature.returns (h.tidy.signature_start hplace)
  | indirection hplace | name hplace => exact .of_isCtor htidy (h.memberName hplace)
  | param => exact ⟨htidy, h.signature, nofun⟩
  | modifier => exact ⟨htidy, h.signature, h.memberName⟩

theorem Coherent.tell (h : r.Coherent) (htells : r.Tells t event accepted refused) :
    event.Coherent ∧ accepted.Coherent ∧ refused.Coherent := by
  obtain ⟨haccepted, hrefused⟩ := h.tidy.tell htells
  cases htells with
  | classStart | nativeName | classEnd =>
    exact ⟨trivial, ⟨haccepted, h.signature, nofun⟩, h⟩
  | declaration =>
    exact ⟨h.signature.event, .of_isCtor haccepted rfl, .of_isCtor hrefused rfl⟩

/-- Before a declaration nothing of it can be missing. -/
theorem Filled.of_not_inParams (htidy : r.Tidy) (hname : r.place ≠ .memberName)
    (hnot : ¬ r.place.InParams) (hparams : r.signature.ParamsFilled) : r.Filled where
  tidy := htidy
  returns hplace := absurd hplace hname
  method hplace := absurd hplace hnot
  params := hparams
  last hplace := absurd (by rw [hplace]; trivial) hnot

theorem Filled.next (h : r.Filled) (ht : t.text ≠ "") (hmoves : r.Moves t after) :
    after.Filled := by
  have htidy := h.tidy.next hmoves
  cases hmoves with
  | classKeyword | nativeNameStart | nativeNameEnd =>
    exact .of_not_inParams htidy nofun id h.params
  | passedOver | semicolon => exact h
  | bodyStart => exact .of_not_inParams htidy nofun id (List.forall_mem_nil _)
  | staticKeyword hplace =>
    exact .of_not_inParams htidy (by rw [hplace]; decide) (by rw [hplace]; exact id) h.params
  | ctorKeyword => exact ⟨htidy, nofun, nofun, h.params, nofun⟩
  | returns => exact ⟨htidy, fun _ => ht, nofun, h.params, nofun⟩
  | indirection hplace htoken =>
    have hreturns : r.signature.returns ++ t.text ≠ "" := by
      rw [Ne, String.append_eq_empty_iff]
      exact fun hempty => ht hempty.2
    exact ⟨htidy, fun _ => hreturns, by rw [hplace]; exact nofun, h.params,
      by rw [hplace]; exact nofun⟩
  | name hplace => exact ⟨htidy, nofun, fun _ _ => ⟨ht, h.returns hplace⟩, h.params, nofun⟩
  | paramsStart hplace | comma hplace =>
    have hmethod := h.method (by rw [hplace]; trivial)
    exact ⟨htidy, nofun, fun _ => hmethod, h.params, nofun⟩
  | param hplace =>
    have hmethod := h.method (by rw [hplace]; trivial)
    have hparams := Signature.paramsFilled_addParam_iff.2 ⟨h.params, ht⟩
    exact ⟨htidy, nofun, fun _ => hmethod, hparams,
      fun _ => r.signature.params_addParam_ne_nil t.text⟩
  | modifier hplace =>
    obtain ⟨before, last, hsignature⟩ := Signature.exists_addParam (h.last hplace)
    have hparams := h.params
    have hmethod := h.method
    have htype : last ++ " " ++ t.text ≠ "" := by
      rw [Ne, String.append_eq_empty_iff]
      exact fun hempty => ht hempty.2
    rw [hsignature] at htidy hparams hmethod ⊢
    rw [Signature.decorate_addParam] at htidy ⊢
    refine ⟨htidy, by rw [hplace]; exact nofun, hmethod, ?_,
      fun _ => before.params_addParam_ne_nil _⟩
    exact Signature.paramsFilled_addParam_iff.2
      ⟨(Signature.paramsFilled_addParam_iff.1 hparams).1, htype⟩

/-- A declaration is handed over at the end of its parameters, when all of it has been read. -/
theorem Filled.tell (h : r.Filled) (htells : r.Tells t event accepted refused) :
    event.Complete ∧ accepted.Filled ∧ (event.isDeclaration = false → refused.Filled) := by
  obtain ⟨haccepted, -⟩ := h.tidy.tell htells
  cases htells with
  | classStart | nativeName | classEnd =>
    exact ⟨trivial, .of_not_inParams haccepted nofun id h.params, fun _ => h⟩
  | declaration hplace =>
    have hparams : r.place.InParams := by
      rcases hplace with hplace | hplace <;> rw [hplace] <;> trivial
    refine ⟨?_, .of_not_inParams haccepted nofun id (List.forall_mem_nil _), fun hnot => ?_⟩
    · unfold Signature.event
      split
      · exact h.params
      · rename_i hmethod
        obtain ⟨hname, hreturns⟩ := h.method hparams (Bool.eq_false_iff.2 hmethod)
        exact ⟨hname, hreturns, h.params⟩
    · rw [Signature.isDeclaration_event] at hnot
      cases hnot

end Recognizer

namespace Hearing

variable {σ : Type} (hear : Listener σ) {h : Hearing σ}

/-- While the tokens are fed, errors passed over, no declaration is refused. Other events may be. -/
def DeclarationsTaken (h : Hearing σ) (tokens : List Token) : Prop :=
  ∀ reply ∈ h.replies hear tokens, reply.told.any Event.isDeclaration = true → reply.error = none

theorem coherent_feed (hcoherent : h.recognizer.Coherent) (t : Token) :
    (∀ event ∈ (h.recognizer.step t).event?, event.Coherent) ∧
    (h.feed hear t).state.recognizer.Coherent := by
  cases hstep : h.recognizer.step t with
  | next after =>
    rw [feed_of_next hstep]
    exact ⟨nofun, hcoherent.next (Recognizer.moves_of_step hstep)⟩
  | tell event accepted refused =>
    obtain ⟨hevent, haccepted, hrefused⟩ := hcoherent.tell (Recognizer.tells_of_step hstep)
    rw [feed_of_tell hstep]
    refine ⟨fun told htold => Option.some.inj htold ▸ hevent, ?_⟩
    dsimp only
    split
    · exact hrefused
    · exact haccepted
  | reject e =>
    rw [feed_of_reject hstep]
    exact ⟨nofun, hcoherent⟩

theorem coherent_session (hcoherent : h.recognizer.Coherent) (tokens : List Token) :
    (∀ event ∈ h.toldAll hear tokens, event.Coherent) ∧
    (h.persist hear tokens).recognizer.Coherent := by
  induction tokens generalizing h with
  | nil => exact ⟨List.forall_mem_nil _, hcoherent⟩
  | cons token rest ih =>
    obtain ⟨htold, hfed⟩ := coherent_feed hear hcoherent token
    obtain ⟨hrest, hafter⟩ := ih hfed
    rw [toldAll_cons, List.forall_mem_append]
    exact ⟨⟨fun event hevent => htold event (Option.mem_toList.1 hevent), hrest⟩, hafter⟩

/-- Only the refusal of a declaration leaves a place without what was collected there. -/
theorem filled_feed (hfilled : h.recognizer.Filled) {t : Token} (ht : t.text ≠ "")
    (htaken : (h.recognizer.step t).event?.any Event.isDeclaration = true →
      (h.feed hear t).error = none) :
    (∀ event ∈ (h.recognizer.step t).event?, event.Complete) ∧
    (h.feed hear t).state.recognizer.Filled := by
  cases hstep : h.recognizer.step t with
  | next after =>
    rw [feed_of_next hstep]
    exact ⟨nofun, hfilled.next ht (Recognizer.moves_of_step hstep)⟩
  | tell event accepted refused =>
    obtain ⟨hevent, haccepted, hrefused⟩ := hfilled.tell (Recognizer.tells_of_step hstep)
    rw [hstep, feed_of_tell hstep] at htaken
    rw [feed_of_tell hstep]
    refine ⟨fun told htold => Option.some.inj htold ▸ hevent, ?_⟩
    dsimp only
    split
    · rename_i herror
      refine hrefused (Bool.eq_false_iff.2 fun hdeclaration => ?_)
      rw [htaken hdeclaration] at herror
      cases herror
    · exact haccepted
  | reject e =>
    rw [feed_of_reject hstep]
    exact ⟨nofun, hfilled⟩

theorem filled_session (hfilled : h.recognizer.Filled) {tokens : List Token}
    (htokens : ∀ t ∈ tokens, t.text ≠ "") (htaken : h.DeclarationsTaken hear tokens) :
    (∀ event ∈ h.toldAll hear tokens, event.Complete) ∧
    (h.persist hear tokens).recognizer.Filled := by
  induction tokens generalizing h with
  | nil => exact ⟨List.forall_mem_nil _, hfilled⟩
  | cons token rest ih =>
    obtain ⟨htoken, hrest⟩ := List.forall_mem_cons.1 htokens
    obtain ⟨hreply, hreplies⟩ := List.forall_mem_cons.1 htaken
    obtain ⟨htold, hfed⟩ := filled_feed hear hfilled htoken hreply
    obtain ⟨htoldRest, hafter⟩ := ih hfed hrest hreplies
    rw [toldAll_cons, List.forall_mem_append]
    exact ⟨⟨fun event hevent => htold event (Option.mem_toList.1 hevent), htoldRest⟩, hafter⟩

/-- Whatever tokens are fed to a new recognizer and whichever events a listener refuses, errors
passed over: what is told as a method is no constructor, what is told as a constructor is one, and
it is neither static nor has it a name or a return type. Where a declaration may start, nothing has
been collected of it but that it is static. If moreover no token is empty, as in every text, and no
declaration is refused, then methods have a name and a return type, no parameter type is empty, and
every modifier finds a parameter that it is joined to. -/
theorem declarations_coherent (s : σ) (tokens : List Token) :
    (∀ event ∈ toldAll hear ⟨{}, s⟩ tokens, event.Coherent) ∧
    ((persist hear ⟨{}, s⟩ tokens).recognizer.place = .memberType →
      ∃ isStatic, (persist hear ⟨{}, s⟩ tokens).recognizer.signature = { isStatic }) ∧
    ((∀ t ∈ tokens, t.text ≠ "") → DeclarationsTaken hear ⟨{}, s⟩ tokens →
      (∀ event ∈ toldAll hear ⟨{}, s⟩ tokens, event.Complete) ∧
      ((persist hear ⟨{}, s⟩ tokens).recognizer.place = .paramEnd →
        ∀ t, t ≠ .punct ',' → t ≠ .punct ')' → ∃ before last,
          (persist hear ⟨{}, s⟩ tokens).recognizer.signature = .addParam before last ∧
          (persist hear ⟨{}, s⟩ (tokens ++ [t])).recognizer.signature =
            .addParam before (last ++ " " ++ t.text))) ∧
    ∀ source, ∀ t ∈ (Token.lex source).tokens, t.text ≠ "" := by
  have htidy : ({} : Recognizer).Tidy := .of_not_inBody id rfl
  have hnew : ({} : Recognizer).Coherent := .of_isCtor htidy rfl
  obtain ⟨htold, hcoherent⟩ := coherent_session hear (h := ⟨{}, s⟩) hnew tokens
  refine ⟨htold, fun hplace => ⟨_, hcoherent.tidy.signature_start hplace⟩, ?_, ?_⟩
  · intro htokens htaken
    have hempty : ({} : Recognizer).Filled :=
      .of_not_inParams htidy nofun id (List.forall_mem_nil _)
    obtain ⟨hcomplete, hfilled⟩ := filled_session hear (h := ⟨{}, s⟩) hempty htokens htaken
    refine ⟨hcomplete, fun hplace t hcomma hend => ?_⟩
    obtain ⟨before, last, hsignature⟩ := Signature.exists_addParam (hfilled.last hplace)
    have hstep := Recognizer.step_paramEnd hplace t
    rw [if_neg hcomma, if_neg hend, hsignature, Signature.decorate_addParam] at hstep
    refine ⟨before, last, hsignature, ?_⟩
    rw [persist_append, persist_cons, feed_of_next hstep]
    rfl
  · intro source t ht
    exact (Token.lexable_of_mem_lex ht).text_ne_empty

/-- The start of a class is refused, but no declaration is. Behind a constructor there is a static
method, and the `*` belongs to its second parameter. -/
theorem declarations_coherent_refused_class :
    DeclarationsTaken (Listener.recorder [0]) ⟨{}, []⟩
      (Token.lex "class A B \x7b ctor() static void f(unsigned int, char").tokens ∧
    toldAll (Listener.recorder [0]) ⟨{}, []⟩
      (Token.lex "class A B \x7b ctor() static void f(unsigned int, char").tokens =
        [.classStart "A", .classStart "B", .ctor { isCtor := true }] ∧
    ∃ before last,
      (persist (Listener.recorder [0]) ⟨{}, []⟩
        (Token.lex "class A B \x7b ctor() static void f(unsigned int, char").tokens
        ).recognizer.signature = .addParam before last ∧
      (persist (Listener.recorder [0]) ⟨{}, []⟩
        ((Token.lex "class A B \x7b ctor() static void f(unsigned int, char").tokens ++
          [.punct '*'])
        ).recognizer.signature = .addParam before (last ++ " " ++ "*") := by
  have htaken : DeclarationsTaken (Listener.recorder [0]) ⟨{}, []⟩
      (Token.lex "class A B \x7b ctor() static void f(unsigned int, char").tokens := by
    unfold DeclarationsTaken
    decide +kernel
  obtain ⟨-, -, hcomplete, hlexed⟩ := declarations_coherent (Listener.recorder [0]) []
    (Token.lex "class A B \x7b ctor() static void f(unsigned int, char").tokens
  obtain ⟨-, hmodifier⟩ := hcomplete (hlexed _) htaken
  exact ⟨htaken, by decide +kernel,
    hmodifier (by decide +kernel) (.punct '*') (by decide) (by decide)⟩

end Hearing

end LuaGlue
