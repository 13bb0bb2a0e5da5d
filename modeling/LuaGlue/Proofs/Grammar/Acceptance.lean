import LuaGlue.Proofs.Grammar.Reading
import LuaGlue.Proofs.Grammar.Unambiguous
import LuaGlue.Proofs.Recognizer.Steps
import LuaGlue.Proofs.Recognizer.Told

namespace LuaGlue.Grammar

/-- Between two classes. -/
def FileRest (ts : List Token) : Prop :=
  ∃ classes : List ClassDecl, ts = classes.flatMap ClassDecl.tokens

/-- In a body, where an item may start. -/
def BodyRest (ts : List Token) : Prop :=
  ∃ (items : List Item) (rest : List Token),
    ts = items.flatMap Item.tokens ++ .punct '}' :: rest ∧ FileRest rest

/-- Where a parameter may start. -/
def ParamRest (ts : List Token) : Prop :=
  ∃ (ps : ParamList) (rest : List Token), ts = ps.tokens ++ .punct ')' :: rest ∧ BodyRest rest

/-- Behind the first token of a parameter. -/
def ParamEndRest (ts : List Token) : Prop :=
  ∃ (modifiers : List Token) (more : List Param) (extraComma : Bool) (rest : List Token),
    ts = modifiers ++ more.flatMap ParamList.further ++
      (if extraComma then [.punct ','] else []) ++ .punct ')' :: rest ∧
    (∀ t ∈ modifiers, t ≠ .punct ',' ∧ t ≠ .punct ')') ∧ BodyRest rest

/-- Before the opening parenthesis. -/
def ParamsOpenRest (ts : List Token) : Prop :=
  ∃ rest, ts = .punct '(' :: rest ∧ ParamRest rest

/-- Behind the first token of a return type. -/
def MemberNameRest (ts : List Token) : Prop :=
  ∃ (indirections : List Token) (name : Token) (rest : List Token),
    ts = indirections ++ name :: rest ∧ (∀ t ∈ indirections, IsIndirection t) ∧
    ¬ IsIndirection name ∧ ParamsOpenRest rest

/-- Where a method must follow. -/
def StaticRest (ts : List Token) : Prop :=
  ∃ (n : Nat) (returns : Token) (rest : List Token),
    ts = List.replicate n (.word "static") ++ returns :: rest ∧ StartsType returns ∧
    MemberNameRest rest

/-- Before the body of a class that has its native name. -/
def RenamedRest (ts : List Token) : Prop :=
  ∃ skipped rest, ts = skipped ++ .punct '{' :: rest ∧ (∀ t ∈ skipped, IsPassedOver t) ∧
    BodyRest rest

/-- Behind the native name. -/
def NativeNameEndRest (ts : List Token) : Prop :=
  ∃ rest, ts = .punct ']' :: rest ∧ RenamedRest rest

/-- Before the native name. -/
def NativeNameRest (ts : List Token) : Prop :=
  ∃ name rest, ts = name :: rest ∧ NativeNameEndRest rest

/-- Before the body of a class that has no native name yet. -/
def ClassHeadRest (ts : List Token) : Prop :=
  ∃ (skipped : List Token) (given : Option NativeName) (rest : List Token),
    ts = skipped ++ given.toList.flatMap NativeName.tokens ++ .punct '{' :: rest ∧
    (∀ t ∈ skipped, IsPassedOver t) ∧ BodyRest rest

/-- Before the name of a class. -/
def ClassNameRest (ts : List Token) : Prop :=
  ∃ name rest, ts = name :: rest ∧ ClassHeadRest rest

/-- The tokens that may follow at the place of a recognizer, in terms of the parts of a tree that
are still missing. This holds of no tokens at the end of a run, and goes backwards through every
step. The flags of the recognizer matter where a class may be given a native name, and where
`static` was read. A native name is only read once its class is marked as renamed. -/
def Follows (r : Recognizer) (ts : List Token) : Prop :=
  match r.place with
  | .outside => FileRest ts
  | .className => ClassNameRest ts
  | .classHead => if r.renamed then RenamedRest ts else ClassHeadRest ts
  | .nativeName => r.renamed → NativeNameRest ts
  | .nativeNameEnd => r.renamed → NativeNameEndRest ts
  | .memberType => if r.signature.isStatic then StaticRest ts else BodyRest ts
  | .memberName => MemberNameRest ts
  | .paramsOpen => ParamsOpenRest ts
  | .param => ParamRest ts
  | .paramEnd => ParamEndRest ts

variable {t : Token} {ts : List Token}

theorem FileRest.cons (h : ClassNameRest ts) : FileRest (.word "class" :: ts) := by
  obtain ⟨name, _, rfl, skipped, given, _, rfl, hskipped, items, _, rfl, classes, rfl⟩ := h
  refine ⟨⟨name, skipped, given, items, hskipped⟩ :: classes, ?_⟩
  simp [ClassDecl.tokens]

theorem BodyRest.cons_item (item : Item) (h : BodyRest ts) : BodyRest (item.tokens ++ ts) := by
  obtain ⟨items, rest, rfl, hrest⟩ := h
  exact ⟨item :: items, rest, by simp, hrest⟩

theorem BodyRest.cons_ctor (h : ParamsOpenRest ts) : BodyRest (.word "ctor" :: ts) := by
  obtain ⟨_, rfl, ps, rest, rfl, hbody⟩ := h
  simpa [Item.tokens] using hbody.cons_item (.ctor ps)

theorem ParamRest.cons_close (h : BodyRest ts) : ParamRest (.punct ')' :: ts) :=
  ⟨.empty, ts, rfl, h⟩

theorem ParamRest.cons_head (ht : t ≠ .punct ')') (h : ParamEndRest ts) : ParamRest (t :: ts) := by
  obtain ⟨modifiers, more, extraComma, rest, rfl, hmodifiers, hbody⟩ := h
  refine ⟨.listed ⟨t, modifiers, ht, hmodifiers⟩ more extraComma, rest, ?_, hbody⟩
  simp [ParamList.tokens, Param.tokens]

theorem ParamEndRest.cons_close (h : BodyRest ts) : ParamEndRest (.punct ')' :: ts) :=
  ⟨[], [], false, ts, rfl, by simp, h⟩

/-- A comma is the extra one exactly if the parameters end behind it. -/
theorem ParamEndRest.cons_comma (h : ParamRest ts) : ParamEndRest (.punct ',' :: ts) := by
  obtain ⟨ps, rest, rfl, hbody⟩ := h
  cases ps with
  | empty => exact ⟨[], [], true, rest, rfl, by simp, hbody⟩
  | listed first more extraComma =>
    refine ⟨[], first :: more, extraComma, rest, ?_, by simp, hbody⟩
    simp [ParamList.tokens, ParamList.further]

theorem ParamEndRest.cons_modifier (ht : t ≠ .punct ',' ∧ t ≠ .punct ')') (h : ParamEndRest ts) :
    ParamEndRest (t :: ts) := by
  obtain ⟨modifiers, more, extraComma, rest, rfl, hmodifiers, hbody⟩ := h
  refine ⟨t :: modifiers, more, extraComma, rest, by simp, ?_, hbody⟩
  simpa [ht] using hmodifiers

theorem MemberNameRest.cons_indirection (ht : IsIndirection t) (h : MemberNameRest ts) :
    MemberNameRest (t :: ts) := by
  obtain ⟨indirections, name, rest, rfl, hindirections, hname⟩ := h
  refine ⟨t :: indirections, name, rest, rfl, ?_, hname⟩
  simpa [ht] using hindirections

theorem MemberNameRest.cons_name (ht : ¬ IsIndirection t) (h : ParamsOpenRest ts) :
    MemberNameRest (t :: ts) :=
  ⟨[], t, ts, rfl, by simp, ht, h⟩

theorem StaticRest.cons_static (h : StaticRest ts) : StaticRest (.word "static" :: ts) := by
  obtain ⟨n, returns, rest, rfl, hrest⟩ := h
  exact ⟨n + 1, returns, rest, rfl, hrest⟩

theorem StaticRest.cons_returns (ht : StartsType t) (h : MemberNameRest ts) :
    StaticRest (t :: ts) :=
  ⟨0, t, ts, rfl, ht, h⟩

theorem StaticRest.bodyRest (h : StaticRest ts) : BodyRest ts := by
  obtain ⟨n, returns, _, rfl, hreturns, indirections, name, _, rfl, hindirections, hname, _, rfl,
    ps, rest, rfl, hbody⟩ := h
  have h := hbody.cons_item
    (.method ⟨n, returns, indirections, name, ps, hreturns, hindirections, hname⟩)
  simpa [Item.tokens, Method.tokens] using h

theorem RenamedRest.cons_passedOver (ht : IsPassedOver t) (h : RenamedRest ts) :
    RenamedRest (t :: ts) := by
  obtain ⟨skipped, rest, rfl, hskipped, hbody⟩ := h
  exact ⟨t :: skipped, rest, rfl, by simpa [ht] using hskipped, hbody⟩

theorem ClassHeadRest.cons_passedOver (ht : IsPassedOver t) (h : ClassHeadRest ts) :
    ClassHeadRest (t :: ts) := by
  obtain ⟨skipped, given, rest, rfl, hskipped, hbody⟩ := h
  exact ⟨t :: skipped, given, rest, rfl, by simpa [ht] using hskipped, hbody⟩

theorem ClassHeadRest.cons_native (h : NativeNameRest ts) : ClassHeadRest (.punct '[' :: ts) := by
  obtain ⟨name, _, rfl, _, rfl, skipped, rest, rfl, hskipped, hbody⟩ := h
  refine ⟨[], some ⟨name, skipped, hskipped⟩, rest, ?_, by simp, hbody⟩
  simp [NativeName.tokens]

variable {r after : Recognizer}

private theorem Follows.of_moves (hmoves : r.Moves t after) (h : Follows after ts) :
    Follows r (t :: ts) := by
  cases hmoves with
  | classKeyword hplace htoken =>
    subst htoken
    simp only [Follows, hplace]
    exact FileRest.cons h
  | bodyStart hplace htoken =>
    subst htoken
    have hbody : BodyRest ts := h
    simp only [Follows, hplace]
    split
    · exact ⟨[], ts, rfl, by simp, hbody⟩
    · exact ⟨[], none, ts, rfl, by simp, hbody⟩
  | nativeNameStart hplace htoken hrenamed =>
    subst htoken
    simp only [Follows, hplace, hrenamed, Bool.false_eq_true, if_false]
    exact ClassHeadRest.cons_native (h rfl)
  | passedOver hplace hbody hnative =>
    simp only [Follows, hplace] at h ⊢
    split at h
    · rw [if_pos ‹_›]
      exact h.cons_passedOver ⟨hbody, hnative⟩
    · rw [if_neg ‹_›]
      exact h.cons_passedOver ⟨hbody, hnative⟩
  | nativeNameEnd hplace htoken =>
    subst htoken
    simp only [Follows, hplace]
    intro hrenamed
    simp only [Follows, hrenamed, if_true] at h
    exact ⟨ts, rfl, h⟩
  | semicolon hplace htoken hstatic =>
    subst htoken
    simp only [Follows, hplace, hstatic, Bool.false_eq_true, if_false] at h ⊢
    exact h.cons_item .semicolon
  | staticKeyword hplace htoken =>
    subst htoken
    simp only [Follows, hplace, if_true] at h ⊢
    split
    · exact h.cons_static
    · exact h.cons_static.bodyRest
  | ctorKeyword hplace htoken hstatic =>
    subst htoken
    simp only [Follows, hplace, hstatic, Bool.false_eq_true, if_false]
    exact BodyRest.cons_ctor h
  | returns hplace hend hsemicolon hstatic hctor =>
    have hreturns : StaticRest (t :: ts) :=
      StaticRest.cons_returns ⟨hend, hsemicolon, hstatic, hctor⟩ h
    simp only [Follows, hplace]
    split
    · exact hreturns
    · exact hreturns.bodyRest
  | indirection hplace htoken =>
    simp only [Follows, hplace] at h ⊢
    exact h.cons_indirection htoken
  | name hplace hpointer hreference =>
    simp only [Follows, hplace]
    exact MemberNameRest.cons_name (not_or.mpr ⟨hpointer, hreference⟩) h
  | paramsStart hplace htoken =>
    subst htoken
    simp only [Follows, hplace]
    exact ⟨ts, rfl, h⟩
  | param hplace hend =>
    simp only [Follows, hplace]
    exact ParamRest.cons_head hend h
  | comma hplace htoken =>
    subst htoken
    simp only [Follows, hplace]
    exact ParamEndRest.cons_comma h
  | modifier hplace hcomma hend =>
    simp only [Follows, hplace] at h ⊢
    exact h.cons_modifier ⟨hcomma, hend⟩

private theorem Follows.of_tells {event : Event} {refused : Recognizer}
    (htells : r.Tells t event after refused) (h : Follows after ts) : Follows r (t :: ts) := by
  cases htells with
  | classStart hplace =>
    simp only [Follows, hplace]
    exact ⟨t, ts, rfl, h⟩
  | nativeName hplace =>
    simp only [Follows, hplace]
    exact fun hrenamed => ⟨t, ts, rfl, h hrenamed⟩
  | classEnd hplace hstatic htoken =>
    subst htoken
    simp only [Follows, hplace, hstatic, Bool.false_eq_true, if_false]
    exact ⟨[], ts, rfl, h⟩
  | declaration hplace htoken =>
    subst htoken
    rcases hplace with hplace | hplace
    · simp only [Follows, hplace]
      exact ParamRest.cons_close h
    · simp only [Follows, hplace]
      exact ParamEndRest.cons_close h

/-- What may follow behind a token that is taken, may follow at the token, so it goes backwards
through a whole run. -/
theorem Follows.of_reads {r last : Recognizer} {es : List Event} (h : r.Reads ts es last)
    (hlast : last.place = .outside) : Follows r ts := by
  induction h with
  | nil r =>
    simp only [Follows, hlast]
    exact ⟨[], rfl⟩
  | next hstep _ ih => exact .of_moves (Recognizer.moves_of_step hstep) (ih hlast)
  | tell hstep _ ih => exact .of_tells (Recognizer.tells_of_step hstep) (ih hlast)

end LuaGlue.Grammar

namespace LuaGlue.Listener

open Grammar

/-- A description that is read without an error has a tree, and the events of the tree are told. -/
theorem exists_tree_of_run {σ : Type} {hear : Listener σ} {s : σ} {source : String}
    (h : (hear.run s source).error = none) :
    ∃ classes : List ClassDecl, classes.flatMap ClassDecl.tokens = (Token.lex source).tokens ∧
      hear.told s source = classes.flatMap ClassDecl.events := by
  obtain ⟨herror, -⟩ := run_eq hear s source
  obtain ⟨hfed, hfinish⟩ := Outcome.error_andThen_eq_none_iff.1 (herror.symm.trans h)
  obtain ⟨events, hreads⟩ := Hearing.exists_reads_of_feedAll hear hfed
  have hlast := Recognizer.finish?_eq_none_iff.1 hfinish
  obtain ⟨classes, hclasses⟩ := Follows.of_reads hreads hlast
  obtain ⟨last, -, htree⟩ := reads_classes (r := {}) classes rfl
  rw [← hclasses] at htree
  have hheard := (run_of_tree hear hclasses.symm s).1
  exact ⟨classes, hclasses.symm, Hearing.told_of_reads hear htree (hheard.symm.trans h)⟩

end LuaGlue.Listener

namespace LuaGlue.Hearing

open Grammar

/-- Whatever a listener does that refuses nothing: tokens are taken up to the end of a description
exactly if they have a tree. The tree is the only one, and the listener has heard its events. -/
theorem accepts_iff_exists_tree {σ : Type} (hear : Listener σ) (haccepting : hear.Accepting)
    (s : σ) (tokens : List Token) :
    (((Hearing.feedAll hear ⟨{}, s⟩ tokens).andThen Hearing.finish).error = none ↔
      ∃ classes : List ClassDecl, classes.flatMap ClassDecl.tokens = tokens) ∧
    ∀ classes : List ClassDecl, classes.flatMap ClassDecl.tokens = tokens →
      (∀ others : List ClassDecl, others.flatMap ClassDecl.tokens = tokens → others = classes) ∧
      ((Hearing.feedAll hear ⟨{}, s⟩ tokens).andThen Hearing.finish).state.listener =
        (classes.flatMap ClassDecl.events).foldl (fun s event => (hear s event).state) s := by
  have hheard : ∀ classes : List ClassDecl, classes.flatMap ClassDecl.tokens = tokens →
      ((Hearing.feedAll hear ⟨{}, s⟩ tokens).andThen Hearing.finish).error = none ∧
      ((Hearing.feedAll hear ⟨{}, s⟩ tokens).andThen Hearing.finish).state.listener =
        (classes.flatMap ClassDecl.events).foldl (fun s event => (hear s event).state) s := by
    rintro classes rfl
    obtain ⟨last, hlast, hreads⟩ := reads_classes (r := {}) classes rfl
    obtain ⟨herror, hstate⟩ := finish_of_reads hear hreads hlast s
    exact ⟨herror.trans (haccepting.error_hearAll s _), hstate.trans (haccepting.state_hearAll s _)⟩
  constructor
  · constructor
    · intro h
      obtain ⟨hfed, hfinish⟩ := Outcome.error_andThen_eq_none_iff.1 h
      obtain ⟨events, hreads⟩ := exists_reads_of_feedAll hear hfed
      have hlast := Recognizer.finish?_eq_none_iff.1 hfinish
      obtain ⟨classes, hclasses⟩ := Follows.of_reads hreads hlast
      exact ⟨classes, hclasses.symm⟩
    · rintro ⟨classes, htokens⟩
      exact (hheard classes htokens).1
  · intro classes htokens
    refine ⟨?_, (hheard classes htokens).2⟩
    intro others hothers
    apply tokens_injective
    exact hothers.trans htokens.symm

/-- Stray tokens in the head, `static` twice, a parameter that starts with a comma and a comma
behind the last one are all part of a description. -/
theorem recorder_accepts_lenient_class :
    (Listener.recorder []).Accepting ∧
    ∃ c : ClassDecl,
      c.tokens = [.word "class", .word "W", .word "pub", .punct '[', .word "R", .punct ']',
        .word ":", .punct '{', .punct ';', .word "static", .word "static", .word "Foo", .punct '*',
        .word "&", .word "f", .punct '(', .punct ',', .word "int", .punct ',', .punct ')',
        .word "ctor", .punct '(', .punct ')', .punct '}'] ∧
      ((Hearing.feedAll (Listener.recorder []) ⟨{}, []⟩ c.tokens).andThen
        Hearing.finish).error = none ∧
      ((Hearing.feedAll (Listener.recorder []) ⟨{}, []⟩ c.tokens).andThen
          Hearing.finish).state.listener =
        [.classStart "W", .nativeName "R",
          .method { returns := "Foo*&", name := "f", params := [", int"], isStatic := true },
          .ctor { isCtor := true }, .classEnd] := by
  let m : Method :=
    { statics := 2
      returns := .word "Foo"
      indirections := [.punct '*', .word "&"]
      name := .word "f"
      params := .listed ⟨.punct ',', [.word "int"], by decide, by decide⟩ [] true
      returns_ok := by decide
      indirections_ok := by decide
      name_ok := by decide }
  let c : ClassDecl :=
    { name := .word "W"
      skipped := [.word "pub"]
      native := some ⟨.word "R", [.word ":"], by decide⟩
      items := [.semicolon, .method m, .ctor .empty]
      skipped_ok := by decide }
  have haccepting : (Listener.recorder []).Accepting := fun _ _ => rfl
  obtain ⟨haccepts, hheard⟩ :=
    accepts_iff_exists_tree (Listener.recorder []) haccepting [] c.tokens
  have htokens : [c].flatMap ClassDecl.tokens = c.tokens := List.flatMap_singleton _ _
  refine ⟨haccepting, c, by decide, haccepts.2 ⟨[c], htokens⟩, ?_⟩
  exact (hheard [c] htokens).2.trans (by decide)

end LuaGlue.Hearing
