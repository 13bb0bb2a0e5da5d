import Mathlib.Computability.Language
import LuaGlue.Proofs.Recognizer.Alike
import LuaGlue.Proofs.Recognizer.Persistence
import LuaGlue.Proofs.Recognizer.Steps

open Computability

namespace LuaGlue

namespace Event

/-- The starts of classes, each as a word of its own. -/
def starts : Language Event :=
  {es | ∃ name, es = [.classStart name]}

def namings : Language Event :=
  {es | ∃ name, es = [.nativeName name]}

def methods : Language Event :=
  {es | ∃ s, es = [.method s]}

def ctors : Language Event :=
  {es | ∃ s, es = [.ctor s]}

def ends : Language Event :=
  {[.classEnd]}

/-- A class without its end: its start, at most one native name, and declarations. -/
def unended : Language Event :=
  starts * (1 + namings) * (methods + ctors)∗

/-- All classes that are told in full, one after another. -/
def protocol : Language Event :=
  (starts * (1 + namings) * (methods + ctors)∗ * ends)∗

theorem classEnd_of_getLast?_protocol {es : List Event} (h : es ∈ protocol) :
    ∀ e ∈ es.getLast?, e = .classEnd := by
  obtain ⟨classes, rfl, hclasses⟩ := Language.mem_kstar.1 h
  induction classes using List.reverseRecOn with
  | nil => simp
  | append_singleton classes last ih =>
    obtain ⟨front, -, e, rfl, rfl⟩ := Language.mem_mul.1 (hclasses last (by simp))
    simp

theorem append_mem_protocol {es more : List Event} (h : es ∈ protocol)
    (hmore : more ∈ unended) : es ++ (more ++ [.classEnd]) ∈ protocol := by
  obtain ⟨classes, rfl, hclasses⟩ := Language.mem_kstar.1 h
  have hlast : more ++ [.classEnd] ∈ unended * ends := Language.append_mem_mul hmore rfl
  refine Language.mem_kstar.2 ⟨classes ++ [more ++ [.classEnd]], by simp, fun word hword => ?_⟩
  rcases List.mem_append.1 hword with hword | hword
  · exact hclasses word hword
  · rw [List.mem_singleton.1 hword]
    exact hlast

/-- The last event starts a class or gives it its native name. -/
def EndsInHead (es : List Event) : Prop :=
  (∃ name, es.getLast? = some (.classStart name)) ∨
    ∃ native, es.getLast? = some (.nativeName native)

theorem not_endsInHead_append {es : List Event} {e : Event}
    (he : e.isDeclaration = true ∨ e = .classEnd) : ¬ EndsInHead (es ++ [e]) := by
  rintro (⟨name, hlast⟩ | ⟨native, hlast⟩) <;>
  · rw [List.getLast?_concat, Option.some.injEq] at hlast
    subst e
    rcases he with he | he <;> cases he

theorem exists_getLast?_of_mem_unended {es : List Event} (h : es ∈ unended) :
    ∃ e, es.getLast? = some e ∧ e ≠ .classEnd := by
  obtain ⟨_, hhead, _, hbody, rfl⟩ := Language.mem_mul.1 h
  obtain ⟨members, rfl, hmembers⟩ := Language.mem_kstar.1 hbody
  induction members using List.reverseRecOn with
  | nil =>
    obtain ⟨_, ⟨name, rfl⟩, _, rfl | ⟨native, rfl⟩, rfl⟩ := Language.mem_mul.1 hhead
    · exact ⟨.classStart name, rfl, by simp⟩
    · exact ⟨.nativeName native, rfl, by simp⟩
  | append_singleton members last =>
    rw [List.flatten_append, ← List.append_assoc]
    rcases hmembers last (by simp) with ⟨s, rfl⟩ | ⟨s, rfl⟩
    · exact ⟨.method s, List.getLast?_concat, by simp⟩
    · exact ⟨.ctor s, List.getLast?_concat, by simp⟩

theorem append_mem_unended {es : List Event} (h : es ∈ unended) {e : Event}
    (he : e.isDeclaration = true) : es ++ [e] ∈ unended := by
  obtain ⟨head, hhead, declarations, hdeclarations, rfl⟩ := Language.mem_mul.1 h
  have hlast : [e] ∈ methods + ctors := by
    rw [Language.mem_add]
    cases e with
    | method s => exact .inl ⟨s, rfl⟩
    | ctor s => exact .inr ⟨s, rfl⟩
    | _ => cases he
  have hall : declarations ++ [e] ∈ (methods + ctors)∗ := by
    rw [← Language.one_add_kstar_mul_self_eq_kstar, Language.mem_add]
    exact .inr (Language.append_mem_mul hdeclarations hlast)
  rw [List.append_assoc]
  exact Language.append_mem_mul hhead hall

end Event

namespace Recognizer

open Event

/-- Where nothing is completed, no token leads out of a body. -/
theorem Moves.inBody {r after : Recognizer} {t : Token} (h : r.Moves t after)
    (hbody : r.place.InBody) : after.place.InBody := by
  cases h with
  | classKeyword hplace | bodyStart hplace | nativeNameStart hplace | passedOver hplace
  | nativeNameEnd hplace =>
    rw [hplace] at hbody
    exact hbody.elim
  | semicolon | staticKeyword | indirection | modifier => exact hbody
  | ctorKeyword | returns | name | paramsStart | param | comma => trivial

/-- A body is only entered by its opening brace. -/
theorem Moves.opens {r after : Recognizer} {t : Token} (h : r.Moves t after)
    (hbody : ¬ r.place.InBody) (hafter : after.place.InBody) :
    r.place = .classHead ∧ t = .punct '{' := by
  cases h with
  | bodyStart hplace htoken => exact ⟨hplace, htoken⟩
  | classKeyword | nativeNameStart | nativeNameEnd => exact hafter.elim
  | passedOver => exact absurd hafter hbody
  | semicolon hplace | staticKeyword hplace | ctorKeyword hplace | returns hplace
  | indirection hplace | name hplace | paramsStart hplace | param hplace | comma hplace
  | modifier hplace =>
    rw [hplace] at hbody
    exact absurd trivial hbody

/-- What has been taken of the class that is being read. A native name is only read once its class
is marked as renamed, so no second one can follow. -/
def Begun (r : Recognizer) (es : List Event) : Prop :=
  match r.place with
  | .outside | .className => es = []
  | .classHead => if r.renamed then es ∈ starts * namings else es ∈ starts
  | .nativeName => r.renamed = true ∧ es ∈ starts
  | .nativeNameEnd => r.renamed = true ∧ es ∈ starts * namings
  | .memberType | .memberName | .paramsOpen | .param | .paramEnd => es ∈ unended

variable {r after : Recognizer} {t : Token} {es : List Event}

theorem begun_iff_of_inBody (hbody : r.place.InBody) : r.Begun es ↔ es ∈ unended := by
  cases hplace : r.place with
  | outside | className | classHead | nativeName | nativeNameEnd =>
    rw [hplace] at hbody
    exact hbody.elim
  | _ => rw [Begun, hplace]

theorem mem_unended_of_starts (h : es ∈ starts) : es ∈ unended := by
  have hhead : es ++ [] ∈ starts * (1 + namings) := Language.append_mem_mul h (.inl rfl)
  have hbody := Language.append_mem_mul hhead (Language.nil_mem_kstar (methods + ctors))
  rwa [List.append_nil, List.append_nil] at hbody

theorem mem_unended_of_namings (h : es ∈ starts * namings) : es ∈ unended := by
  obtain ⟨start, hstart, naming, hnaming, rfl⟩ := Language.mem_mul.1 h
  have hhead : start ++ naming ∈ starts * (1 + namings) :=
    Language.append_mem_mul hstart (.inr hnaming)
  have hbody := Language.append_mem_mul hhead (Language.nil_mem_kstar (methods + ctors))
  rwa [List.append_nil] at hbody

theorem Begun.next (h : r.Begun es) (hmoves : r.Moves t after) : after.Begun es := by
  by_cases hbody : r.place.InBody
  -- In a body it only matters that no token leads out of it.
  · rw [begun_iff_of_inBody hbody] at h
    exact (begun_iff_of_inBody (hmoves.inBody hbody)).2 h
  cases hmoves with
  | classKeyword hplace =>
    rw [Begun, hplace] at h
    exact h
  | bodyStart hplace =>
    simp only [Begun, hplace] at h
    change es ∈ unended
    split at h
    · exact mem_unended_of_namings h
    · exact mem_unended_of_starts h
  | nativeNameStart hplace _ hplain =>
    simp only [Begun, hplace, hplain, Bool.false_eq_true, if_false] at h
    exact ⟨rfl, h⟩
  | passedOver => exact h
  | nativeNameEnd hplace =>
    rw [Begun, hplace] at h
    rw [Begun]
    exact (if_pos h.1).mpr h.2
  | semicolon hplace | staticKeyword hplace | ctorKeyword hplace | returns hplace
  | indirection hplace | name hplace | paramsStart hplace | param hplace | comma hplace
  | modifier hplace =>
    rw [hplace] at hbody
    exact absurd trivial hbody

/-- A native name is only taken behind the start of a class, and a declaration only in its body. The
end completes the class. -/
theorem Begun.accepted {accepted refused : Recognizer} {event : Event} (h : r.Begun es)
    (hstep : r.step t = .tell event accepted refused) :
    accepted.Begun (es ++ [event]) ∨
      event = .classEnd ∧ es ∈ unended ∧ accepted.place = .outside := by
  cases tells_of_step hstep with
  | classStart hplace =>
    rw [Begun, hplace] at h
    obtain rfl : es = [] := h
    exact .inl ⟨t.text, rfl⟩
  | nativeName hplace =>
    rw [Begun, hplace] at h
    exact .inl ⟨h.1, Language.append_mem_mul h.2 ⟨t.text, rfl⟩⟩
  | classEnd hplace =>
    rw [Begun, hplace] at h
    exact .inr ⟨rfl, h, rfl⟩
  | declaration hplace =>
    have hbody : r.place.InBody := by
      rcases hplace with hplace | hplace <;> rw [hplace] <;> trivial
    rw [begun_iff_of_inBody hbody] at h
    exact .inl (append_mem_unended h r.signature.isDeclaration_event)

/-- A refusal changes nothing but the declaration. -/
theorem Begun.refused {accepted refused : Recognizer} {event : Event} (h : r.Begun es)
    (hstep : r.step t = .tell event accepted refused) : refused.Begun es := by
  cases tells_of_step hstep with
  | classStart | nativeName | classEnd | declaration => exact h

/-- A listener has taken some classes in full, and of the next one what has been told by now. -/
def Heard (r : Recognizer) (es : List Event) : Prop :=
  ∃ whole ∈ protocol, ∃ begun, es = whole ++ begun ∧ r.Begun begun

theorem Heard.of_begun {whole : List Event} (hwhole : whole ∈ protocol) (h : r.Begun es) :
    r.Heard (whole ++ es) :=
  ⟨whole, hwhole, es, rfl, h⟩

theorem Heard.accepted {accepted refused : Recognizer} {event : Event} (h : r.Heard es)
    (hstep : r.step t = .tell event accepted refused) : accepted.Heard (es ++ [event]) := by
  obtain ⟨whole, hwhole, begun, rfl, hbegun⟩ := h
  rw [List.append_assoc]
  rcases hbegun.accepted hstep with hafter | ⟨rfl, hunended, hplace⟩
  · exact .of_begun hwhole hafter
  · have hprotocol := append_mem_protocol hwhole hunended
    have hempty : accepted.Begun [] := by simp only [Begun, hplace]
    have hheard := Heard.of_begun hprotocol hempty
    rwa [List.append_nil] at hheard

/-- A class that has begun can be completed. -/
theorem Begun.mem_unended (h : r.Begun es) :
    r.place.InClass ∧ es ∈ unended ∨ ¬ r.place.InClass ∧ es = [] := by
  cases hplace : r.place with
  | outside | className =>
    simp only [Begun, hplace] at h
    exact .inr ⟨id, h⟩
  | classHead =>
    simp only [Begun, hplace] at h
    split at h
    · exact .inl ⟨trivial, mem_unended_of_namings h⟩
    · exact .inl ⟨trivial, mem_unended_of_starts h⟩
  | nativeName =>
    simp only [Begun, hplace] at h
    exact .inl ⟨trivial, mem_unended_of_starts h.2⟩
  | nativeNameEnd =>
    simp only [Begun, hplace] at h
    exact .inl ⟨trivial, mem_unended_of_namings h.2⟩
  | memberType | memberName | paramsOpen | param | paramEnd =>
    simp only [Begun, hplace] at h
    exact .inl ⟨trivial, h⟩

theorem Heard.isPrefix (h : r.Heard es) : ∃ word ∈ protocol, es <+: word := by
  obtain ⟨whole, hwhole, begun, rfl, hbegun⟩ := h
  rcases hbegun.mem_unended with ⟨-, hunended⟩ | ⟨-, rfl⟩
  · have hword := append_mem_protocol hwhole hunended
    exact ⟨_, hword, [.classEnd], by rw [List.append_assoc]⟩
  · exact ⟨whole, hwhole, by rw [List.append_nil]⟩

/-- Only between two classes all classes have been told in full. -/
theorem Heard.mem_protocol_iff (h : r.Heard es) : es ∈ protocol ↔ ¬ r.place.InClass := by
  obtain ⟨whole, hwhole, begun, rfl, hbegun⟩ := h
  rcases hbegun.mem_unended with ⟨hclass, hunended⟩ | ⟨hclass, rfl⟩
  · obtain ⟨e, hlast, hne⟩ := exists_getLast?_of_mem_unended hunended
    refine iff_of_false (fun hword => ?_) (not_not_intro hclass)
    have hend := classEnd_of_getLast?_protocol hword e
    rw [List.getLast?_append, hlast] at hend
    exact hne (hend rfl)
  · rw [List.append_nil]
    exact iff_of_true hwhole hclass

/-- In the head of a class nothing but the head has been told of it. -/
theorem Heard.endsInHead (h : r.Heard es) (hclass : r.place.InClass) (hbody : ¬ r.place.InBody) :
    EndsInHead es := by
  obtain ⟨whole, -, begun, rfl, hbegun⟩ := h
  have hstarts : begun ∈ starts → EndsInHead (whole ++ begun) := by
    rintro ⟨name, rfl⟩
    exact .inl ⟨name, List.getLast?_concat⟩
  have hnamings : begun ∈ starts * namings → EndsInHead (whole ++ begun) := by
    intro hmem
    obtain ⟨start, -, _, ⟨native, rfl⟩, rfl⟩ := Language.mem_mul.1 hmem
    rw [← List.append_assoc]
    exact .inr ⟨native, List.getLast?_concat⟩
  cases hplace : r.place with
  | outside | className =>
    rw [hplace] at hclass
    exact hclass.elim
  | classHead =>
    simp only [Begun, hplace] at hbegun
    split at hbegun
    · exact hnamings hbegun
    · exact hstarts hbegun
  | nativeName =>
    simp only [Begun, hplace] at hbegun
    exact hstarts hbegun.2
  | nativeNameEnd =>
    simp only [Begun, hplace] at hbegun
    exact hnamings hbegun.2
  | memberType | memberName | paramsOpen | param | paramEnd =>
    rw [hplace] at hbody
    exact absurd trivial hbody

theorem Heard.not_endsInHead (h : r.Heard es) (hclass : ¬ r.place.InClass) : ¬ EndsInHead es := by
  have hword := h.mem_protocol_iff.2 hclass
  rintro (⟨name, hlast⟩ | ⟨native, hlast⟩)
  · cases classEnd_of_getLast?_protocol hword _ hlast
  · cases classEnd_of_getLast?_protocol hword _ hlast

end Recognizer

namespace Hearing

open Event

variable {σ : Type} (hear : Listener σ) {h : Hearing σ} {t : Token}

theorem heard_feed {es : List Event} (hheard : h.recognizer.Heard es) (t : Token) :
    (h.feed hear t).state.recognizer.Heard (es ++ (h.taken? hear t).toList) := by
  cases hstep : h.recognizer.step t with
  | next after =>
    obtain ⟨whole, hwhole, begun, rfl, hbegun⟩ := hheard
    rw [feed_of_next hstep, taken?_of_next hear hstep, Option.toList_none, List.append_nil]
    exact .of_begun hwhole (hbegun.next (Recognizer.moves_of_step hstep))
  | tell event accepted refused =>
    rw [feed_of_tell hstep, taken?_of_tell hear hstep]
    cases (hear h.listener event).error with
    | none => exact hheard.accepted hstep
    | some e =>
      obtain ⟨whole, hwhole, begun, rfl, hbegun⟩ := hheard
      have hafter := Recognizer.Heard.of_begun hwhole (hbegun.refused hstep)
      simpa using hafter
  | reject e =>
    rw [feed_of_reject hstep, taken?_of_reject hear hstep, Option.toList_none, List.append_nil]
    exact hheard

theorem heard_persist {es : List Event} (hheard : h.recognizer.Heard es) (tokens : List Token) :
    (h.persist hear tokens).recognizer.Heard (es ++ h.taken hear tokens) := by
  induction tokens generalizing h es with
  | nil => rwa [taken_nil, List.append_nil]
  | cons token rest ih =>
    rw [persist_cons, taken_cons, ← List.append_assoc]
    exact ih (heard_feed hear hheard token)

/-- The body of a class was opened, and since then neither a declaration nor the end of the class
has been taken. -/
def InFreshBody (h : Hearing σ) (tokens : List Token) : Prop :=
  ∃ before behind, tokens = before ++ .punct '{' :: behind ∧
    (h.persist hear before).recognizer.place = .classHead ∧
    ∀ e ∈ (h.persist hear before).taken hear (.punct '{' :: behind),
      e.isDeclaration = false ∧ e ≠ .classEnd

/-- In a body only declarations and the end of the class are told, and only the end leads out of
it. -/
theorem feed_of_inBody (hbody : h.recognizer.place.InBody) (t : Token) :
    (h.taken? hear t = none ∧ (h.feed hear t).state.recognizer.place.InBody) ∨
    ∃ e, h.taken? hear t = some e ∧ (e.isDeclaration = true ∨ e = .classEnd) := by
  cases hstep : h.recognizer.step t with
  | next after =>
    rw [feed_of_next hstep, taken?_of_next hear hstep]
    exact .inl ⟨rfl, (Recognizer.moves_of_step hstep).inBody hbody⟩
  | tell event accepted refused =>
    rw [feed_of_tell hstep, taken?_of_tell hear hstep]
    cases (hear h.listener event).error with
    | none =>
      refine .inr ⟨event, rfl, ?_⟩
      cases Recognizer.tells_of_step hstep with
      | classStart hplace | nativeName hplace =>
        rw [hplace] at hbody
        exact hbody.elim
      | classEnd => exact .inr rfl
      | declaration => exact .inl (Signature.isDeclaration_event _)
    | some e =>
      refine .inl ⟨rfl, ?_⟩
      cases Recognizer.tells_of_step hstep with
      | classStart | nativeName | classEnd | declaration => exact hbody
  | reject e =>
    rw [feed_of_reject hstep, taken?_of_reject hear hstep]
    exact .inl ⟨rfl, hbody⟩

/-- As long as neither a declaration nor the end of the class is taken in a body, nothing is. -/
theorem persist_of_inBody (hbody : h.recognizer.place.InBody) {tokens : List Token}
    (htaken : ∀ e ∈ h.taken hear tokens, e.isDeclaration = false ∧ e ≠ .classEnd) :
    h.taken hear tokens = [] ∧ (h.persist hear tokens).recognizer.place.InBody := by
  induction tokens generalizing h with
  | nil => exact ⟨rfl, hbody⟩
  | cons token rest ih =>
    rw [taken_cons] at htaken
    rcases feed_of_inBody hear hbody token with ⟨hnone, hafter⟩ | ⟨e, hsome, htold⟩
    · rw [hnone, Option.toList_none, List.nil_append] at htaken
      rw [taken_cons, persist_cons, hnone]
      exact ih hafter htaken
    · obtain ⟨hdeclaration, hend⟩ := htaken e (by simp [hsome])
      rcases htold with htrue | rfl
      · rw [hdeclaration] at htrue
        cases htrue
      · exact absurd rfl hend

/-- A body is only entered by its opening brace, and nothing is told there. -/
theorem opened_of_feed (hbody : ¬ h.recognizer.place.InBody)
    (hafter : (h.feed hear t).state.recognizer.place.InBody) :
    h.recognizer.place = .classHead ∧ t = .punct '{' ∧ h.taken? hear t = none := by
  cases hstep : h.recognizer.step t with
  | next after =>
    rw [feed_of_next hstep] at hafter
    obtain ⟨hplace, htoken⟩ := (Recognizer.moves_of_step hstep).opens hbody hafter
    exact ⟨hplace, htoken, taken?_of_next hear hstep⟩
  | tell event accepted refused =>
    have hplaces : ¬ accepted.place.InBody ∧ ¬ refused.place.InBody := by
      cases Recognizer.tells_of_step hstep with
      | classStart | nativeName | classEnd => exact ⟨id, hbody⟩
      | declaration hplace =>
        refine absurd ?_ hbody
        rcases hplace with hplace | hplace <;> rw [hplace] <;> trivial
    rw [feed_of_tell hstep] at hafter
    dsimp only at hafter
    split at hafter
    · exact absurd hafter hplaces.2
    · exact absurd hafter hplaces.1
  | reject e =>
    rw [feed_of_reject hstep] at hafter
    exact absurd hafter hbody

theorem InFreshBody.concat {tokens : List Token} (hfresh : h.InFreshBody hear tokens)
    (hnone : (h.persist hear tokens).taken? hear t = none) :
    h.InFreshBody hear (tokens ++ [t]) := by
  obtain ⟨before, behind, rfl, hplace, htaken⟩ := hfresh
  rw [persist_append] at hnone
  refine ⟨before, behind ++ [t], by simp, hplace, ?_⟩
  rwa [← List.cons_append, taken_append, taken_singleton, hnone, Option.toList_none,
    List.append_nil]

/-- In such a body everything was taken before it was opened. -/
theorem InFreshBody.exists_before {tokens : List Token} (hfresh : h.InFreshBody hear tokens) :
    ∃ before, (h.persist hear before).recognizer.place = .classHead ∧
      h.taken hear tokens = h.taken hear before ∧
      (h.persist hear tokens).recognizer.place.InBody := by
  obtain ⟨before, behind, rfl, hplace, htaken⟩ := hfresh
  have hstep : (h.persist hear before).recognizer.step (.punct '{') =
      .next { (h.persist hear before).recognizer with place := .memberType, signature := {} } := by
    rw [Recognizer.step_classHead hplace, if_pos rfl]
  rw [taken_cons, feed_of_next hstep, taken?_of_next hear hstep] at htaken
  obtain ⟨hnothing, hbody⟩ := persist_of_inBody hear (by trivial) htaken
  refine ⟨before, hplace, ?_, ?_⟩
  · rw [taken_append, taken_cons, feed_of_next hstep, taken?_of_next hear hstep, hnothing]
    exact List.append_nil _
  · rwa [persist_append, persist_cons, feed_of_next hstep]

/-- In a body nothing looks like the head of the class, so a head is the last that was taken if it
was taken before the body was opened and nothing was taken since then. -/
theorem endsInHead_iff_of_inBody {es : List Event} (hheard : h.recognizer.Heard es)
    (hstart : ¬ h.recognizer.place.InBody) {tokens : List Token}
    (hbody : (h.persist hear tokens).recognizer.place.InBody) :
    EndsInHead (es ++ h.taken hear tokens) ↔ h.InFreshBody hear tokens := by
  constructor
  · intro hends
    -- From the last token on, since the place before it says whether it opened the body.
    induction tokens using List.reverseRecOn with
    | nil => exact absurd hbody hstart
    | append_singleton tokens token ih =>
      rw [persist_append] at hbody
      rw [taken_append, taken_singleton, ← List.append_assoc] at hends
      by_cases hin : (h.persist hear tokens).recognizer.place.InBody
      · rcases feed_of_inBody hear hin token with ⟨hnone, -⟩ | ⟨e, hsome, htold⟩
        · rw [hnone, Option.toList_none, List.append_nil] at hends
          exact (ih hin hends).concat hear hnone
        · rw [hsome] at hends
          exact absurd hends (not_endsInHead_append htold)
      · obtain ⟨hplace, rfl, hnone⟩ := opened_of_feed hear hin hbody
        refine ⟨tokens, [], rfl, hplace, ?_⟩
        rw [taken_singleton, hnone]
        exact fun e he => absurd he List.not_mem_nil
  · intro hfresh
    obtain ⟨before, hplace, hsame, -⟩ := hfresh.exists_before
    rw [hsame]
    apply (heard_persist hear hheard before).endsInHead <;> rw [hplace] <;>
      simp [Place.InClass, Place.InBody]

/-- Whatever tokens are fed to a new recognizer and whichever events a listener refuses, errors
passed over: what the listener takes is always the beginning of some classes that are told one after
another. They are told in full exactly between two classes. The last event belongs to the head of a
class exactly in such a head and in a body in which nothing was declared yet. And a description may
end exactly outside of all classes. -/
theorem taken_protocol (s : σ) (tokens : List Token) :
    (∃ word ∈ protocol, taken hear ⟨{}, s⟩ tokens <+: word) ∧
    (taken hear ⟨{}, s⟩ tokens ∈ protocol ↔
      (persist hear ⟨{}, s⟩ tokens).recognizer.place = .outside ∨
      (persist hear ⟨{}, s⟩ tokens).recognizer.place = .className) ∧
    (EndsInHead (taken hear ⟨{}, s⟩ tokens) ↔
      (persist hear ⟨{}, s⟩ tokens).recognizer.place = .classHead ∨
      (persist hear ⟨{}, s⟩ tokens).recognizer.place = .nativeName ∨
      (persist hear ⟨{}, s⟩ tokens).recognizer.place = .nativeNameEnd ∨
      InFreshBody hear ⟨{}, s⟩ tokens) ∧
    ((persist hear ⟨{}, s⟩ tokens).finish.error = none ↔
      (persist hear ⟨{}, s⟩ tokens).recognizer.place = .outside) := by
  have hnew : ({} : Recognizer).Heard [] := .of_begun (Language.nil_mem_kstar _) rfl
  have hheard : (persist hear ⟨{}, s⟩ tokens).recognizer.Heard (taken hear ⟨{}, s⟩ tokens) :=
    heard_persist hear (h := ⟨{}, s⟩) hnew tokens
  refine ⟨hheard.isPrefix, ?_, ?_, Recognizer.finish?_eq_none_iff⟩
  · rw [hheard.mem_protocol_iff]
    cases (persist hear ⟨{}, s⟩ tokens).recognizer.place <;> simp [Place.InClass]
  · by_cases hbody : (persist hear ⟨{}, s⟩ tokens).recognizer.place.InBody
    · have hiff := endsInHead_iff_of_inBody hear (h := ⟨{}, s⟩) hnew id hbody
      rw [List.nil_append] at hiff
      rw [hiff]
      cases hplace : (persist hear ⟨{}, s⟩ tokens).recognizer.place <;>
        simp_all [Place.InBody]
    have hnot : ¬ InFreshBody hear ⟨{}, s⟩ tokens := by
      intro hfresh
      obtain ⟨-, -, -, hinside⟩ := hfresh.exists_before
      exact hbody hinside
    by_cases hclass : (persist hear ⟨{}, s⟩ tokens).recognizer.place.InClass
    · refine iff_of_true (hheard.endsInHead hclass hbody) ?_
      cases hplace : (persist hear ⟨{}, s⟩ tokens).recognizer.place <;>
        simp_all [Place.InBody, Place.InClass]
    · refine iff_of_false (hheard.not_endsInHead hclass) ?_
      cases hplace : (persist hear ⟨{}, s⟩ tokens).recognizer.place <;>
        simp_all [Place.InClass]

end Hearing

end LuaGlue
