import LuaGlue.Recognizer

namespace LuaGlue.Recognizer

variable {r after accepted refused : Recognizer} {t : Token} {event : Event}

/-- The steps that complete nothing, each with where it is made, its token and what it leaves. What
every step keeps is shown by going through these, and through `Tells` where an event is told. -/
inductive Moves (r : Recognizer) (t : Token) : Recognizer → Prop where
  | classKeyword (hplace : r.place = .outside) (htoken : t = .word "class") :
      Moves r t { r with place := .className }
  | bodyStart (hplace : r.place = .classHead) (htoken : t = .punct '{') :
      Moves r t { r with place := .memberType, signature := {} }
  | nativeNameStart (hplace : r.place = .classHead) (htoken : t = .punct '[')
      (hrenamed : r.renamed = false) : Moves r t { r with place := .nativeName, renamed := true }
  | passedOver (hplace : r.place = .classHead) (hbody : t ≠ .punct '{')
      (hnative : t ≠ .punct '[') : Moves r t r
  | nativeNameEnd (hplace : r.place = .nativeNameEnd) (htoken : t = .punct ']') :
      Moves r t { r with place := .classHead }
  | semicolon (hplace : r.place = .memberType) (htoken : t = .punct ';')
      (hstatic : r.signature.isStatic = false) : Moves r t r
  | staticKeyword (hplace : r.place = .memberType) (htoken : t = .word "static") :
      Moves r t { r with signature.isStatic := true }
  | ctorKeyword (hplace : r.place = .memberType) (htoken : t = .word "ctor")
      (hstatic : r.signature.isStatic = false) :
      Moves r t { r with place := .paramsOpen, signature.isCtor := true }
  | returns (hplace : r.place = .memberType) (hend : t ≠ .punct '}') (hsemicolon : t ≠ .punct ';')
      (hstatic : t ≠ .word "static") (hctor : t ≠ .word "ctor") :
      Moves r t { r with place := .memberName, signature.returns := t.text }
  | indirection (hplace : r.place = .memberName) (htoken : t = .punct '*' ∨ t = .word "&") :
      Moves r t { r with signature.returns := r.signature.returns ++ t.text }
  | name (hplace : r.place = .memberName) (hpointer : t ≠ .punct '*')
      (hreference : t ≠ .word "&") :
      Moves r t { r with place := .paramsOpen, signature.name := t.text }
  | paramsStart (hplace : r.place = .paramsOpen) (htoken : t = .punct '(') :
      Moves r t { r with place := .param }
  | param (hplace : r.place = .param) (hend : t ≠ .punct ')') :
      Moves r t { r with place := .paramEnd, signature := r.signature.addParam t.text }
  | comma (hplace : r.place = .paramEnd) (htoken : t = .punct ',') :
      Moves r t { r with place := .param }
  | modifier (hplace : r.place = .paramEnd) (hcomma : t ≠ .punct ',') (hend : t ≠ .punct ')') :
      Moves r t { r with signature := r.signature.decorate t.text }

/-- The events that a step can tell, each with where it is told and what it leaves, taken or
refused. -/
inductive Tells (r : Recognizer) (t : Token) : Event → Recognizer → Recognizer → Prop where
  | classStart (hplace : r.place = .className) : Tells r t (.classStart t.text)
      { r with place := .classHead, className := t.text, renamed := false } r
  | nativeName (hplace : r.place = .nativeName) :
      Tells r t (.nativeName t.text) { r with place := .nativeNameEnd } r
  | classEnd (hplace : r.place = .memberType) (hstatic : r.signature.isStatic = false)
      (htoken : t = .punct '}') : Tells r t .classEnd { r with place := .outside } r
  | declaration (hplace : r.place = .param ∨ r.place = .paramEnd) (htoken : t = .punct ')') :
      Tells r t r.signature.event { r with place := .memberType, signature := {} }
        { r with signature := {} }

/-- The steps that reject a token, each with where it is rejected and why. -/
inductive Rejects (r : Recognizer) (t : Token) : Error → Prop where
  | outside (hplace : r.place = .outside) (htoken : t ≠ .word "class") :
      Rejects r t (.unexpectedToken r.place t .classKeyword)
  | nativeNameAgain (hplace : r.place = .classHead) (htoken : t = .punct '[')
      (hrenamed : r.renamed = true) : Rejects r t (.unexpectedToken r.place t .body)
  | nativeNameEnd (hplace : r.place = .nativeNameEnd) (htoken : t ≠ .punct ']') :
      Rejects r t (.unexpectedToken r.place t .nativeNameEnd)
  | danglingStatic (hplace : r.place = .memberType) (htoken : t = .punct '}' ∨ t = .punct ';')
      (hstatic : r.signature.isStatic = true) :
      Rejects r t (.unexpectedToken r.place t .returnType)
  | staticCtor (hplace : r.place = .memberType) (htoken : t = .word "ctor")
      (hstatic : r.signature.isStatic = true) : Rejects r t (.staticCtor r.className)
  | paramsOpen (hplace : r.place = .paramsOpen) (htoken : t ≠ .punct '(') :
      Rejects r t (.unexpectedToken r.place t .params)

/-- What a step does, whichever of the three it is. -/
def Does (r : Recognizer) (t : Token) : Step → Prop
  | .next after => r.Moves t after
  | .tell event accepted refused => r.Tells t event accepted refused
  | .reject e => r.Rejects t e

/-- Each place of the table gives the cases of its steps. A guard of the table is a hypothesis of the
case behind it. -/
theorem does_step (r : Recognizer) (t : Token) : r.Does t (r.step t) := by
  cases hplace : r.place with
  | outside =>
    rw [step_outside hplace, ← hplace]
    split
    · exact Moves.classKeyword hplace ‹_›
    · exact Rejects.outside hplace ‹_›
  | className =>
    rw [step_className hplace]
    exact Tells.classStart hplace
  | classHead =>
    rw [step_classHead hplace, ← hplace]
    split
    · exact Moves.bodyStart hplace ‹_›
    split
    · split
      · exact Rejects.nativeNameAgain hplace ‹_› ‹_›
      · exact Moves.nativeNameStart hplace ‹_› (by simpa using ‹¬ r.renamed = true›)
    · exact Moves.passedOver hplace ‹_› ‹_›
  | nativeName =>
    rw [step_nativeName hplace]
    exact Tells.nativeName hplace
  | nativeNameEnd =>
    rw [step_nativeNameEnd hplace, ← hplace]
    split
    · exact Moves.nativeNameEnd hplace ‹_›
    · exact Rejects.nativeNameEnd hplace ‹_›
  | memberType =>
    rw [step_memberType hplace, ← hplace]
    split
    · split
      · exact Rejects.danglingStatic hplace (.inl ‹_›) ‹_›
      · exact Tells.classEnd hplace (by simpa using ‹¬ r.signature.isStatic = true›) ‹_›
    split
    · split
      · exact Rejects.danglingStatic hplace (.inr ‹_›) ‹_›
      · exact Moves.semicolon hplace ‹_› (by simpa using ‹¬ r.signature.isStatic = true›)
    split
    · exact Moves.staticKeyword hplace ‹_›
    split
    · split
      · exact Rejects.staticCtor hplace ‹_› ‹_›
      · exact Moves.ctorKeyword hplace ‹_› (by simpa using ‹¬ r.signature.isStatic = true›)
    · exact Moves.returns hplace ‹_› ‹_› ‹_› ‹_›
  | memberName =>
    rw [step_memberName hplace]
    split
    · subst t
      exact Moves.indirection hplace (.inl rfl)
    split
    · subst t
      exact Moves.indirection hplace (.inr rfl)
    · exact Moves.name hplace ‹_› ‹_›
  | paramsOpen =>
    rw [step_paramsOpen hplace, ← hplace]
    split
    · exact Moves.paramsStart hplace ‹_›
    · exact Rejects.paramsOpen hplace ‹_›
  | param =>
    rw [step_param hplace]
    split
    · exact Tells.declaration (.inl hplace) ‹_›
    · exact Moves.param hplace ‹_›
  | paramEnd =>
    rw [step_paramEnd hplace]
    split
    · exact Moves.comma hplace ‹_›
    split
    · exact Tells.declaration (.inr hplace) ‹_›
    · exact Moves.modifier hplace ‹_› ‹_›

theorem moves_of_step (hstep : r.step t = .next after) : r.Moves t after := by
  have hdoes := does_step r t
  rwa [hstep] at hdoes

theorem tells_of_step (hstep : r.step t = .tell event accepted refused) :
    r.Tells t event accepted refused := by
  have hdoes := does_step r t
  rwa [hstep] at hdoes

theorem rejects_of_step {e : Error} (hstep : r.step t = .reject e) : r.Rejects t e := by
  have hdoes := does_step r t
  rwa [hstep] at hdoes

end LuaGlue.Recognizer
