import LuaGlue.Error
import LuaGlue.Event

namespace LuaGlue

/-- The memory of a recognizer between two tokens. It builds no tree. -/
structure Recognizer where
  place : Place := .outside
  /-- The class that was started last. -/
  className : String := ""
  /-- The class has been given a native name already. -/
  renamed : Bool := false
  /-- The declaration that is being read. -/
  signature : Signature := {}
  deriving DecidableEq

/-- What a token does to a recognizer: it moves it on, completes a piece of structure, or is
rejected. Where it completes a piece both outcomes are named, since whoever hears the event may
refuse it. -/
inductive Step where
  /-- The token is taken and completes nothing. -/
  | next (after : Recognizer)
  /-- The token completes a piece of structure. -/
  | tell (event : Event) (accepted refused : Recognizer)
  /-- The token is rejected, and the recognizer stays as it is. -/
  | reject (error : Error)
  deriving DecidableEq

namespace Recognizer

/-- Hands the declaration over and starts an empty one. Once handed over it is gone, also if
nobody wants it. -/
private def complete (r : Recognizer) : Step :=
  .tell r.signature.event { r with place := .memberType, signature := {} }
    { r with signature := {} }

private def unexpected (r : Recognizer) (token : Token) (expected : Expected) : Step :=
  .reject (.unexpectedToken r.place token expected)

/-- What `token` does at each place. Names and types may be any token that has no other meaning
there, and unknown tokens between a class name and its body are passed over. -/
def step (r : Recognizer) (token : Token) : Step :=
  match r.place with
  | .outside =>
    match token with
    | .word "class" => .next { r with place := .className }
    | _ => r.unexpected token .classKeyword
  | .className =>
    .tell (.classStart token.text)
      { r with place := .classHead, className := token.text, renamed := false } r
  | .classHead =>
    match token with
    | .punct '{' => .next { r with place := .memberType, signature := {} }
    | .punct '[' =>
      if r.renamed then r.unexpected token .body
      else .next { r with place := .nativeName, renamed := true }
    | _ => .next r
  | .nativeName => .tell (.nativeName token.text) { r with place := .nativeNameEnd } r
  | .nativeNameEnd =>
    match token with
    | .punct ']' => .next { r with place := .classHead }
    | _ => r.unexpected token .nativeNameEnd
  | .memberType =>
    match token with
    | .punct '}' =>
      if r.signature.isStatic then r.unexpected token .returnType
      else .tell .classEnd { r with place := .outside } r
    | .punct ';' =>
      if r.signature.isStatic then r.unexpected token .returnType else .next r
    | .word "static" => .next { r with signature.isStatic := true }
    | .word "ctor" =>
      if r.signature.isStatic then .reject (.staticCtor r.className)
      else .next { r with place := .paramsOpen, signature.isCtor := true }
    | _ => .next { r with place := .memberName, signature.returns := token.text }
  | .memberName =>
    match token with
    | .punct '*' => .next { r with signature.returns := r.signature.returns ++ "*" }
    | .word "&" => .next { r with signature.returns := r.signature.returns ++ "&" }
    | _ => .next { r with place := .paramsOpen, signature.name := token.text }
  | .paramsOpen =>
    match token with
    | .punct '(' => .next { r with place := .param }
    | _ => r.unexpected token .params
  | .param =>
    match token with
    | .punct ')' => r.complete
    | _ => .next { r with place := .paramEnd, signature := r.signature.addParam token.text }
  | .paramEnd =>
    match token with
    | .punct ',' => .next { r with place := .param }
    | .punct ')' => r.complete
    | _ => .next { r with signature := r.signature.decorate token.text }

section Table

variable {r : Recognizer}

theorem step_outside (h : r.place = .outside) (t : Token) :
    r.step t = if t = .word "class" then .next { r with place := .className }
      else .reject (.unexpectedToken .outside t .classKeyword) := by
  unfold step
  simp only [h, unexpected]
  split <;> simp_all

theorem step_className (h : r.place = .className) (t : Token) :
    r.step t =
      .tell (.classStart t.text)
        { r with place := .classHead, className := t.text, renamed := false } r := by
  unfold step
  simp only [h]

theorem step_classHead (h : r.place = .classHead) (t : Token) :
    r.step t = if t = .punct '{' then .next { r with place := .memberType, signature := {} }
      else if t = .punct '[' then
        if r.renamed then .reject (.unexpectedToken .classHead t .body)
        else .next { r with place := .nativeName, renamed := true }
      else .next r := by
  unfold step
  simp only [h, unexpected]
  split <;> simp_all

theorem step_nativeName (h : r.place = .nativeName) (t : Token) :
    r.step t = .tell (.nativeName t.text) { r with place := .nativeNameEnd } r := by
  unfold step
  simp only [h]

theorem step_nativeNameEnd (h : r.place = .nativeNameEnd) (t : Token) :
    r.step t = if t = .punct ']' then .next { r with place := .classHead }
      else .reject (.unexpectedToken .nativeNameEnd t .nativeNameEnd) := by
  unfold step
  simp only [h, unexpected]
  split <;> simp_all

theorem step_memberType (h : r.place = .memberType) (t : Token) :
    r.step t = if t = .punct '}' then
        if r.signature.isStatic then .reject (.unexpectedToken .memberType t .returnType)
        else .tell .classEnd { r with place := .outside } r
      else if t = .punct ';' then
        if r.signature.isStatic then .reject (.unexpectedToken .memberType t .returnType)
        else .next r
      else if t = .word "static" then .next { r with signature.isStatic := true }
      else if t = .word "ctor" then
        if r.signature.isStatic then .reject (.staticCtor r.className)
        else .next { r with place := .paramsOpen, signature.isCtor := true }
      else .next { r with place := .memberName, signature.returns := t.text } := by
  unfold step
  simp only [h, unexpected]
  split <;> simp_all

theorem step_memberName (h : r.place = .memberName) (t : Token) :
    r.step t = if t = .punct '*' then .next { r with signature.returns := r.signature.returns ++ "*" }
      else if t = .word "&" then .next { r with signature.returns := r.signature.returns ++ "&" }
      else .next { r with place := .paramsOpen, signature.name := t.text } := by
  unfold step
  simp only [h]
  split <;> simp_all

theorem step_paramsOpen (h : r.place = .paramsOpen) (t : Token) :
    r.step t = if t = .punct '(' then .next { r with place := .param }
      else .reject (.unexpectedToken .paramsOpen t .params) := by
  unfold step
  simp only [h, unexpected]
  split <;> simp_all

theorem step_param (h : r.place = .param) (t : Token) :
    r.step t = if t = .punct ')' then
        .tell r.signature.event { r with place := .memberType, signature := {} }
          { r with signature := {} }
      else .next { r with place := .paramEnd, signature := r.signature.addParam t.text } := by
  unfold step
  simp only [h, complete]
  split <;> simp_all

theorem step_paramEnd (h : r.place = .paramEnd) (t : Token) :
    r.step t = if t = .punct ',' then .next { r with place := .param }
      else if t = .punct ')' then
        .tell r.signature.event { r with place := .memberType, signature := {} }
          { r with signature := {} }
      else .next { r with signature := r.signature.decorate t.text } := by
  unfold step
  simp only [h, complete]
  split <;> simp_all

end Table

/-- A description may only end between two classes. -/
def finish? (r : Recognizer) : Option Error :=
  if r.place = .outside then none else some (.unexpectedEnd r.place)

theorem finish?_eq_none_iff {r : Recognizer} : r.finish? = none ↔ r.place = .outside := by
  simp [finish?]

end Recognizer

end LuaGlue
