import LuaGlue.Event
import LuaGlue.Token

namespace LuaGlue.Grammar

/-- A parameter type: any token but a closing parenthesis, and behind it whatever stands before the
next comma or closing parenthesis. -/
@[ext]
structure Param where
  head : Token
  modifiers : List Token
  head_ne : head ≠ .punct ')'
  modifiers_ne : ∀ t ∈ modifiers, t ≠ .punct ',' ∧ t ≠ .punct ')'
  deriving DecidableEq

namespace Param

def tokens (p : Param) : List Token :=
  p.head :: p.modifiers

/-- The texts of the tokens, with a space before each modifier. -/
def type (p : Param) : String :=
  String.intercalate " " (p.tokens.map Token.text)

end Param

/-- What stands between the parentheses of a declaration. A comma may follow the last type; it
declares no further parameter. -/
inductive ParamList where
  | empty
  | listed (first : Param) (more : List Param) (extraComma : Bool)
  deriving DecidableEq

namespace ParamList

/-- A parameter type behind a comma. -/
def further (p : Param) : List Token :=
  .punct ',' :: p.tokens

def tokens : ParamList → List Token
  | empty => []
  | listed first more extraComma =>
    first.tokens ++ more.flatMap further ++ if extraComma then [.punct ','] else []

def types : ParamList → List String
  | empty => []
  | listed first more _ => (first :: more).map Param.type

end ParamList

/-- Behind a return type, `*` and `&` belong to the type. The first is punctuation, the second a
word. -/
def IsIndirection (t : Token) : Prop :=
  t = .punct '*' ∨ t = .word "&"

instance : DecidablePred IsIndirection :=
  fun t => inferInstanceAs (Decidable (t = .punct '*' ∨ t = .word "&"))

/-- The tokens that start a return type. The others end a body, are passed over in it, or are
keywords. -/
def StartsType (t : Token) : Prop :=
  t ≠ .punct '}' ∧ t ≠ .punct ';' ∧ t ≠ .word "static" ∧ t ≠ .word "ctor"

instance : DecidablePred StartsType :=
  fun t => inferInstanceAs
    (Decidable (t ≠ .punct '}' ∧ t ≠ .punct ';' ∧ t ≠ .word "static" ∧ t ≠ .word "ctor"))

/-- A method declaration. Its name is any token that cannot belong to the return type. -/
@[ext]
structure Method where
  /-- How often `static` stands before the return type. -/
  statics : Nat
  returns : Token
  indirections : List Token
  name : Token
  params : ParamList
  returns_ok : StartsType returns
  indirections_ok : ∀ t ∈ indirections, IsIndirection t
  name_ok : ¬ IsIndirection name
  deriving DecidableEq

namespace Method

def tokens (m : Method) : List Token :=
  List.replicate m.statics (.word "static") ++ m.returns :: m.indirections ++
    m.name :: .punct '(' :: m.params.tokens ++ [.punct ')']

/-- The return type is written without spaces. -/
def signature (m : Method) : Signature where
  returns := String.join ((m.returns :: m.indirections).map Token.text)
  name := m.name.text
  params := m.params.types
  isStatic := m.statics ≠ 0

end Method

/-- What stands in the body of a class. -/
inductive Item where
  | semicolon
  | ctor (params : ParamList)
  | method (m : Method)
  deriving DecidableEq

namespace Item

def tokens : Item → List Token
  | semicolon => [.punct ';']
  | ctor params => .word "ctor" :: .punct '(' :: params.tokens ++ [.punct ')']
  | method m => m.tokens

/-- The declaration in an item; a semicolon declares nothing. -/
def signature? : Item → Option Signature
  | semicolon => none
  | ctor params => some { params := params.types, isCtor := true }
  | method m => some m.signature

/-- What an item tells: a constructor and a method are told apart. -/
def event? : Item → Option Event
  | semicolon => none
  | ctor params => some (.ctor { params := params.types, isCtor := true })
  | method m => some (.method m.signature)

theorem event?_eq_map_signature? (item : Item) :
    item.event? = item.signature?.map Signature.event := by
  cases item <;> rfl

end Item

/-- Between the name of a class and its body all tokens without a meaning are passed over. -/
def IsPassedOver (t : Token) : Prop :=
  t ≠ .punct '{' ∧ t ≠ .punct '['

instance : DecidablePred IsPassedOver :=
  fun t => inferInstanceAs (Decidable (t ≠ .punct '{' ∧ t ≠ .punct '['))

/-- The name of the native class in brackets, and the tokens passed over behind it. -/
@[ext]
structure NativeName where
  name : Token
  skipped : List Token
  skipped_ok : ∀ t ∈ skipped, IsPassedOver t
  deriving DecidableEq

def NativeName.tokens (n : NativeName) : List Token :=
  .punct '[' :: n.name :: .punct ']' :: n.skipped

/-- A class with all of its tokens, those without a meaning included. Its name may be any token, and
a native name is given at most once. -/
@[ext]
structure ClassDecl where
  name : Token
  skipped : List Token
  native : Option NativeName
  items : List Item
  skipped_ok : ∀ t ∈ skipped, IsPassedOver t
  deriving DecidableEq

namespace ClassDecl

def tokens (c : ClassDecl) : List Token :=
  .word "class" :: c.name :: c.skipped ++ c.native.toList.flatMap NativeName.tokens ++
    .punct '{' :: c.items.flatMap Item.tokens ++ [.punct '}']

/-- What is told before the body of a class. -/
def header (c : ClassDecl) : List Event :=
  .classStart c.name.text :: c.native.toList.map fun n => .nativeName n.name.text

def events (c : ClassDecl) : List Event :=
  c.header ++ c.items.filterMap Item.event? ++ [.classEnd]

end ClassDecl

end LuaGlue.Grammar
