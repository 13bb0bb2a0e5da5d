import LuaGlue.AliasTable
import LuaGlue.Signature
import LuaGlue.Text.Lines

namespace LuaGlue.Glue

/-- The two names of a class: the one in the description and the one of the native class. -/
structure ClassNames where
  wrapper : String := ""
  native : String := ""
  deriving DecidableEq

/-- A class without a native name of its own. -/
def ClassNames.plain (wrapper : String) : ClassNames :=
  ⟨wrapper, wrapper⟩

/-- The symbol of the glue function for a member of a class. Symbols of different members can
agree, since `_` may also occur in names. -/
def symbol (wrapper member : String) : String :=
  "_" ++ wrapper ++ "_" ++ member

/-- A variable that is read from a slot of the stack. -/
structure Argument where
  slot : Nat
  declared : String
  /-- The type that is asked of the stack. -/
  taken : String
  deriving DecidableEq

/-- What a glue function does with its arguments. -/
inductive Action where
  /-- Constructs an object of this class and pushes it. -/
  | construct (type : String)
  | call (callee : String)
  /-- Calls, and pushes the value as this type. -/
  | push (type callee : String)
  deriving DecidableEq

/-- The layout of a glue function: which slot of the stack is read as which type, and what is done
with the values. -/
structure Function where
  symbol : String
  /-- The number of values that must be on the stack, where that is checked. -/
  depth : Option Nat
  /-- The native class of the object in the first slot, if one is called. -/
  receiver : Option String
  args : List Argument
  action : Action
  deriving DecidableEq

/-- One argument for each parameter type, from the slot `start` upwards. -/
def arguments (start : Nat) (params : List String) (declared taken : String → String) :
    List Argument :=
  (params.zipIdx start).map fun (type, slot) => ⟨slot, declared type, taken type⟩

namespace Function

/-- The glue function of a constructor. Its variables keep the types of the description, also
where the stack is asked for an alias, and the depth of the stack is not checked. -/
def ofCtor (aliases : AliasTable) (names : ClassNames) (s : Signature) : Function where
  symbol := Glue.symbol names.wrapper Signature.ctorName
  depth := none
  receiver := none
  args := arguments 1 s.params id aliases.resolve
  action := .construct names.native

/-- The glue function of a method. Unless the method is static, the object it is called on takes
the first slot. -/
def ofMethod (aliases : AliasTable) (names : ClassNames) (s : Signature) : Function :=
  let start := if s.isStatic then 1 else 2
  let callee := (if s.isStatic then names.native ++ "::" else "obj->") ++ s.name
  { symbol := Glue.symbol names.wrapper s.name
    depth := some (s.params.length + if s.isStatic then 0 else 1)
    receiver := if s.isStatic then none else some names.native
    args := arguments start s.params aliases.resolve aliases.resolve
    action := if s.returnsVoid then .call callee else .push (aliases.resolve s.returns) callee }

end Function

def Argument.var (a : Argument) : String :=
  "p" ++ toString a.slot

def Argument.line (a : Argument) : String :=
  "  " ++ a.declared ++ " " ++ a.var ++ " = luaGet<" ++ a.taken ++ ">(L, " ++ toString a.slot ++ ");"

/-- The action on the arguments that are named in `args`, up to the return. -/
def Action.lines (args : String) : Action → List String
  | construct type =>
    ["  " ++ type ++ " *r = new " ++ type ++ "(" ++ args ++ ");",
     "  luaPush<" ++ type ++ "*>(L, r);",
     "  return 1;"]
  | call callee => ["  " ++ callee ++ "(" ++ args ++ ");", "  return 0;"]
  | push type callee =>
    ["  " ++ type ++ " ret = " ++ callee ++ "(" ++ args ++ ");",
     "  return luaPush<" ++ type ++ ">(L, ret);"]

namespace Function

def callArgs (f : Function) : String :=
  String.intercalate ", " (f.args.map Argument.var)

def headLine (f : Function) : String :=
  "int " ++ f.symbol ++ "(lua_State* L) \x7b"

def depthLines (f : Function) : List String :=
  f.depth.toList.map fun n => "  assert(lua_gettop(L) == " ++ toString n ++ ");"

def receiverLines (f : Function) : List String :=
  f.receiver.toList.map fun type => "  " ++ type ++ "* obj = luaGet<" ++ type ++ "*>(L, 1);"

/-- The lines of a glue function, with an empty one at the end. -/
def lines (f : Function) : List String :=
  [f.headLine] ++ f.depthLines ++ f.receiverLines ++ f.args.map Argument.line ++
    f.action.lines f.callArgs ++ ["\x7d", ""]

def text (f : Function) : String :=
  Text.ofLines f.lines

end Function

end LuaGlue.Glue
