namespace LuaGlue

/-- What may stand next in a description. -/
inductive Place where
  /-- Between two classes. -/
  | outside
  | className
  /-- Behind the class name, before the body. -/
  | classHead
  | nativeName
  | nativeNameEnd
  /-- In the body, where a declaration starts. -/
  | memberType
  | memberName
  | paramsOpen
  | param
  /-- Behind a parameter type. -/
  | paramEnd
  deriving DecidableEq

/-- The name of a place in messages and in the log. -/
def Place.label : Place → String
  | outside => "Initial"
  | className => "ClassName"
  | classHead => "ClassStart"
  | nativeName => "RealClassName"
  | nativeNameEnd => "RealClassNameEnd"
  | memberType => "MethodReturnType"
  | memberName => "MethodName"
  | paramsOpen => "ParameterListBegin"
  | param => "Parameter"
  | paramEnd => "CommaOrParameterListEnd"

end LuaGlue
