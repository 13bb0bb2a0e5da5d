namespace LuaGlue

/-- A token is one punctuation character or a word. The keywords `class`, `static` and `ctor` are
ordinary words, to which only the recognizer gives a meaning. Nothing here limits the character or
the word: a recognizer answers to every token, whether or not a text can produce it. -/
inductive Token where
  | punct (char : Char)
  | word (text : String)
  deriving DecidableEq

namespace Token

/-- The characters that are tokens by themselves. -/
def isPunct (c : Char) : Bool :=
  c = '{' || c = '}' || c = '(' || c = ')' || c = '*' || c = ';' || c = ',' || c = '[' || c = ']'

/-- Space, tab, line feed, carriage return and bell separate tokens. No other character does,
so a form feed or a no-break space belongs to a word. -/
def isBlank (c : Char) : Bool :=
  c = ' ' || c = '\t' || c = '\n' || c = '\r' || c = '\x07'

/-- The characters a word is made of. -/
def isWordChar (c : Char) : Bool :=
  !isBlank c && !isPunct c

def text : Token → String
  | punct c => c.toString
  | word w => w

/-- A punctuation token is never a word, even where the two have the same text. -/
def isWord (t : Token) (text : String) : Bool :=
  t = word text

end Token

end LuaGlue
