/-!
# Tokens of a regular expression

The reader sees an expression as single characters and backslashes with the character that follows
them.  A backslash at the very end is a token of its own, which no reader accepts.
-/

namespace Markflow.Regex

/-- A character, or a backslash with a character. -/
inductive Token where
  | plain (c : Char)
  | escaped (c : Char)
  /-- A backslash that nothing follows. -/
  | dangling
  deriving DecidableEq, Repr, Inhabited

namespace Token

/-- The text of a token. -/
def text : Token → List Char
  | plain c => [c]
  | escaped c => ['\\', c]
  | dangling => ['\\']

/-- How many characters a token has. -/
def width : Token → Nat
  | plain _ => 1
  | escaped _ => 2
  | dangling => 1

/-- The text of some tokens. -/
def textOf (tokens : List Token) : String :=
  String.ofList (tokens.flatMap text)

/-- The tokens of an expression. -/
def split : List Char → List Token
  | [] => []
  | ['\\'] => [dangling]
  | '\\' :: c :: rest => escaped c :: split rest
  | c :: rest => plain c :: split rest

end Token

end Markflow.Regex
