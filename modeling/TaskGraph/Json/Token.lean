import TaskGraph.Json.Value

namespace TaskGraph.Json

/-- A token of JSON text: a bracket, a separator, or a value without parts. -/
inductive Token where
  | openArr
  | closeArr
  | openObj
  | closeObj
  | comma
  | colon
  | null
  | bool (b : Bool)
  | num (n : Number)
  | str (s : String)
  deriving DecidableEq

/-- The hexadecimal digit of a number below sixteen, in lower case. -/
def hexDigit (n : Nat) : Char := Nat.digitChar n

/-- How a character stands inside a quoted string. Quotes, backslashes and the controls below
    U+0020 are escaped, five of those controls by a letter; all else stands for itself. -/
def escapeChar (c : Char) : List Char :=
  if c = '"' then ['\\', '"']
  else if c = '\\' then ['\\', '\\']
  else if c = '\n' then ['\\', 'n']
  else if c = '\r' then ['\\', 'r']
  else if c = '\t' then ['\\', 't']
  else if c = '\x08' then ['\\', 'b']
  else if c = '\x0C' then ['\\', 'f']
  else if c.toNat < 0x20 then
    ['\\', 'u', '0', '0', hexDigit (c.toNat / 16), hexDigit (c.toNat % 16)]
  else [c]

/-- A string in quotes. -/
def quote (s : String) : List Char := '"' :: s.toList.flatMap escapeChar ++ ['"']

/-- The characters of a token. -/
def Token.chars : Token → List Char
  | .openArr => ['[']
  | .closeArr => [']']
  | .openObj => ['\x7b']
  | .closeObj => ['\x7d']
  | .comma => [',']
  | .colon => [':']
  | .null => ['n', 'u', 'l', 'l']
  | .bool true => ['t', 'r', 'u', 'e']
  | .bool false => ['f', 'a', 'l', 's', 'e']
  | .num n => n.chars
  | .str s => quote s

mutual

/-- The tokens of a value. -/
def Value.tokens : Value → List Token
  | .null => [.null]
  | .bool b => [.bool b]
  | .num n => [.num n]
  | .str s => [.str s]
  | .arr [] => [.openArr, .closeArr]
  | .arr (v :: vs) => .openArr :: v.tokens ++ moreItems vs ++ [.closeArr]
  | .obj [] => [.openObj, .closeObj]
  | .obj ((k, v) :: fs) =>
    .openObj :: .str k :: .colon :: v.tokens ++ moreFields fs ++ [.closeObj]

/-- The tokens of the items after the first. -/
def moreItems : List Value → List Token
  | [] => []
  | v :: vs => .comma :: v.tokens ++ moreItems vs

/-- The tokens of the fields after the first. -/
def moreFields : List (String × Value) → List Token
  | [] => []
  | (k, v) :: fs => .comma :: .str k :: .colon :: v.tokens ++ moreFields fs

end

/-- The characters of the compact text of a value. -/
def Value.chars (v : Value) : List Char := v.tokens.flatMap Token.chars

def Value.render (v : Value) : String := String.ofList v.chars

end TaskGraph.Json
