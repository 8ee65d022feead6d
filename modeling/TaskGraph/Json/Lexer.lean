import TaskGraph.Json.Token

namespace TaskGraph.Json

/-- What the lexer is in the middle of. Characters read so far are kept newest first. -/
inductive Lexing where
  /-- Between tokens. -/
  | between
  /-- In `null`, `true` or `false`. -/
  | word (letters : List Char)
  /-- In a number. -/
  | number (lexeme : List Char)
  /-- In a quoted string. -/
  | text (chars : List Char)
  /-- Just after a backslash in a quoted string. -/
  | escape (chars : List Char)
  /-- In the digits of a `\u` escape, `digits` of four being read with the value `code`; `high` is
      the first half of a surrogate pair that this escape has to complete. -/
  | unicode (chars : List Char) (high : Option Nat) (digits code : Nat)
  /-- After the first half of a surrogate pair, where the backslash of the second half is due. -/
  | pairSlash (chars : List Char) (high : Nat)
  /-- After that backslash, where the letter `u` is due. -/
  | pairLetter (chars : List Char) (high : Nat)

namespace Lexing

/-- The characters that JSON allows between tokens. -/
def isSpace (c : Char) : Bool := c = ' ' || c = '\n' || c = '\r' || c = '\t'

/-- The characters of which numbers are made. -/
def isNumberChar (c : Char) : Bool :=
  c.isDigit || c = '-' || c = '+' || c = '.' || c = 'e' || c = 'E'

/-- The value of a hexadecimal digit in either case. -/
def hexValue? (c : Char) : Option Nat :=
  if c.isDigit then some (c.toNat - '0'.toNat)
  else if 'a' ≤ c ∧ c ≤ 'f' then some (c.toNat - 'a'.toNat + 10)
  else if 'A' ≤ c ∧ c ≤ 'F' then some (c.toNat - 'A'.toNat + 10)
  else none

/-- The character that a letter after a backslash stands for. -/
def unescape? (c : Char) : Option Char :=
  if c = '"' ∨ c = '\\' ∨ c = '/' then some c
  else if c = 'b' then some '\x08'
  else if c = 'f' then some '\x0C'
  else if c = 'n' then some '\n'
  else if c = 'r' then some '\r'
  else if c = 't' then some '\t'
  else none

/-- The token of a word. -/
def wordToken? (letters : List Char) : Option Token :=
  if letters = ['n', 'u', 'l', 'l'] then some .null
  else if letters = ['t', 'r', 'u', 'e'] then some (.bool true)
  else if letters = ['f', 'a', 'l', 's', 'e'] then some (.bool false)
  else none

/-- One character where a token may start. -/
def start (c : Char) : Option (Lexing × List Token) :=
  if isSpace c then some (.between, [])
  else if c = '[' then some (.between, [.openArr])
  else if c = ']' then some (.between, [.closeArr])
  else if c = '\x7b' then some (.between, [.openObj])
  else if c = '\x7d' then some (.between, [.closeObj])
  else if c = ',' then some (.between, [.comma])
  else if c = ':' then some (.between, [.colon])
  else if c = '"' then some (.text [], [])
  else if c.isDigit ∨ c = '-' then some (.number [c], [])
  else if c.isLower then some (.word [c], [])
  else none

/-- What the four digits of a `\u` escape lead to. Halves of surrogate pairs only count together,
    the high one first. -/
def closeUnicode (chars : List Char) (high : Option Nat) (code : Nat) : Option Lexing :=
  match high with
  | some h =>
    if 0xDC00 ≤ code ∧ code < 0xE000 then
      some (.text (Char.ofNat (0x10000 + (h - 0xD800) * 0x400 + (code - 0xDC00)) :: chars))
    else
      none
  | none =>
    if 0xD800 ≤ code ∧ code < 0xDC00 then some (.pairSlash chars code)
    else if 0xDC00 ≤ code ∧ code < 0xE000 then none
    else some (.text (Char.ofNat code :: chars))

/-- The state after one more character, with the tokens that it completes. These may be two, since a
    word or a number ends only at the character after it. -/
def step (state : Lexing) (c : Char) : Option (Lexing × List Token) :=
  match state with
  | between => start c
  | word letters =>
    if c.isLower then
      some (.word (c :: letters), [])
    else do
      let token ← wordToken? letters.reverse
      let (next, tokens) ← start c
      return (next, token :: tokens)
  | number lexeme =>
    if isNumberChar c then
      some (.number (c :: lexeme), [])
    else do
      let n ← Number.ofChars? lexeme.reverse
      let (next, tokens) ← start c
      return (next, .num n :: tokens)
  | text chars =>
    if c = '"' then some (.between, [.str (String.ofList chars.reverse)])
    else if c = '\\' then some (.escape chars, [])
    else if c.toNat < 0x20 then none
    else some (.text (c :: chars), [])
  | escape chars =>
    if c = 'u' then some (.unicode chars none 0 0, [])
    else (unescape? c).map fun d => (.text (d :: chars), [])
  | unicode chars high digits code => do
    let code := code * 16 + (← hexValue? c)
    if digits < 3 then return (.unicode chars high (digits + 1) code, [])
    else return (← closeUnicode chars high code, [])
  | pairSlash chars high => if c = '\\' then some (.pairLetter chars high, []) else none
  | pairLetter chars high => if c = 'u' then some (.unicode chars (some high) 0 0, []) else none

/-- The token that the end of the text completes. -/
def finish : Lexing → Option (List Token)
  | between => some []
  | word letters => (wordToken? letters.reverse).map ([·])
  | number lexeme => (Number.ofChars? lexeme.reverse).map (fun n => [.num n])
  | _ => none

/-- The tokens of the rest of a text, from the state that its beginning led to. -/
def tokens? (state : Lexing) : List Char → Option (List Token)
  | [] => state.finish
  | c :: cs => do
    let (next, tokens) ← state.step c
    return tokens ++ (← tokens? next cs)

end Lexing

end TaskGraph.Json
