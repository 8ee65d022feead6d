import TaskGraph.Json.Lexer

namespace TaskGraph.Json

/-- An array or object that is still open around the value that comes next. -/
inductive Frame where
  /-- An array, by the items before the value, newest first. -/
  | arr (items : List Value)
  /-- An object, by the fields before the value and the key that the value belongs to. -/
  | obj (fields : List (String × Value)) (key : String)

/-- What the tokens read so far amount to, and so which tokens may come next. -/
inductive Reading where
  /-- A value is due. -/
  | value (stack : List Frame)
  /-- Just after `[`: the first item or the closing bracket. -/
  | first (outer : List Frame)
  /-- After an item: a comma or the closing bracket. -/
  | item (items : List Value) (outer : List Frame)
  /-- A key is due, or just after the opening brace the closing one. -/
  | key (fields : List (String × Value)) (closable : Bool) (outer : List Frame)
  /-- After a key: the colon. -/
  | colon (fields : List (String × Value)) (key : String) (outer : List Frame)
  /-- After a field: a comma or the closing brace. -/
  | field (fields : List (String × Value)) (outer : List Frame)
  /-- A whole value; nothing may follow. -/
  | done (value : Value)

namespace Reading

/-- A value has been read inside these open arrays and objects. -/
def complete (v : Value) : List Frame → Reading
  | [] => .done v
  | .arr items :: outer => .item (v :: items) outer
  | .obj fields k :: outer => .field (insertField k v fields) outer

/-- A token where a value is due, with at most `limit` arrays and objects open at once. -/
def start (limit : Nat) (stack : List Frame) : Token → Option Reading
  | .null => some (complete .null stack)
  | .bool b => some (complete (.bool b) stack)
  | .num n => some (complete (.num n) stack)
  | .str s => some (complete (.str s) stack)
  | .openArr => if stack.length < limit then some (.first stack) else none
  | .openObj => if stack.length < limit then some (.key [] true stack) else none
  | _ => none

/-- The state after one more token. -/
def step (limit : Nat) (state : Reading) (token : Token) : Option Reading :=
  match state with
  | value stack => start limit stack token
  | first outer =>
    match token with
    | .closeArr => some (complete (.arr []) outer)
    | _ => start limit (.arr [] :: outer) token
  | item items outer =>
    match token with
    | .comma => some (.value (.arr items :: outer))
    | .closeArr => some (complete (.arr items.reverse) outer)
    | _ => none
  | key fields closable outer =>
    match token with
    | .str k => some (.colon fields k outer)
    | .closeObj => if closable then some (complete (.obj fields) outer) else none
    | _ => none
  | colon fields k outer =>
    match token with
    | .colon => some (.value (.obj fields k :: outer))
    | _ => none
  | field fields outer =>
    match token with
    | .comma => some (.key fields false outer)
    | .closeObj => some (complete (.obj fields) outer)
    | _ => none
  | done _ => none

/-- The value, once it is whole. -/
def result? : Reading → Option Value
  | done v => some v
  | _ => none

end Reading

/-- The value with exactly these tokens. -/
def Value.ofTokens? (limit : Nat) (tokens : List Token) : Option Value :=
  (tokens.foldlM (Reading.step limit) (.value [])).bind Reading.result?

/-- The value that a text holds, when it is JSON text nested at most `limit` deep. -/
def Value.parseWithin? (limit : Nat) (text : String) : Option Value :=
  (Lexing.between.tokens? text.toList).bind (Value.ofTokens? limit)

/-- How deep the arrays and objects of a document may be nested. -/
def nestingLimit : Nat := 127

/-- The value that a text holds, when it is JSON text of admissible depth. -/
def Value.parse? (text : String) : Option Value := Value.parseWithin? nestingLimit text

end TaskGraph.Json
