import TaskGraph.Json.Record
import TaskGraph.Json.Token

namespace TaskGraph

open Json (Value Number)

/-- A literal type of the orchestrator. -/
inductive LiteralType where
  | float
  | text
  | boolean
  | integer
  deriving DecidableEq

namespace LiteralType

/-- All literal types, in the order in which names are looked up. -/
def all : List LiteralType := [.float, .text, .boolean, .integer]

def name : LiteralType → String
  | float => "float"
  | text => "text"
  | boolean => "boolean"
  | integer => "integer"

def wireName : LiteralType → String
  | float => "FLOAT"
  | text => "STRING"
  | boolean => "BOOLEAN"
  | integer => "INTEGER"

/-- Whether a value is of the type. Any number is a float; an integer is a number whose value is a
    signed 64-bit integer, however it is kept. -/
def accepts : LiteralType → Value → Bool
  | float, .num _ => true
  | text, .str _ => true
  | boolean, .bool _ => true
  | integer, .num n => n.toInt64?.isSome
  | _, _ => false

/-- Whether two texts agree when the letters of ASCII count in either case. -/
def sameLetters (a b : String) : Bool :=
  a.toList.map Char.toLower == b.toList.map Char.toLower

/-- The type with this logical name, in any case, or with this wire name. -/
def lookup (s : String) : Option LiteralType :=
  all.find? fun t => sameLetters t.name s || t.wireName == s

def ofWireName? (s : String) : Option LiteralType := all.find? fun t => t.wireName == s

/-- A value as a wire primitive of the type. An integer is written as an integer even when it is
    kept as a binary64 number. -/
def primitive (t : LiteralType) (v : Value) : Value :=
  match t, v with
  | float, _ => .obj [("float_value", v)]
  | text, _ => .obj [("string_value", v)]
  | boolean, _ => .obj [("boolean", v)]
  | integer, .num n => .obj [("integer", .num ((n.toInt64?.bind Number.ofInt?).getD n))]
  | integer, _ => .obj [("integer", v)]

def ofJson? (v : Value) : Option LiteralType :=
  v.variant?.bind fun s => all.find? fun t => t.name == s

end LiteralType

/-- The type that a variable declares, if it declares one. -/
inductive DeclaredType where
  | untyped
  | typed (type : LiteralType)
  deriving DecidableEq

namespace DeclaredType

def literal? : DeclaredType → Option LiteralType
  | untyped => none
  | typed t => some t

/-- Whether a value is good for a variable of this type. -/
def accepts : DeclaredType → Value → Bool
  | untyped, _ => true
  | typed t, v => t.accepts v

/-- The type as a wire document; what is untyped travels as a string. -/
def toWire (t : DeclaredType) : Value :=
  .obj [("simple", .str (match t with
    | untyped => LiteralType.text.wireName
    | typed t => t.wireName))]

/-- The tag that the configuration of a task keeps for a variable. -/
def tag : DeclaredType → String
  | untyped => "untyped"
  | typed t => t.name

/-- The type that a wire variable declares; a shape that is not understood declares none. -/
def ofWireVariable (v : Value) : DeclaredType :=
  match ((v.at? ["type", "simple"]).bind Value.str?).bind LiteralType.ofWireName? with
  | some t => .typed t
  | none => .untyped

end DeclaredType

/-- A type as options give it: itself, or a name still to be looked up. -/
inductive TypeSpec where
  | literal (type : LiteralType)
  | named (name : String)
  deriving DecidableEq

namespace TypeSpec

/-- The type meant, if the name is one of a type. -/
def resolve? : TypeSpec → Option LiteralType
  | literal t => some t
  | named s => LiteralType.lookup s

def text : TypeSpec → String
  | literal t => t.name
  | named s => s

end TypeSpec

end TaskGraph
