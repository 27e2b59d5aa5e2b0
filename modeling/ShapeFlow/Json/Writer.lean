import ShapeFlow.Json.Value
import ShapeFlow.Text.Quoted

/-!
# Writing JSON

* `Json.compact`: without any space.
* `Json.pretty`: one item to a line, two spaces to a level, empty containers closed at once.
-/

namespace ShapeFlow.Json

/-- The spelling of one character in a JSON string: quotes, backslashes and controls are escaped,
and nothing else. -/
def spelled (c : Char) : String :=
  match c with
  | '"' => "\\\""
  | '\\' => "\\\\"
  | '\x08' => "\\b"
  | '\x0c' => "\\f"
  | '\n' => "\\n"
  | '\r' => "\\r"
  | '\t' => "\\t"
  | _ =>
    if c.toNat < 0x10 then "\\u000" ++ Text.hex c.toNat
    else if c.toNat < 0x20 then "\\u00" ++ Text.hex c.toNat
    else String.singleton c

/-- A JSON string. -/
def quote (s : String) : String := "\"" ++ String.join (s.toList.map spelled) ++ "\""

mutual

/-- A value without any space. -/
def compact : Json → String
  | .null => "null"
  | .bool b => if b then "true" else "false"
  | .integer n => toString n
  | .real x => layout.write x
  | .text s => quote s
  | .array items => "[" ++ compactItems items ++ "]"
  | .object fields => "\x7b" ++ compactFields fields ++ "\x7d"

/-- Items separated by commas. -/
def compactItems : List Json → String
  | [] => ""
  | [item] => compact item
  | item :: rest => compact item ++ "," ++ compactItems rest

/-- Fields separated by commas. -/
def compactFields : List (String × Json) → String
  | [] => ""
  | [(name, value)] => quote name ++ ":" ++ compact value
  | (name, value) :: rest => quote name ++ ":" ++ compact value ++ "," ++ compactFields rest

end

/-- A new line at a level. -/
def newline (level : Nat) : String := "\n" ++ "".pushn ' ' (2 * level)

mutual

/-- A value whose own lines stand one level deeper than the one given. -/
def prettyAt (level : Nat) : Json → String
  | .null => "null"
  | .bool b => if b then "true" else "false"
  | .integer n => toString n
  | .real x => layout.write x
  | .text s => quote s
  | .array [] => "[]"
  | .array (item :: rest) =>
    "[" ++ prettyItems (level + 1) (item :: rest) ++ newline level ++ "]"
  | .object [] => "\x7b\x7d"
  | .object (field :: rest) =>
    "\x7b" ++ prettyFields (level + 1) (field :: rest) ++ newline level ++ "\x7d"

/-- Items on lines of their own. -/
def prettyItems (level : Nat) : List Json → String
  | [] => ""
  | [item] => newline level ++ prettyAt level item
  | item :: rest => newline level ++ prettyAt level item ++ "," ++ prettyItems level rest

/-- Fields on lines of their own. -/
def prettyFields (level : Nat) : List (String × Json) → String
  | [] => ""
  | [(name, value)] => newline level ++ quote name ++ ": " ++ prettyAt level value
  | (name, value) :: rest =>
    newline level ++ quote name ++ ": " ++ prettyAt level value ++ "," ++ prettyFields level rest

end

/-- A value with one item to a line. -/
def pretty (value : Json) : String := prettyAt 0 value

end ShapeFlow.Json
