import ShapeFlow.Text.Hidden

/-!
# Quoted text

Text shown inside a message stands in double quotes; a character that cannot be seen is written as
an escape.

* `Text.quoted`: the quoted form, on one line and without hidden characters.
-/

namespace ShapeFlow.Text

/-- The digits of a number in base 16, in lower case. -/
def hex (n : Nat) : String := String.ofList (Nat.toDigits 16 n)

/-- The spelling of one character in quoted text. -/
def spelled (c : Char) : String :=
  match c with
  | '"' => "\\\""
  | '\\' => "\\\\"
  | '\t' => "\\t"
  | '\n' => "\\n"
  | '\r' => "\\r"
  | '\x00' => "\\0"
  | _ => if isHidden c then "\\u\x7b" ++ hex c.toNat ++ "\x7d" else String.singleton c

/-- Text in double quotes, with escapes for quotes, backslashes and hidden characters. -/
def quoted (text : String) : String :=
  "\"" ++ String.join (text.toList.map spelled) ++ "\""

end ShapeFlow.Text
