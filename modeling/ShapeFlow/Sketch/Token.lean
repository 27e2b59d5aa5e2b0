import ShapeFlow.Number.Decimal
import ShapeFlow.Number.Layout
import ShapeFlow.Text.Bytes
import ShapeFlow.Text.Quoted

/-!
# Tokens of sketches

A sketch is a text notation for graphs. Its tokens are found by the longest match; blanks and
comments are skipped, and a character that starts no token is a fault of its own, behind which
reading goes on.

* `Sketch.scan`: what stands at the head of a text.
* `Sketch.lex`: the tokens and faults of a text with the bytes that they cover.
-/

namespace ShapeFlow.Sketch

/-- A range of bytes, the end excluded. -/
structure Span where
  start : Nat
  stop : Nat
deriving DecidableEq, Repr, Inhabited

/-- A token. -/
inductive Token where
  | flag (b : Bool)
  | arrow
  | dot
  | openParen
  | closeParen
  | openBracket
  | closeBracket
  | comma
  | equals
  | number (x : Double)
  | text (s : String)
  | ident (name : String)
  /-- One line end or more. -/
  | newline
deriving DecidableEq, Inhabited

/-- A token as it stands in messages. -/
def Token.render : Token → String
  | flag b => if b then "true" else "false"
  | arrow => "->"
  | dot => "."
  | openParen => "("
  | closeParen => ")"
  | openBracket => "["
  | closeBracket => "]"
  | comma => ","
  | equals => "="
  | number x => Layout.plain.write x
  | text s => "\"" ++ s ++ "\""
  | ident _ => "<ident>"
  | newline => "<newline>"

/-- A token with the bytes that it covers. -/
structure Lexeme where
  token : Token
  span : Span
deriving DecidableEq, Inhabited

/-- A message about some bytes of a text. -/
structure Located where
  message : String
  span : Span
deriving DecidableEq, Repr, Inhabited

/-- What a piece of text is. -/
inductive Mark where
  | blank
  | token (t : Token)
  | fault
deriving DecidableEq, Inhabited

/-- Whether a character may start a name. -/
def isNameStart (c : Char) : Bool := c.isAlpha || c == '_'

/-- Whether a character may stand in a name. -/
def isNameChar (c : Char) : Bool := c.isAlphanum || c == '_'

/-- Whether a character is skipped between tokens. -/
def isBlank (c : Char) : Bool := c == ' ' || c == '\t' || c == '\r'

/-- The token of a name. -/
def word (name : String) : Token :=
  if name = "true" then .flag true
  else if name = "false" then .flag false
  else .ident name

/-- The digits behind a point, if there are any. -/
def fractionDigits : List Char → List Char
  | '.' :: rest => rest.takeWhile Char.isDigit
  | _ => []

/-- The sign and the digits of an exponent part, if there are digits, and the length of the
part. -/
def exponentPart : List Char → Option (Bool × List Char × Nat)
  | c :: rest =>
    if c = 'e' ∨ c = 'E' then
      let (negative, signs) := match rest with
        | '-' :: _ => (true, 1)
        | '+' :: _ => (false, 1)
        | _ => (false, 0)
      let digits := (rest.drop signs).takeWhile Char.isDigit
      if digits.isEmpty then none else some (negative, digits, 1 + signs + digits.length)
    else none
  | [] => none

/-- The number at the head of a text that begins with a digit, and its length. -/
def scanNumber (negative : Bool) (cs : List Char) : Decimal × Nat :=
  let whole := cs.takeWhile Char.isDigit
  let fraction := fractionDigits (cs.drop whole.length)
  let length := whole.length + (if fraction.isEmpty then 0 else fraction.length + 1)
  let digits := Nat.ofDigitChars 10 (whole ++ fraction) 0
  match exponentPart (cs.drop length) with
  | some (below, power, part) =>
    let power : Int := Nat.ofDigitChars 10 power 0
    (⟨negative, digits, (if below then -power else power) - fraction.length⟩, length + part)
  | none => (⟨negative, digits, -fraction.length⟩, length)

/-- The length of the part of a quoted text that is complete, from behind its opening quote up to a
closing quote, to the end, or to a backslash without a character on its line. -/
def bodyLength : List Char → Nat
  | [] => 0
  | '\\' :: c :: rest => if c = '\n' then 0 else bodyLength rest + 2
  | c :: rest => if c = '"' ∨ c = '\\' then 0 else bodyLength rest + 1

/-- The text between two quotes, where a backslash stands before a quote or another backslash
only. -/
def unescape? : List Char → Option (List Char)
  | [] => some []
  | '\\' :: c :: rest => if c = '"' ∨ c = '\\' then (unescape? rest).map (c :: ·) else none
  | c :: rest => if c = '\\' then none else (unescape? rest).map (c :: ·)

/-- What stands behind an opening quote: a text with its closing quote, or as much of one as is
complete. -/
def scanText (cs : List Char) : Mark × Nat :=
  let length := bodyLength cs
  if (cs.drop length).head? = some '"' then
    match unescape? (cs.take length) with
    | some s => (.token (.text (String.ofList s)), length + 1)
    | none => (.fault, length + 1)
  else (.fault, length)

/-- What stands at the head of a text, given as its first character and the others, and how many of
the others belong to it. -/
def scan (c : Char) (cs : List Char) : Mark × Nat :=
  if isBlank c then (.blank, (cs.takeWhile isBlank).length)
  else if c = '#' then (.blank, (cs.takeWhile (· != '\n')).length)
  else if c = '\n' then (.token .newline, (cs.takeWhile (· == '\n')).length)
  else if isNameStart c then
    let others := cs.takeWhile isNameChar
    (.token (word (String.ofList (c :: others))), others.length)
  else if c.isDigit then
    let (number, length) := scanNumber false (c :: cs)
    (.token (.number number.nearest), length - 1)
  else if c = '-' then
    match cs with
    | '>' :: _ => (.token .arrow, 1)
    | d :: _ =>
      if d.isDigit then
        let (number, length) := scanNumber true cs
        (.token (.number number.nearest), length)
      else (.fault, 0)
    | [] => (.fault, 0)
  else
    match c with
    | '"' => scanText cs
    | '.' => (.token .dot, 0)
    | '(' => (.token .openParen, 0)
    | ')' => (.token .closeParen, 0)
    | '[' => (.token .openBracket, 0)
    | ']' => (.token .closeBracket, 0)
    | ',' => (.token .comma, 0)
    | '=' => (.token .equals, 0)
    | _ => (.fault, 0)

/-- The tokens and the faults of a text, each in order. -/
structure Lexed where
  lexemes : List Lexeme
  faults : List Located
deriving DecidableEq, Inhabited

/-- The message for text that starts no token. -/
def faultMessage (cs : List Char) : String :=
  "unexpected character: " ++ Text.quoted (String.ofList cs)

/-- The tokens and faults of a text that begins at an offset. Every piece has a character, so the
length of the text is fuel enough. -/
def lexFrom : (fuel : Nat) → (offset : Nat) → List Char → Lexed
  | _, _, [] => ⟨[], []⟩
  | 0, _, _ => ⟨[], []⟩
  | fuel + 1, offset, c :: cs =>
    let (mark, others) := scan c cs
    let piece := c :: cs.take others
    let stop := offset + Text.byteLength piece
    let lexed := lexFrom fuel stop (cs.drop others)
    match mark with
    | .blank => lexed
    | .token t => { lexed with lexemes := ⟨t, ⟨offset, stop⟩⟩ :: lexed.lexemes }
    | .fault => { lexed with faults := ⟨faultMessage piece, ⟨offset, stop⟩⟩ :: lexed.faults }

/-- The tokens and faults of a text. -/
def lex (source : String) : Lexed :=
  let cs := source.toList
  lexFrom cs.length 0 cs

end ShapeFlow.Sketch
