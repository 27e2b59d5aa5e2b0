import ShapeFlow.Json.Numeral
import ShapeFlow.Text.Bytes

/-!
# Reading JSON as far as it goes

A text is read into a tree that keeps fields in their order, repeated ones included, and numerals
as they are written. Where the text stops being JSON the tree has a broken end that remembers the
fault. Whoever walks the tree in its order therefore meets the first problem of the text first,
be it a broken end or a value of the wrong form.

Some parts are judged differently when their value is needed and when they are only passed over:
an unpaired surrogate escape and a numeral that ends early are the two cases. A broken end
remembers both judgements.

* `Tree.read`: the tree of a text and what follows it.
-/

namespace ShapeFlow.Json

/-- Why a text is refused. -/
inductive Fault where
  /-- The text ends too early. -/
  | ended
  /-- The text is not JSON. -/
  | malformed
  /-- The text is JSON of another form than the one asked for. -/
  | wrongForm
deriving DecidableEq, Repr

/-- The fault at a broken end, for a reader that needs the value and for one that passes over. -/
structure Halt where
  needed : Fault
  passed : Fault
deriving DecidableEq, Repr

/-- A JSON text as far as it could be read. Only the last part of a container may be broken, and a
container that has not been closed says why. A string is absent when it holds an unpaired
surrogate. -/
inductive Tree where
  | null
  | bool (b : Bool)
  | number (n : Numeral)
  | text (s : Option String)
  | array (items : List Tree) (stop : Option Halt)
  | object (fields : List (Option String × Tree)) (stop : Option Halt)
  | broken (halt : Halt)
deriving Inhabited

/-- The same fault for both kinds of reader. -/
def Fault.halt (fault : Fault) : Halt := ⟨fault, fault⟩

/-- A character or code unit of a string as it is written. -/
inductive Piece where
  | char (c : Char)
  | unit (n : Nat)
deriving DecidableEq, Repr

namespace Piece

/-- Whether a code unit is the first half of a pair. -/
def isHigh (n : Nat) : Bool := 0xd800 ≤ n && n < 0xdc00

/-- Whether a code unit is the second half of a pair. -/
def isLow (n : Nat) : Bool := 0xdc00 ≤ n && n < 0xe000

/-- The characters of a string, unless a half of a pair stands alone. -/
def join? : List Piece → Option (List Char)
  | [] => some []
  | .char c :: rest => (join? rest).map (c :: ·)
  | .unit n :: .unit m :: rest =>
    if isHigh n then
      if isLow m then
        (join? rest).map (Char.ofNat (0x10000 + (n - 0xd800) * 0x400 + (m - 0xdc00)) :: ·)
      else none
    else if isLow n then none
    else (join? (.unit m :: rest)).map (Char.ofNat n :: ·)
  | .unit n :: rest =>
    if isHigh n || isLow n then none else (join? rest).map (Char.ofNat n :: ·)

/-- The pieces of an unfinished string without a first half at its end, which could still have
become part of a pair. -/
def settled (pieces : List Piece) : List Piece :=
  match pieces.getLast? with
  | some (.unit n) => if isHigh n then pieces.dropLast else pieces
  | _ => pieces

end Piece

namespace Tree

/-- Whether JSON allows the character between two tokens. -/
def isSpace (c : Char) : Bool := c == ' ' || c == '\n' || c == '\t' || c == '\r'

/-- The text from the next token on. -/
def skipSpace (cs : List Char) : List Char := cs.dropWhile isSpace

/-- The value of a digit in base 16. -/
def hexDigit? (c : Char) : Option Nat :=
  if '0' ≤ c ∧ c ≤ '9' then some (c.toNat - '0'.toNat)
  else if 'a' ≤ c ∧ c ≤ 'f' then some (c.toNat - 'a'.toNat + 10)
  else if 'A' ≤ c ∧ c ≤ 'F' then some (c.toNat - 'A'.toNat + 10)
  else none

/-- The code unit of four digits. -/
def codeUnit? (a b c d : Char) : Option Nat := do
  return ((← hexDigit? a) * 16 + (← hexDigit? b)) * 256 + (← hexDigit? c) * 16 + (← hexDigit? d)

/-- The character that a one-letter escape stands for. -/
def escaped? : Char → Option Char
  | '"' => some '"'
  | '\\' => some '\\'
  | '/' => some '/'
  | 'b' => some '\x08'
  | 'f' => some '\x0c'
  | 'n' => some '\n'
  | 'r' => some '\r'
  | 't' => some '\t'
  | _ => none

/-- The fault of a code unit that could not be read: four bytes have to be left for it. -/
def codeUnitFault (cs : List Char) : Fault :=
  if Text.byteLength cs < 4 then .ended else .malformed

/-- The pieces of a string from behind its opening quote, and what follows the closing one. -/
def scanText : List Char → List Piece × Except Fault (List Char)
  | [] => ([], .error .ended)
  | c :: rest =>
    if c = '"' then ([], .ok rest)
    else if c = '\\' then
      match rest with
      | [] => ([], .error .ended)
      | letter :: rest =>
        if letter = 'u' then
          match rest with
          | h1 :: h2 :: h3 :: h4 :: rest =>
            match codeUnit? h1 h2 h3 h4 with
            | some n => let (pieces, after) := scanText rest; (.unit n :: pieces, after)
            | none => ([], .error .malformed)
          | _ => ([], .error (codeUnitFault rest))
        else
          match escaped? letter with
          | some plain => let (pieces, after) := scanText rest; (.char plain :: pieces, after)
          | none => ([], .error .malformed)
    else if c.toNat < 0x20 then ([], .error .malformed)
    else let (pieces, after) := scanText rest; (.char c :: pieces, after)

/-- The halt of a string that was not closed. -/
def textHalt (pieces : List Piece) (fault : Fault) : Halt :=
  ⟨if (Piece.join? (Piece.settled pieces)).isNone then .malformed else fault, fault⟩

/-- The string from behind its opening quote, and what follows the closing one. -/
def readText (cs : List Char) : Except Halt (Option String × List Char) :=
  match scanText cs with
  | (pieces, .ok rest) => .ok ((Piece.join? pieces).map String.ofList, rest)
  | (pieces, .error fault) => .error (textHalt pieces fault)

/-- The halt where a digit is missing: a reader that needs the value tells the end of the text
apart. -/
def digitHalt (cs : List Char) : Halt := ⟨if cs.isEmpty then .ended else .malformed, .malformed⟩

/-- One digit or more, and what follows them. -/
def readDigits (cs : List Char) : Except Halt (List Char × List Char) :=
  let digits := cs.takeWhile Char.isDigit
  if digits.isEmpty then .error (digitHalt cs) else .ok (digits, cs.dropWhile Char.isDigit)

/-- The whole part of a numeral: zero alone, or digits that do not begin with zero. -/
def readWhole (cs : List Char) : Except Halt (List Char × List Char) := do
  let (digits, rest) ← readDigits cs
  if digits.head? = some '0' ∧ 1 < digits.length then .error Fault.malformed.halt
  else .ok (digits, rest)

/-- The fraction of a numeral, if there is one. -/
def readFraction : List Char → Except Halt (List Char × List Char)
  | '.' :: rest => readDigits rest
  | cs => .ok ([], cs)

/-- The sign and the digits of an exponent part from behind its letter. -/
def readPower (cs : List Char) : Except Halt ((Bool × List Char) × List Char) := do
  let (negative, cs) := match cs with
    | '+' :: rest => (false, rest)
    | '-' :: rest => (true, rest)
    | _ => (false, cs)
  let (digits, rest) ← readDigits cs
  .ok ((negative, digits), rest)

/-- A numeral and what follows it. -/
def readNumeral (cs : List Char) : Except Halt (Numeral × List Char) := do
  let (negative, cs) := match cs with
    | '-' :: rest => (true, rest)
    | _ => (false, cs)
  let (whole, cs) ← readWhole cs
  let (fraction, cs) ← readFraction cs
  match cs with
  | c :: rest =>
    if c = 'e' ∨ c = 'E' then do
      let (power, rest) ← readPower rest
      .ok (⟨negative, whole, fraction, some power⟩, rest)
    else .ok (⟨negative, whole, fraction, none⟩, cs)
  | [] => .ok (⟨negative, whole, fraction, none⟩, cs)

/-- What follows a word that has to stand here. -/
def readWord : List Char → List Char → Except Fault (List Char)
  | [], cs => .ok cs
  | _ :: _, [] => .error .ended
  | w :: word, c :: cs => if w = c then readWord word cs else .error .malformed

/-- A tree with nothing behind it that could be read. -/
def halted {α : Type} (halt : Halt) : Tree × Option α := (.broken halt, none)

/-- A scalar by its first character. -/
def readScalar (cs : List Char) : Tree × Option (List Char) :=
  match cs with
  | [] => halted Fault.ended.halt
  | c :: rest =>
    let word (letters : String) (tree : Tree) : Tree × Option (List Char) :=
      match readWord letters.toList rest with
      | .ok rest => (tree, some rest)
      | .error fault => halted fault.halt
    if c = '"' then
      match readText rest with
      | .ok (s, rest) => (.text s, some rest)
      | .error halt => halted halt
    else if c = '-' ∨ c.isDigit then
      match readNumeral cs with
      | .ok (n, rest) => (.number n, some rest)
      | .error halt => halted halt
    else if c = 'n' then word "ull" .null
    else if c = 't' then word "rue" (.bool true)
    else if c = 'f' then word "alse" (.bool false)
    else halted Fault.malformed.halt

mutual

/-- The tree at the head of a text and what follows it. Two steps of fuel are spent for a character
at most. -/
def readTree : Nat → List Char → Tree × Option (List Char)
  | 0, _ => halted Fault.malformed.halt
  | fuel + 1, cs =>
    match skipSpace cs with
    | '[' :: rest =>
      match skipSpace rest with
      | [] => (.array [] (some Fault.ended.halt), none)
      | ']' :: rest => (.array [] none, some rest)
      | rest => let (items, stop, after) := readItems fuel rest; (.array items stop, after)
    | '\x7b' :: rest =>
      match skipSpace rest with
      | [] => (.object [] (some Fault.ended.halt), none)
      | '\x7d' :: rest => (.object [] none, some rest)
      | rest => let (fields, stop, after) := readFields fuel rest; (.object fields stop, after)
    | cs => readScalar cs

/-- The items of an array from the next one on. -/
def readItems : Nat → List Char → List Tree × Option Halt × Option (List Char)
  | 0, _ => ([], some Fault.malformed.halt, none)
  | fuel + 1, cs =>
    match readTree fuel cs with
    | (item, none) => ([item], none, none)
    | (item, some rest) =>
      match skipSpace rest with
      | [] => ([item], some Fault.ended.halt, none)
      | c :: rest =>
        if c = ']' then ([item], none, some rest)
        else if c = ',' then
          let (items, stop, after) := readItems fuel rest
          (item :: items, stop, after)
        else ([item], some Fault.malformed.halt, none)

/-- The fields of an object from the next one on. -/
def readFields : Nat → List Char → List (Option String × Tree) × Option Halt × Option (List Char)
  | 0, _ => ([], some Fault.malformed.halt, none)
  | fuel + 1, cs =>
    match skipSpace cs with
    | [] => ([], some Fault.ended.halt, none)
    | c :: rest =>
      if c ≠ '"' then ([], some Fault.malformed.halt, none)
      else
        match readText rest with
        | .error halt => ([], some halt, none)
        | .ok (name, rest) =>
          match skipSpace rest with
          | [] => ([(name, .broken Fault.ended.halt)], none, none)
          | c :: rest =>
            if c ≠ ':' then ([(name, .broken Fault.malformed.halt)], none, none)
            else
              match readTree fuel rest with
              | (value, none) => ([(name, value)], none, none)
              | (value, some rest) =>
                match skipSpace rest with
                | [] => ([(name, value)], some Fault.ended.halt, none)
                | c :: rest =>
                  if c = '\x7d' then ([(name, value)], none, some rest)
                  else if c = ',' then
                    let (fields, stop, after) := readFields fuel rest
                    ((name, value) :: fields, stop, after)
                  else ([(name, value)], some Fault.malformed.halt, none)

end

/-- The tree of a text, and what follows it unless the tree is broken. -/
def read (text : String) : Tree × Option (List Char) :=
  let cs := text.toList
  readTree (2 * cs.length + 2) cs

end Tree

end ShapeFlow.Json
