import ShapeFlow.Sketch.Token

/-!
# Parser combinators

A parser takes tokens from the head of a list. A choice is ordered: the second alternative is tried
only where the first one failed, from the same place on, and what succeeded is never taken back.
Every token that was looked for and not found is a miss. Misses outlive a choice that goes on
elsewhere, and a parser that succeeds all the same: if in the end there is no result, those furthest
on say what is wrong.

* `Sketch.Parser.one`: the parser of a single token, from which all others are made.
* `Sketch.Parser.or`, `Sketch.Parser.repeated`, `Sketch.Parser.separatedBy`: choices and lists.
* `Sketch.DeadEnd.furthest`: what the misses of a text come to.
-/

namespace ShapeFlow.Sketch

/-- What a parser looks for. -/
inductive Expectation where
  /-- A token, by the words for it. -/
  | token (words : String)
  /-- One of several tokens that are not named. -/
  | somethingElse
  | endOfInput
deriving DecidableEq, Repr, Inhabited

namespace Expectation

/-- An expectation as it stands in messages. -/
def render : Expectation → String
  | token words => "'" ++ words ++ "'"
  | somethingElse => "something else"
  | endOfInput => "end of input"

/-- Alternatives as they stand in messages. -/
def phrase : List Expectation → String
  | [] => somethingElse.render
  | [e] => e.render
  | [e, last] => e.render ++ ", or " ++ last.render
  | e :: es => e.render ++ ", " ++ phrase es

end Expectation

/-- A token that was not found: the tokens from its place on, and what was looked for there. -/
structure Miss where
  rest : List Lexeme
  expected : Expectation
deriving DecidableEq, Inhabited

/-- What a parser makes of some tokens. -/
structure Reply (α : Type) where
  /-- The result and the tokens behind it, if the parser succeeds. -/
  value : Option (α × List Lexeme)
  /-- What was not found on the way, in order. -/
  misses : List Miss

namespace Reply

variable {α β : Type}

/-- The reply with earlier misses. -/
def after (earlier : List Miss) (reply : Reply α) : Reply α :=
  { reply with misses := earlier ++ reply.misses }

/-- Goes on behind a result. -/
def bind (reply : Reply α) (next : α → List Lexeme → Reply β) : Reply β :=
  match reply with
  | ⟨some (a, rest), misses⟩ => (next a rest).after misses
  | ⟨none, misses⟩ => ⟨none, misses⟩

/-- Goes back and on if there is no result. -/
def orElse (reply : Reply α) (other : Unit → Reply α) : Reply α :=
  match reply with
  | ⟨some result, misses⟩ => ⟨some result, misses⟩
  | ⟨none, misses⟩ => (other ()).after misses

/-- Another result in the place of one. -/
def map (f : α → β) (reply : Reply α) : Reply β :=
  ⟨reply.value.map fun (a, rest) => (f a, rest), reply.misses⟩

end Reply

/-- The bytes from the first to the last token of a text of a given size. -/
def coveredSpan (size : Nat) (lexemes : List Lexeme) : Span :=
  match lexemes.head?, lexemes.getLast? with
  | some first, some last => ⟨first.span.start, last.span.stop⟩
  | _, _ => ⟨size, size⟩

/-- A parser: what it makes of tokens of a text of a given size. -/
abbrev Parser (α : Type) : Type := (size : Nat) → List Lexeme → Reply α

namespace Parser

variable {α β γ : Type}

/-- One token, if it is accepted. -/
def one (accept : Lexeme → Option α) (expected : Expectation) : Parser α := fun _ ts =>
  match ts with
  | [] => ⟨none, [⟨[], expected⟩]⟩
  | l :: rest =>
    match accept l with
    | some a => ⟨some (a, rest), []⟩
    | none => ⟨none, [⟨l :: rest, expected⟩]⟩

/-- A token that is given. -/
def just (t : Token) : Parser Lexeme :=
  one (fun l => if l.token = t then some l else none) (.token t.render)

/-- A token of one of the kinds that a function picks. -/
def select (pick : Lexeme → Option α) : Parser α := one pick .somethingElse

/-- The end of the text. -/
def finish : Parser Unit := fun _ ts =>
  if ts.isEmpty then ⟨some ((), []), []⟩ else ⟨none, [⟨ts, .endOfInput⟩]⟩

/-- Another result in the place of one. -/
def map (f : α → β) (p : Parser α) : Parser β := fun size ts => (p size ts).map f

/-- Another result in the place of one, from its bytes as well. -/
def mapWith (f : α → Span → β) (p : Parser α) : Parser β := fun size ts =>
  (p size ts).bind fun a rest =>
    ⟨some (f a (coveredSpan size (ts.take (ts.length - rest.length))), rest), []⟩

/-- One parser and another behind it. -/
def andThen (p : Parser α) (q : Parser β) : Parser (α × β) := fun size ts =>
  (p size ts).bind fun a rest => (q size rest).map fun b => (a, b)

/-- One parser and another behind it, whose result is dropped. -/
def thenIgnore (p : Parser α) (q : Parser β) : Parser α := (p.andThen q).map Prod.fst

/-- One parser, whose result is dropped, and another behind it. -/
def ignoreThen (p : Parser α) (q : Parser β) : Parser β := (p.andThen q).map Prod.snd

/-- A parser between two others, whose results are dropped. -/
def delimitedBy (p : Parser α) (opening : Parser β) (closing : Parser γ) : Parser α :=
  (opening.ignoreThen p).thenIgnore closing

/-- One parser, or another where it fails. -/
def or (p q : Parser α) : Parser α := fun size ts => (p size ts).orElse fun _ => q size ts

/-- A parser, or nothing where it fails. -/
def orNot (p : Parser α) : Parser (Option α) := fun size ts =>
  ((p size ts).map some).orElse fun _ => ⟨some (none, ts), []⟩

/-- As many items as can be read, at most a given number. -/
def repeatedFrom (p : Parser α) (size : Nat) : (limit : Nat) → List Lexeme → Reply (List α)
  | 0, ts => ⟨some ([], ts), []⟩
  | limit + 1, ts =>
    match p size ts with
    | ⟨some (a, rest), misses⟩ => ((p.repeatedFrom size limit rest).map (a :: ·)).after misses
    | ⟨none, misses⟩ => ⟨some ([], ts), misses⟩

/-- As many items as can be read, and no result if there are too few. Every item takes a token, so
the tokens are a limit, with one more for the attempt that fails. -/
def repeated (least : Nat) (p : Parser α) : Parser (List α) := fun size ts =>
  (p.repeatedFrom size (ts.length + 1) ts).bind fun items rest =>
    if items.length < least then ⟨none, []⟩ else ⟨some (items, rest), []⟩

/-- As many items as can be read, at most a given number, with separators between them. A separator
with no item behind it is taken as well. -/
def separatedFrom (p : Parser α) (separator : Parser β) (size : Nat) :
    (limit : Nat) → List Lexeme → Reply (List α)
  | 0, ts => ⟨some ([], ts), []⟩
  | limit + 1, ts =>
    match p size ts with
    | ⟨some (a, rest), misses⟩ =>
      match separator size rest with
      | ⟨some (_, behind), further⟩ =>
        ((p.separatedFrom separator size limit behind).map (a :: ·)).after (misses ++ further)
      | ⟨none, further⟩ => ⟨some ([a], rest), misses ++ further⟩
    | ⟨none, misses⟩ => ⟨some ([], ts), misses⟩

/-- As many items as can be read, with separators between them; one may stand behind the last of
them. -/
def separatedBy (p : Parser α) (separator : Parser β) : Parser (List α) := fun size ts =>
  p.separatedFrom separator size (ts.length + 1) ts

end Parser

/-- Where no parser goes on: the tokens from this place on, and all that was looked for there. -/
structure DeadEnd where
  rest : List Lexeme
  expected : List Expectation
deriving DecidableEq, Inhabited

namespace DeadEnd

/-- One more miss: it replaces those before it if it is further on, and joins them at their
place. -/
def note (known : Option DeadEnd) (miss : Miss) : Option DeadEnd :=
  match known with
  | none => some ⟨miss.rest, [miss.expected]⟩
  | some place =>
    if miss.rest.length < place.rest.length then some ⟨miss.rest, [miss.expected]⟩
    else if miss.rest.length = place.rest.length ∧ miss.expected ∉ place.expected then
      some { place with expected := place.expected ++ [miss.expected] }
    else some place

/-- What misses come to, in their order. -/
def furthest (misses : List Miss) : Option DeadEnd := misses.foldl note none

/-- The words for what was found and what was looked for. -/
def message (place : DeadEnd) : String :=
  let found := match place.rest with
    | lexeme :: _ => "'" ++ lexeme.token.render ++ "'"
    | [] => Expectation.endOfInput.render
  "found " ++ found ++ " expected " ++ Expectation.phrase place.expected

/-- The bytes of the token that was found, or the empty range at the end of the text. -/
def span (place : DeadEnd) (size : Nat) : Span :=
  match place.rest with
  | lexeme :: _ => lexeme.span
  | [] => ⟨size, size⟩

end DeadEnd

end ShapeFlow.Sketch
