import ShapeFlow.Sketch.Token
import Mathlib.Data.List.Basic

/-!
# Tokens stand in their text

* `Sketch.Stands`: some characters are what a text has at some bytes.
* `Sketch.mem_lex`: every token is what is found at the head of the text from its first byte on.
* `Sketch.stands_of_ident`: **a name is what the text has at its bytes.**
-/

namespace ShapeFlow.Sketch

/-- Some characters are what a text has at some bytes. -/
def Stands (source : List Char) (piece : List Char) (span : Span) : Prop :=
  ∃ before after, source = before ++ piece ++ after ∧
    span = ⟨Text.byteLength before, Text.byteLength (before ++ piece)⟩

variable {c : Char} {cs before : List Char} {lexeme : Lexeme} {name : String} {fuel n : Nat}

/-- A token is what is found at the head of a rest of the text, and covers the characters that
belong to it. -/
def Found (source : List Char) (lexeme : Lexeme) : Prop :=
  ∃ c cs n, scan c cs = (.token lexeme.token, n) ∧ Stands source (c :: cs.take n) lexeme.span

theorem mem_lexFrom {offset : Nat} (hoffset : offset = Text.byteLength before)
    (h : lexeme ∈ (lexFrom fuel offset cs).lexemes) : Found (before ++ cs) lexeme := by
  induction fuel generalizing offset before cs lexeme with
  | zero => cases cs <;> cases h
  | succ fuel ih =>
    cases cs with
    | nil => cases h
    | cons c cs =>
      rcases hscan : scan c cs with ⟨mark, n⟩
      -- the text splits behind the piece at its head
      have hstop : offset + Text.byteLength (c :: cs.take n) =
          Text.byteLength (before ++ c :: cs.take n) := by
        rw [Text.byteLength_append, hoffset]
      have hsplit : before ++ c :: cs = before ++ c :: cs.take n ++ cs.drop n := by
        rw [List.append_assoc, List.cons_append, List.take_append_drop]
      have hrest : ∀ l ∈ (lexFrom fuel (offset + Text.byteLength (c :: cs.take n))
          (cs.drop n)).lexemes, Found (before ++ c :: cs) l := by
        intro l hl
        rw [hsplit]
        exact ih hstop hl
      simp only [lexFrom, hscan] at h
      cases mark with
      | blank => exact hrest lexeme h
      | fault => exact hrest lexeme h
      | token t =>
        rcases List.mem_cons.1 h with rfl | h
        · refine ⟨c, cs, n, hscan, before, cs.drop n, hsplit, ?_⟩
          rw [← hstop, hoffset]
        · exact hrest lexeme h

/-- **Every token is what is found at its first byte.** -/
theorem mem_lex {source : String} (h : lexeme ∈ (lex source).lexemes) :
    Found source.toList lexeme := by
  have hfound : Found ([] ++ source.toList) lexeme := mem_lexFrom rfl h
  exact hfound

theorem take_length_takeWhile (p : Char → Bool) (cs : List Char) :
    cs.take (cs.takeWhile p).length = cs.takeWhile p :=
  (List.prefix_iff_eq_take.1 (List.takeWhile_prefix p)).symm

theorem word_eq_ident {text : String} (h : word text = .ident name) : name = text := by
  rw [word] at h
  split at h
  · cases h
  · split at h
    · cases h
    · exact (Token.ident.inj h).symm

/-- A name is found where its characters stand. -/
theorem scan_ident (h : scan c cs = (.token (.ident name), n)) : c :: cs.take n = name.toList := by
  unfold scan at h
  split at h
  · cases h
  split at h
  · cases h
  split at h
  · cases h
  split at h
  · -- the characters of a name are taken as far as they go
    obtain ⟨htoken, rfl⟩ := Prod.mk.inj h
    rw [word_eq_ident (Mark.token.inj htoken), String.toList_ofList, take_length_takeWhile]
  split at h
  · cases h
  split at h
  · split at h
    · cases h
    · split at h <;> cases h
    · cases h
  · split at h
    · rw [scanText] at h
      split at h
      · split at h <;> cases h
      · cases h
    all_goals cases h

/-- **A name is what the text has at its bytes.** -/
theorem stands_of_ident {source : String} (h : lexeme ∈ (lex source).lexemes)
    (hname : lexeme.token = .ident name) : Stands source.toList name.toList lexeme.span := by
  obtain ⟨c, cs, n, hscan, hstands⟩ := mem_lex h
  rw [hname] at hscan
  rwa [scan_ident hscan] at hstands

end ShapeFlow.Sketch
