import ShapeFlow.Proofs.Spacing
import ShapeFlow.Report.Dot

/-!
# Quoted names

* `Dot.quote_eq`: the character loop and the chain of replacements write the same.
* `Dot.lex_quote`: **a quoted name is one text token** of a sketch.
* `Dot.untilQuote_quote`: whoever lets a backslash protect the next character meets the closing
  quote where the name ends, and not before.
-/

namespace ShapeFlow.Dot

open Sketch

/-! ## Escaped characters -/

/-- A character as it stands in quotes. -/
def escaped (c : Char) : List Char := if c = '"' ∨ c = '\\' then ['\\', c] else [c]

variable {cs body rest : List Char}

theorem toList_replace (c : Char) (new text : String) :
    (replace c new text).toList =
      text.toList.flatMap (fun d => if d = c then new.toList else [d]) :=
  String.toList_ofList

/-- The order of the replacements matters: the backslashes that protect quotes stay as they are. -/
theorem toList_escape (s : String) : (escape s).toList = s.toList.flatMap escaped := by
  rw [escape, toList_replace, toList_replace, List.flatMap_assoc]
  refine List.flatMap_congr fun c _ => ?_
  unfold escaped
  -- A doubled backslash has no quote in it, so the second replacement leaves it alone.
  by_cases hslash : c = '\\'
  · subst hslash
    decide
  · by_cases hquote : c = '"'
    · subst hquote
      decide
    · simp [hslash, hquote]

theorem toList_quoteLoop (cs : List Char) (out : String) :
    (cs.foldl (fun out c => (if c = '"' ∨ c = '\\' then out.push '\\' else out).push c) out).toList
      = out.toList ++ cs.flatMap escaped := by
  induction cs generalizing out with
  | nil => rw [List.foldl_nil, List.flatMap_nil, List.append_nil]
  | cons c cs ih =>
    rw [List.foldl_cons, ih, List.flatMap_cons, ← List.append_assoc]
    unfold escaped
    split <;> simp [String.toList_push]

/-- **A quoted name is the escaped name in quotes.** -/
theorem quote_eq (s : String) : quote s = "\"" ++ escape s ++ "\"" := by
  apply String.toList_injective
  rw [quote, String.toList_push, toList_quoteLoop, String.toList_append, String.toList_append,
    toList_escape]
  rfl

theorem toList_quote (s : String) : (quote s).toList = '"' :: ((escape s).toList ++ ['"']) := by
  rw [quote_eq, String.toList_append, String.toList_append]
  rfl

/-! ## Escaped texts as bodies of quoted ones -/

theorem isBody_append (h : IsBody body) (hcs : IsBody cs) : IsBody (body ++ cs) := by
  induction h with
  | nil => exact hcs
  | plain hquote hslash _ ih => exact .plain hquote hslash ih
  | escape hline _ ih => exact .escape hline ih

/-- Whether a character needs no backslash. -/
def isPlain (c : Char) : Bool := c != '"' && c != '\\'

/-- Characters that need no backslash are a body. -/
theorem isBody_of_plain (h : cs.all isPlain = true) : IsBody cs := by
  induction cs with
  | nil => exact .nil
  | cons c cs ih =>
    rw [List.all_cons, Bool.and_eq_true, isPlain, Bool.and_eq_true, bne_iff_ne, bne_iff_ne] at h
    exact .plain h.1.1 h.1.2 (ih h.2)

theorem isBody_intercalate {separator : List Char} {pieces : List (List Char)}
    (hseparator : IsBody separator) (h : ∀ piece ∈ pieces, IsBody piece) :
    IsBody (separator.intercalate pieces) := by
  induction pieces with
  | nil => exact .nil
  | cons piece pieces ih =>
    obtain ⟨hpiece, hpieces⟩ := List.forall_mem_cons.1 h
    cases pieces with
    | nil => rwa [List.intercalate_singleton]
    | cons next pieces =>
      rw [List.intercalate_cons_cons]
      exact isBody_append (isBody_append hpiece hseparator) (ih hpieces)

theorem isBody_escaped (cs : List Char) : IsBody (cs.flatMap escaped) := by
  induction cs with
  | nil => exact .nil
  | cons c cs ih =>
    rw [List.flatMap_cons]
    unfold escaped
    split
    · next h => exact .escape (by rcases h with rfl | rfl <;> decide) ih
    · next h =>
      rw [not_or] at h
      exact .plain h.1 h.2 ih

theorem isBody_escape (s : String) : IsBody (escape s).toList := by
  rw [toList_escape]
  exact isBody_escaped _

/-- Escaped characters stand for themselves. -/
theorem isUnescaped_escaped (cs : List Char) : IsUnescaped (cs.flatMap escaped) cs := by
  induction cs with
  | nil => exact .nil
  | cons c cs ih =>
    rw [List.flatMap_cons]
    unfold escaped
    split
    · next h => exact .escape h ih
    · next h => exact .plain (fun hslash => h (.inr hslash)) ih

/-- A quoted name matches the rule of texts. -/
theorem matches_quote (s : String) : Matches (quote s).toList (.token (.text s)) := by
  have h : IsUnescaped (escape s).toList s.toList := by
    rw [toList_escape]
    exact isUnescaped_escaped _
  have htext := Matches.text (isBody_escape s) h
  rwa [← toList_quote, String.ofList_toList] at htext

/-- **A quoted name is one text token**, from the first byte to the last. -/
theorem lex_quote (s : String) :
    lex (quote s) = ⟨[⟨.text s, ⟨0, (quote s).utf8ByteSize⟩⟩], []⟩ := by
  have h := matches_quote s
  rw [lex, ← byteLength_toList]
  rw [toList_quote] at h ⊢
  have hread := lexFrom_token ((escape s).toList.length + 1) 0 h parted_nil
  rw [List.append_nil, lexFrom, Nat.zero_add] at hread
  rwa [List.length_cons, List.length_append, List.length_singleton]

theorem quote_injective : Function.Injective quote := by
  intro s t hst
  have h := lex_quote s
  rw [hst, lex_quote t] at h
  obtain ⟨hlexemes, -⟩ := Lexed.mk.inj h
  exact (Token.text.inj (Lexeme.mk.inj (List.cons.inj hlexemes).1).1).symm

/-! ## The closing quote -/

/-- What stands in front of the first quote that no backslash protects, and what stands behind. -/
def untilQuote : List Char → Option (List Char × List Char)
  | [] => none
  | '"' :: rest => some ([], rest)
  | '\\' :: c :: rest =>
    (untilQuote rest).map fun (body, behind) => ('\\' :: c :: body, behind)
  | c :: rest => (untilQuote rest).map fun (body, behind) => (c :: body, behind)

/-- **A body ends at its closing quote**, whatever follows. -/
theorem untilQuote_body (h : IsBody body) :
    untilQuote (body ++ '"' :: rest) = some (body, rest) := by
  induction h with
  | nil => rfl
  | plain hquote hslash _ ih => simp [untilQuote, hslash, ih]
  | escape _ _ ih => simp [untilQuote, ih]

theorem untilQuote_quote (s : String) (rest : List Char) :
    untilQuote ((quote s).toList.tail ++ rest) = some ((escape s).toList, rest) := by
  rw [toList_quote, List.tail_cons, List.append_assoc]
  exact untilQuote_body (isBody_escape s)

theorem length_of_untilQuote {text : List Char} (h : untilQuote text = some (body, rest)) :
    rest.length < text.length := by
  fun_induction untilQuote text generalizing body rest with
  | case1 => cases h
  | case2 behind =>
    obtain ⟨-, rfl⟩ := Prod.mk.inj (Option.some.inj h)
    exact Nat.lt_succ_self _
  | case3 c behind ih =>
    obtain ⟨⟨inner, last⟩, hfound, heq⟩ := Option.map_eq_some_iff.1 h
    obtain ⟨-, rfl⟩ := Prod.mk.inj heq
    have hlt := ih hfound
    simp only [List.length_cons]
    omega
  | case4 c behind _ _ ih =>
    obtain ⟨⟨inner, last⟩, hfound, heq⟩ := Option.map_eq_some_iff.1 h
    obtain ⟨-, rfl⟩ := Prod.mk.inj heq
    exact Nat.lt_succ_of_lt (ih hfound)

end ShapeFlow.Dot
