import ShapeFlow.Proofs.LongestMatch
import Mathlib.Data.List.Pairwise

/-!
# The pieces of a text

Reading cuts a text into tiles without gap or overlap: skipped pieces, tokens and faults.

* `Sketch.Tiled`: tiles one behind the other up to the end of a text, each on what is read there.
* `Sketch.exists_tiled`: **reading goes on to the end of the text**; its tokens and faults are those
  of the tiles.
* `Sketch.Tiled.spans`: merged by position, the bytes of tokens and faults are those of the tiles
  that are not skipped.
* `Sketch.lex_loses_nothing`: **every byte belongs to one token, to one fault or to skipped text**,
  and every token is the longest match at its place.
-/

namespace ShapeFlow.Sketch

open Text

/-- Whether a byte is in a range. -/
def Span.Holds (span : Span) (i : Nat) : Prop := span.start ≤ i ∧ i < span.stop

/-- Whether two ranges share no byte. -/
def Span.Apart (a b : Span) : Prop := a.stop ≤ b.start ∨ b.stop ≤ a.start

/-- A piece of a text: what it is, its characters, and the bytes that it covers. -/
structure Tile where
  mark : Mark
  piece : List Char
  span : Span

namespace Tile

/-- The token of a tile. -/
def lexeme? (tile : Tile) : Option Lexeme :=
  match tile.mark with
  | .token t => some ⟨t, tile.span⟩
  | _ => none

/-- The fault of a tile. -/
def fault? (tile : Tile) : Option Located :=
  match tile.mark with
  | .fault => some ⟨faultMessage tile.piece, tile.span⟩
  | _ => none

/-- Whether a tile is not skipped. -/
def counts (tile : Tile) : Bool := tile.mark != .blank

end Tile

/-- Tiles lie one behind the other from an offset to the end of a text, each on what is read
there. -/
inductive Tiled : Nat → List Char → List Tile → Prop
  | done {offset : Nat} : Tiled offset [] []
  | tile {offset : Nat} {mark : Mark} {piece rest : List Char} {tiles : List Tile} :
      piece ≠ [] → Reads piece rest mark → Tiled (offset + byteLength piece) rest tiles →
        Tiled offset (piece ++ rest)
          (⟨mark, piece, ⟨offset, offset + byteLength piece⟩⟩ :: tiles)

/-- The bytes of the tokens and of the faults, merged by position. -/
def Lexed.spans (lexed : Lexed) : List Span :=
  (lexed.lexemes.map (·.span)).merge (lexed.faults.map (·.span)) (fun a b => a.start ≤ b.start)

/-- Some characters stand at some bytes of a text, in front of others. -/
def StandsBefore (source piece after : List Char) (span : Span) : Prop :=
  ∃ before, source = before ++ (piece ++ after) ∧
    span = ⟨byteLength before, byteLength before + byteLength piece⟩

/-- What is skipped: blanks, or a comment up to the end of its line. -/
def Skipped (piece after : List Char) : Prop :=
  (∀ c ∈ piece, c = ' ' ∨ c = '\t' ∨ c = '\r') ∨
    ∃ comment, piece = '#' :: comment ∧ '\n' ∉ comment ∧ ∀ c ∈ after.head?, c = '\n'

variable {offset fuel i : Nat} {cs piece after : List Char} {tile : Tile} {tiles : List Tile}
  {mark : Mark}

/-! ## From reading to tiles -/

theorem byteLength_pos (h : cs ≠ []) : 0 < byteLength cs := by
  obtain ⟨c, rest, rfl⟩ := List.exists_cons_of_ne_nil h
  have hc := c.utf8Size_pos
  rw [byteLength]
  omega

/-- **Reading goes on to the end of a text**, since every piece has a character. -/
theorem exists_tiled (offset : Nat) (hfuel : cs.length ≤ fuel) :
    ∃ tiles, Tiled offset cs tiles ∧ lexFrom fuel offset cs =
      ⟨tiles.filterMap Tile.lexeme?, tiles.filterMap Tile.fault?⟩ := by
  induction fuel generalizing offset cs with
  | zero =>
    obtain rfl := List.eq_nil_of_length_eq_zero (Nat.le_zero.1 hfuel)
    exact ⟨[], .done, rfl⟩
  | succ fuel ih =>
    cases cs with
    | nil => exact ⟨[], .done, rfl⟩
    | cons c cs =>
      rcases hscan : scan c cs with ⟨mark, n⟩
      have hrest : (cs.drop n).length ≤ fuel := by
        rw [List.length_drop]
        rw [List.length_cons] at hfuel
        omega
      obtain ⟨tiles, htiles, hlex⟩ := ih (offset + byteLength (c :: cs.take n)) hrest
      have hsplit : c :: cs = (c :: cs.take n) ++ cs.drop n := by
        rw [List.cons_append, List.take_append_drop]
      refine ⟨⟨mark, c :: cs.take n, ⟨offset, offset + byteLength (c :: cs.take n)⟩⟩ :: tiles,
        ?_, ?_⟩
      · rw [hsplit]
        exact .tile (List.cons_ne_nil _ _) (scan_reads hscan) htiles
      · simp only [lexFrom, hscan, hlex]
        cases mark <;> rfl

/-! ## Where tiles lie -/

namespace Tiled

theorem le_start (h : Tiled offset cs tiles) : ∀ tile ∈ tiles, offset ≤ tile.span.start := by
  induction h with
  | done => simp
  | tile _ _ _ ih =>
    rintro tile htile
    rcases List.mem_cons.1 htile with rfl | htile
    · exact Nat.le_refl _
    · have hle := ih tile htile
      omega

/-- Tiles do not overlap. -/
theorem pairwise (h : Tiled offset cs tiles) :
    tiles.Pairwise fun a b => a.span.stop ≤ b.span.start := by
  induction h with
  | done => exact .nil
  | tile _ _ htiles ih => exact .cons htiles.le_start ih

/-- Tiles leave no gap. -/
theorem exists_holds (h : Tiled offset cs tiles) (hi : offset ≤ i)
    (hlt : i < offset + byteLength cs) : ∃ tile ∈ tiles, tile.span.Holds i := by
  induction h with
  | done =>
    rw [byteLength] at hlt
    omega
  | @tile offset mark piece rest tiles _ _ _ ih =>
    rw [byteLength_append] at hlt
    by_cases hpiece : i < offset + byteLength piece
    · exact ⟨_, List.mem_cons_self, hi, hpiece⟩
    · obtain ⟨tile, htile, hholds⟩ := ih (by omega) (by omega)
      exact ⟨tile, List.mem_cons_of_mem _ htile, hholds⟩

/-- Every tile lies on what is read at its place. -/
theorem reads (h : Tiled offset cs tiles) (before : List Char)
    (hoffset : offset = byteLength before) :
    ∀ tile ∈ tiles, tile.piece ≠ [] ∧
      ∃ after, StandsBefore (before ++ cs) tile.piece after tile.span ∧
        Reads tile.piece after tile.mark := by
  induction h generalizing before with
  | done => simp
  | @tile offset mark piece rest tiles hne hreads _ ih =>
    rintro tile htile
    rcases List.mem_cons.1 htile with rfl | htile
    · exact ⟨hne, rest, ⟨before, rfl, by rw [hoffset]⟩, hreads⟩
    · have hstop : offset + byteLength piece = byteLength (before ++ piece) := by
        rw [byteLength_append, hoffset]
      rw [← List.append_assoc]
      exact ih (before ++ piece) hstop tile htile

end Tiled

/-! ## Tokens and faults, merged by position -/

section Merge

variable {α : Type} {le : α → α → Bool} {a : α} {xs ys : List α}

theorem merge_cons_left (h : ∀ b ∈ ys, le a b = true) :
    (a :: xs).merge ys le = a :: xs.merge ys le := by
  cases ys with
  | nil => rw [List.merge_right, List.merge_right]
  | cons b ys => rw [List.cons_merge_cons, if_pos (h b List.mem_cons_self)]

theorem merge_cons_right (h : ∀ b ∈ xs, le b a = false) :
    xs.merge (a :: ys) le = a :: xs.merge ys le := by
  cases xs with
  | nil => rw [List.nil_merge, List.nil_merge]
  | cons b xs =>
    rw [List.cons_merge_cons, if_neg]
    simp [h b List.mem_cons_self]

end Merge

theorem Tile.span_of_lexeme? {lexeme : Lexeme} (h : tile.lexeme? = some lexeme) :
    tile.mark = .token lexeme.token ∧ tile.span = lexeme.span := by
  unfold lexeme? at h
  split at h
  · next t ht =>
    obtain rfl := Option.some.inj h
    exact ⟨ht, rfl⟩
  · cases h

theorem Tile.span_of_fault? {fault : Located} (h : tile.fault? = some fault) :
    tile.mark = .fault ∧ faultMessage tile.piece = fault.message ∧ tile.span = fault.span := by
  unfold fault? at h
  split at h
  · next ht =>
    obtain rfl := Option.some.inj h
    exact ⟨ht, rfl, rfl⟩
  · cases h

/-- **Tokens and faults, merged by position, are the tiles that are not skipped.** -/
theorem Tiled.spans (h : Tiled offset cs tiles) :
    Lexed.spans ⟨tiles.filterMap Tile.lexeme?, tiles.filterMap Tile.fault?⟩ =
      (tiles.filter Tile.counts).map (·.span) := by
  unfold Lexed.spans
  dsimp only
  induction h with
  | done => exact List.nil_merge []
  | @tile offset mark piece rest tiles hne _ htiles ih =>
    -- all that follows starts behind this tile
    have hpos := byteLength_pos hne
    have hstart : ∀ tile ∈ tiles, offset < tile.span.start := by
      intro tile htile
      have hle := htiles.le_start tile htile
      omega
    cases mark with
    | blank => exact ih
    | token t =>
      change (⟨offset, _⟩ :: (tiles.filterMap Tile.lexeme?).map (·.span)).merge
        ((tiles.filterMap Tile.fault?).map (·.span)) _ = _
      rw [merge_cons_left]
      · exact congrArg (_ :: ·) ih
      · intro span hspan
        obtain ⟨fault, hfault, rfl⟩ := List.mem_map.1 hspan
        obtain ⟨tile, htile, hof⟩ := List.mem_filterMap.1 hfault
        obtain ⟨-, -, heq⟩ := Tile.span_of_fault? hof
        have hlt := hstart tile htile
        rw [heq] at hlt
        simp only [decide_eq_true_eq]
        omega
    | fault =>
      change ((tiles.filterMap Tile.lexeme?).map (·.span)).merge
        (⟨offset, _⟩ :: (tiles.filterMap Tile.fault?).map (·.span)) _ = _
      rw [merge_cons_right]
      · exact congrArg (_ :: ·) ih
      · intro span hspan
        obtain ⟨lexeme, hlexeme, rfl⟩ := List.mem_map.1 hspan
        obtain ⟨tile, htile, hof⟩ := List.mem_filterMap.1 hlexeme
        obtain ⟨-, heq⟩ := Tile.span_of_lexeme? hof
        have hlt := hstart tile htile
        rw [heq] at hlt
        simp only [decide_eq_false_iff_not]
        omega

/-! ## What stands in a tile -/

/-- Text is skipped up to the end of its blanks or of its line. -/
theorem Longest.skipped (h : Longest piece after .blank) : Skipped piece after := by
  obtain ⟨hmatch, hmax⟩ := h
  cases hmatch with
  | blank _ hall => exact Or.inl fun c hc => by simpa [isBlank, or_assoc] using hall c hc
  | @comment comment hall =>
    refine Or.inr ⟨comment, rfl, fun hline => hall '\n' hline rfl, fun c hc => ?_⟩
    obtain ⟨rest, rfl⟩ := List.head?_eq_some_iff.1 hc
    -- otherwise one more character would belong to the comment
    by_contra hne
    refine hmax [c] rest rfl (List.cons_ne_nil _ _) .blank (.comment fun d hd => ?_)
    rcases List.mem_append.1 hd with hd | hd
    · exact hall d hd
    · rwa [List.mem_singleton.1 hd]

/-- **A flag is a whole word.** -/
theorem Longest.whole_word {b : Bool} (h : Longest piece after (.token (.flag b))) :
    ∀ c ∈ after.head?, isNameChar c = false := by
  obtain ⟨hmatch, hmax⟩ := h
  intro c hc
  obtain ⟨rest, rfl⟩ := List.head?_eq_some_iff.1 hc
  -- otherwise it would be the beginning of a longer name
  by_contra hname
  rw [Bool.not_eq_false] at hname
  cases hmatch with
  | sign h => simp [punctuation] at h
  | yes =>
    exact hmax [c] rest rfl (List.cons_ne_nil _ _) _
      (matches_word (by decide) (by simp [hname]; decide))
  | no =>
    exact hmax [c] rest rfl (List.cons_ne_nil _ _) _
      (matches_word (by decide) (by simp [hname]; decide))

theorem Matches.of_quote {q : List Char} {t : Token} (h : Matches ('"' :: q) (.token t)) :
    ∃ body s, IsBody body ∧ IsUnescaped body s ∧ q = body ++ ['"'] := by
  cases h with
  | sign h => simp [punctuation] at h
  | unsigned h =>
    obtain ⟨first, others, heq, hdigit⟩ := h.head
    obtain ⟨rfl, -⟩ := List.cons.inj heq
    exact absurd hdigit (by decide)
  | text hbody hs => exact ⟨_, _, hbody, hs, rfl⟩
  | ident hstart => exact absurd hstart (by decide)
  | newline _ hall => exact absurd (hall '"' List.mem_cons_self) (by decide)

/-- No token stands at the head of a text that is read as a fault. -/
theorem Reads.not_token (h : Reads piece after .fault) {first rest : List Char}
    (hsplit : piece ++ after = first ++ rest) (t : Token) : ¬ Matches first (.token t) := by
  intro hfirst
  cases h with
  | stray _ hnone => exact hnone first rest hsplit _ hfirst
  | matched h =>
    obtain ⟨hmatch, -⟩ := h
    cases hmatch with
    | @wrongText body hbody hwrong =>
      cases first with
      | nil => exact not_matches_nil hfirst
      | cons c q =>
        obtain ⟨rfl, -⟩ := List.cons.inj hsplit
        obtain ⟨other, s, hother, hs, rfl⟩ := hfirst.of_quote
        have hq : body ++ '"' :: after = other ++ '"' :: rest := by simpa using hsplit
        -- both texts end at the first closing quote
        have hlength : body.length = other.length := by
          rw [← bodyLength_append hbody, hq, bodyLength_append hother]
        obtain ⟨rfl, -⟩ := List.append_inj hq hlength
        exact hwrong s hs

/-! ## Bytes of a text -/

variable {source : String} {span : Span}

theorem utf8ByteSize_ofList (cs : List Char) : (String.ofList cs).utf8ByteSize = byteLength cs := by
  induction cs with
  | nil => rfl
  | cons c rest ih =>
    rw [String.ofList_cons, String.utf8ByteSize_append, String.utf8ByteSize_singleton, ih,
      byteLength]

theorem byteLength_toList (source : String) : byteLength source.toList = source.utf8ByteSize := by
  rw [← utf8ByteSize_ofList, String.ofList_toList]

/-- A piece of a text begins and ends between characters. -/
theorem StandsBefore.isValid (h : StandsBefore source.toList piece after span) :
    span.stop ≤ source.utf8ByteSize ∧ String.Pos.Raw.IsValid source ⟨span.start⟩ ∧
      String.Pos.Raw.IsValid source ⟨span.stop⟩ := by
  obtain ⟨before, hsource, rfl⟩ := h
  obtain rfl : source = String.ofList (before ++ (piece ++ after)) := by
    rw [← hsource, String.ofList_toList]
  refine ⟨?_, ?_, ?_⟩
  · rw [utf8ByteSize_ofList, byteLength_append, byteLength_append]
    dsimp only
    omega
  · refine String.Pos.Raw.isValid_iff_exists_append.2
      ⟨String.ofList before, String.ofList (piece ++ after), String.ofList_append, ?_⟩
    rw [String.rawEndPos, utf8ByteSize_ofList]
  · refine String.Pos.Raw.isValid_iff_exists_append.2
      ⟨String.ofList (before ++ piece), String.ofList after, ?_, ?_⟩
    · rw [← String.ofList_append, List.append_assoc]
    · rw [String.rawEndPos, utf8ByteSize_ofList, byteLength_append]

/-- The tiles of a text. -/
theorem lex_tiled (source : String) : ∃ tiles, Tiled 0 source.toList tiles ∧
    lex source = ⟨tiles.filterMap Tile.lexeme?, tiles.filterMap Tile.fault?⟩ :=
  exists_tiled 0 (Nat.le_refl _)

namespace Tiled

/-- A tile stands in its text, on what is read there. -/
theorem stands (h : Tiled 0 source.toList tiles) (htile : tile ∈ tiles) : ∃ after,
    StandsBefore source.toList tile.piece after tile.span ∧ Reads tile.piece after tile.mark :=
  (h.reads [] rfl tile htile).2

theorem start_lt_stop (h : Tiled 0 source.toList tiles) (htile : tile ∈ tiles) :
    tile.span.start < tile.span.stop := by
  obtain ⟨hne, after, ⟨before, -, hspan⟩, -⟩ := h.reads [] rfl tile htile
  have hpos := byteLength_pos hne
  rw [hspan]
  dsimp only
  omega

/-- Two tiles share no byte. -/
theorem disjoint (h : Tiled offset cs tiles) {other : Tile} (htile : tile ∈ tiles)
    (hother : other ∈ tiles) (hne : tile ≠ other) : tile.span.Apart other.span := by
  have hapart : tiles.Pairwise fun a b => a.span.Apart b.span := h.pairwise.imp Or.inl
  have : Std.Symm fun a b : Tile => a.span.Apart b.span := ⟨fun _ _ => Or.symm⟩
  exact hapart.forall htile hother hne

/-- A span of the merged list is that of a tile which is not skipped. -/
theorem mem_spans_iff (h : Tiled offset cs tiles) :
    span ∈ Lexed.spans ⟨tiles.filterMap Tile.lexeme?, tiles.filterMap Tile.fault?⟩ ↔
      ∃ tile ∈ tiles, tile.mark ≠ .blank ∧ tile.span = span := by
  rw [h.spans, List.mem_map]
  constructor
  · rintro ⟨tile, htile, rfl⟩
    obtain ⟨htile, hcounts⟩ := List.mem_filter.1 htile
    exact ⟨tile, htile, by simpa [Tile.counts] using hcounts, rfl⟩
  · rintro ⟨tile, htile, hcounts, rfl⟩
    exact ⟨tile, List.mem_filter.2 ⟨htile, by simpa [Tile.counts] using hcounts⟩, rfl⟩

/-- **A byte without a span is skipped**, in a piece that shares no byte with any span. -/
theorem span_or_gap (h : Tiled 0 source.toList tiles) (hi : i < source.utf8ByteSize) :
    (∃ tile ∈ tiles, tile.mark ≠ .blank ∧ tile.span.Holds i) ∨
      ∃ piece after gap, StandsBefore source.toList piece after gap ∧ Skipped piece after ∧
        gap.Holds i ∧ ∀ tile ∈ tiles, tile.mark ≠ .blank → tile.span.Apart gap := by
  have hbytes := byteLength_toList source
  obtain ⟨tile, htile, hholds⟩ := h.exists_holds (Nat.zero_le i) (by omega)
  by_cases hblank : tile.mark = .blank
  · obtain ⟨after, hstands, hreads⟩ := h.stands htile
    rw [hblank] at hreads
    cases hreads with
    | matched hlongest =>
      refine Or.inr ⟨tile.piece, after, tile.span, hstands, hlongest.skipped, hholds, ?_⟩
      intro other hother hcounts
      refine h.disjoint hother htile ?_
      rintro rfl
      exact hcounts hblank
  · exact Or.inl ⟨tile, htile, hblank, hholds⟩

/-- **A token is the longest match at its place.** -/
theorem longest_of_mem (h : Tiled 0 source.toList tiles) {lexeme : Lexeme}
    (hlexeme : lexeme ∈ tiles.filterMap Tile.lexeme?) : ∃ piece after,
      StandsBefore source.toList piece after lexeme.span ∧
        Longest piece after (.token lexeme.token) := by
  obtain ⟨tile, htile, hlexeme⟩ := List.mem_filterMap.1 hlexeme
  obtain ⟨hmark, hspan⟩ := Tile.span_of_lexeme? hlexeme
  obtain ⟨after, hstands, hreads⟩ := h.stands htile
  rw [hspan] at hstands
  rw [hmark] at hreads
  cases hreads with
  | matched hlongest => exact ⟨tile.piece, after, hstands, hlongest⟩

/-- **No token begins where a fault lies.** -/
theorem not_token_of_mem (h : Tiled 0 source.toList tiles) {fault : Located}
    (hfault : fault ∈ tiles.filterMap Tile.fault?) : ∃ piece after,
      StandsBefore source.toList piece after fault.span ∧ fault.message = faultMessage piece ∧
        ∀ first rest, piece ++ after = first ++ rest → ∀ t, ¬ Matches first (.token t) := by
  obtain ⟨tile, htile, hfault⟩ := List.mem_filterMap.1 hfault
  obtain ⟨hmark, hmessage, hspan⟩ := Tile.span_of_fault? hfault
  obtain ⟨after, hstands, hreads⟩ := h.stands htile
  rw [hspan] at hstands
  rw [hmark] at hreads
  exact ⟨tile.piece, after, hstands, hmessage.symm, fun first rest => hreads.not_token⟩

end Tiled

/-- **Nothing of a text is lost.** The bytes of its tokens and faults, merged by position, are
disjoint, ascending and between characters, and every other byte belongs to skipped text. A token
is the longest match at its place and a flag is a whole word; where a fault lies no token begins. -/
theorem lex_loses_nothing (source : String) :
    ((lex source).spans.Pairwise fun a b => a.stop ≤ b.start) ∧
    (∀ span ∈ (lex source).spans, span.start < span.stop ∧ span.stop ≤ source.utf8ByteSize ∧
      String.Pos.Raw.IsValid source ⟨span.start⟩ ∧ String.Pos.Raw.IsValid source ⟨span.stop⟩) ∧
    (∀ i < source.utf8ByteSize, (∃ span ∈ (lex source).spans, span.Holds i) ∨
      ∃ piece after gap, StandsBefore source.toList piece after gap ∧ Skipped piece after ∧
        gap.Holds i ∧ ∀ span ∈ (lex source).spans, span.Apart gap) ∧
    (∀ lexeme ∈ (lex source).lexemes, ∃ piece after,
      StandsBefore source.toList piece after lexeme.span ∧
        Longest piece after (.token lexeme.token) ∧
          ∀ b, lexeme.token = .flag b → ∀ c ∈ after.head?, isNameChar c = false) ∧
    (∀ fault ∈ (lex source).faults, ∃ piece after,
      StandsBefore source.toList piece after fault.span ∧ fault.message = faultMessage piece ∧
        ∀ first rest, piece ++ after = first ++ rest → ∀ t, ¬ Matches first (.token t)) := by
  obtain ⟨tiles, htiles, hlex⟩ := lex_tiled source
  rw [hlex]
  refine ⟨?_, ?_, ?_, ?_, ?_⟩
  · rw [htiles.spans, List.pairwise_map]
    exact htiles.pairwise.filter Tile.counts
  · intro span hspan
    obtain ⟨tile, htile, -, rfl⟩ := htiles.mem_spans_iff.1 hspan
    obtain ⟨after, hstands, -⟩ := htiles.stands htile
    exact ⟨htiles.start_lt_stop htile, hstands.isValid⟩
  · intro i hi
    rcases htiles.span_or_gap hi with
      ⟨tile, htile, hcounts, hholds⟩ | ⟨piece, after, gap, hstands, hskipped, hholds, hapart⟩
    · exact Or.inl ⟨tile.span, htiles.mem_spans_iff.2 ⟨tile, htile, hcounts, rfl⟩, hholds⟩
    · refine Or.inr ⟨piece, after, gap, hstands, hskipped, hholds, fun span hspan => ?_⟩
      obtain ⟨tile, htile, hcounts, rfl⟩ := htiles.mem_spans_iff.1 hspan
      exact hapart tile htile hcounts
  · intro lexeme hlexeme
    obtain ⟨piece, after, hstands, hlongest⟩ := htiles.longest_of_mem hlexeme
    refine ⟨piece, after, hstands, hlongest, fun b hflag => ?_⟩
    rw [hflag] at hlongest
    exact hlongest.whole_word
  · intro fault hfault
    exact htiles.not_token_of_mem hfault

end ShapeFlow.Sketch
