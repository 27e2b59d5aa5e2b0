import ShapeFlow.Proofs.Loading
import ShapeFlow.Proofs.Tiling

/-!
# Diagnostics point at their text

Errors of a sketch come from its tokens, from its grammar and from its graph. All of them speak of
bytes of the text that begin and end between characters, and those that quote a name lie on it.

* `Sketch.LiesAt`: an offset is in a line and a column of a text.
* `Sketch.positionFrom_lies`: the line and the column that are computed are those of the offset.
* `Sketch.nameMessage?`: the words of the errors that quote a name.
* `Sketch.Finding.Placed`: a finding that lies between characters, and on the name it quotes.
* `Sketch.findings_point_at_text`: **every finding of a text that is not loaded is placed**, and its
  line and column are where it starts.
-/

namespace ShapeFlow.Sketch

open Text

/-! ## Lines and columns -/

section Lines

variable {cs rest current : List Char} {line column n : Nat}

/-- Text that is empty or ends with a line end, so that a line begins behind it. -/
def EndsLine (above : List Char) : Prop := above = [] ∨ ∃ front, above = front ++ ['\n']

/-- **An offset is in a line and a column**, both from 1 on: the line is counted by the line ends in
front of the offset, and the column by the bytes from the beginning of the line. -/
def LiesAt (source : List Char) (offset line column : Nat) : Prop :=
  ∃ above current rest, source = above ++ current ++ rest ∧ EndsLine above ∧ '\n' ∉ current ∧
    byteLength (above ++ current) = offset ∧ line = 1 + (above ++ current).count '\n' ∧
    1 ≤ column ∧ byteLength above + (column - 1) = offset

/-- The last line of a text. -/
theorem exists_endsLine (before : List Char) :
    ∃ above current, before = above ++ current ∧ EndsLine above ∧ '\n' ∉ current := by
  induction before using List.reverseRecOn with
  | nil => exact ⟨[], [], rfl, .inl rfl, List.not_mem_nil⟩
  | append_singleton before c ih =>
    by_cases hline : c = '\n'
    · exact ⟨before ++ [c], [], (List.append_nil _).symm, .inr ⟨before, hline ▸ rfl⟩,
        List.not_mem_nil⟩
    · obtain ⟨above, current, rfl, habove, hcurrent⟩ := ih
      refine ⟨above, current ++ [c], List.append_assoc .., habove, ?_⟩
      rw [List.mem_append, List.mem_singleton, not_or]
      exact ⟨hcurrent, Ne.symm hline⟩

theorem positionFrom_zero : Finding.positionFrom line column cs 0 = (line, column) := by
  cases cs <;> rfl

theorem positionFrom_cons (c : Char) :
    Finding.positionFrom line column (c :: cs) (c.utf8Size + n) =
      if c = '\n' then Finding.positionFrom (line + 1) 1 cs n
      else Finding.positionFrom line (column + c.utf8Size) cs n := by
  have hpos := c.utf8Size_pos
  rw [Finding.positionFrom, if_neg (by omega)]
  split
  · next hline =>
    have hsize : '\n'.utf8Size = 1 := rfl
    rw [hline, hsize, Nat.add_sub_cancel_left]
  · rw [Nat.add_sub_cancel_left]

/-- Behind any text its line ends have been counted. -/
theorem positionFrom_append (cs : List Char) (n : Nat) (front : List Char) :
    ∀ line column, ∃ column',
    Finding.positionFrom line column (front ++ cs) (byteLength front + n) =
      Finding.positionFrom (line + front.count '\n') column' cs n := by
  induction front with
  | nil => exact fun line column => ⟨column, by rw [byteLength, Nat.zero_add]; rfl⟩
  | cons c front ih =>
    intro line column
    rw [List.cons_append, byteLength, Nat.add_assoc, positionFrom_cons]
    split
    · next hline =>
      obtain ⟨column', h⟩ := ih (line + 1) 1
      refine ⟨column', h.trans ?_⟩
      rw [hline, List.count_cons_self, Nat.add_assoc, Nat.add_comm 1]
    · next hline =>
      obtain ⟨column', h⟩ := ih line (column + c.utf8Size)
      refine ⟨column', h.trans ?_⟩
      rw [List.count_cons_of_ne hline]

/-- Within a line the bytes are counted. -/
theorem positionFrom_current (h : '\n' ∉ current) : ∀ column,
    Finding.positionFrom line column (current ++ rest) (byteLength current) =
      (line, column + byteLength current) := by
  induction current with
  | nil => exact fun column => positionFrom_zero
  | cons c current ih =>
    intro column
    obtain ⟨hline, hcurrent⟩ := not_or.1 (List.mem_cons.not.1 h)
    rw [List.cons_append, byteLength, positionFrom_cons, if_neg (Ne.symm hline), ih hcurrent,
      Nat.add_assoc]

/-- **The line and the column that are computed** for an offset between characters are its own. -/
theorem positionFrom_lies (before rest : List Char) :
    LiesAt (before ++ rest) (byteLength before)
      (Finding.positionFrom 1 1 (before ++ rest) (byteLength before)).1
      (Finding.positionFrom 1 1 (before ++ rest) (byteLength before)).2 := by
  obtain ⟨above, current, rfl, habove, hcurrent⟩ := exists_endsLine before
  have hcount : current.count '\n' = 0 := List.count_eq_zero.2 hcurrent
  have hposition : Finding.positionFrom 1 1 (above ++ current ++ rest)
      (byteLength (above ++ current)) =
        (1 + (above ++ current).count '\n', 1 + byteLength current) := by
    rw [List.count_append, hcount, Nat.add_zero]
    rcases habove with rfl | ⟨front, rfl⟩
    · exact positionFrom_current hcurrent 1
    · -- the line end behind the front makes columns start again
      obtain ⟨column, hfront⟩ := positionFrom_append ('\n' :: (current ++ rest))
        ('\n'.utf8Size + byteLength current) front 1 1
      rw [positionFrom_cons, if_pos rfl, positionFrom_current hcurrent 1] at hfront
      rw [List.count_append, List.count_singleton_self, ← Nat.add_assoc, ← hfront]
      congr 1
      · simp
      · simp [byteLength_append, byteLength]
  rw [hposition]
  refine ⟨above, current, rest, rfl, habove, hcurrent, rfl, rfl, Nat.le_add_right 1 _, ?_⟩
  rw [byteLength_append, Nat.add_sub_cancel_left]

end Lines

/-! ## Where findings come from -/

variable {source : String} {statements : List Statement} {f : Finding}

/-- The token at which the grammar stops is one of the text. -/
theorem found_mem {p : Position} {ts : List Lexeme} {fault : GrammarFault}
    (h : statementsFrom p ts = .error fault) : ∀ l ∈ fault.found, l ∈ ts := by
  induction ts generalizing p with
  | nil =>
    rw [statementsFrom] at h
    split at h <;> cases h
    intro l hl
    cases hl
  | cons t ts ih =>
    rw [statementsFrom] at h
    split at h
    · split at h
      · cases hrest : statementsFrom .lineStart ts with
        | ok statements =>
          rw [hrest] at h
          cases h
        | error other =>
          rw [hrest] at h
          cases h
          exact fun l hl => List.mem_cons_of_mem _ (ih hrest l hl)
      · cases h
        rintro l ⟨⟩
        exact List.mem_cons_self
    · split at h
      · exact fun l hl => List.mem_cons_of_mem _ (ih h l hl)
      · cases h
        rintro l ⟨⟩
        exact List.mem_cons_self

/-- What is wrong with declarations is about the name or the block of one of them. -/
theorem exists_of_mem_complaints {ds : List Declaration} (h : f ∈ complaints ds) :
    ∃ d ∈ ds, f = redeclared d.name ∨ f = unknownBlock d.block := by
  obtain ⟨⟨d, i⟩, hd, hcomplaint⟩ := List.mem_filterMap.1 h
  refine ⟨d, List.fst_mem_of_mem_zipIdx hd, ?_⟩
  dsimp only at hcomplaint
  unfold Declaration.complaint? at hcomplaint
  split at hcomplaint
  · exact .inl (Option.some.inj hcomplaint).symm
  · split at hcomplaint
    · exact .inr (Option.some.inj hcomplaint).symm
    · cases hcomplaint

/-! ## Where findings lie -/

/-- The words about a name, for the codes that quote one. -/
def nameMessage? : Code → Option (String → String)
  | .unknownBlockType => some Block.unknownMessage
  | .undeclaredNode => some (fun name => "node '" ++ name ++ "' is not declared")
  | .redeclaredNode => some (fun name => "node '" ++ name ++ "' is declared more than once")
  | _ => none

/-- **A finding has its place in a text.** Its bytes begin and end between characters, so the text
can be cut there; its line and column are where it starts; and if it quotes a name, the name is what
the text has at these bytes. -/
structure Finding.Placed (source : String) (f : Finding) : Prop where
  ordered : f.span.start ≤ f.span.stop
  inside : f.span.stop ≤ source.utf8ByteSize
  starts : String.Pos.Raw.IsValid source ⟨f.span.start⟩
  stops : String.Pos.Raw.IsValid source ⟨f.span.stop⟩
  lies : LiesAt source.toList f.span.start (f.position source).1 (f.position source).2
  quotes : ∀ code words, f.diagnostic.code = some code → nameMessage? code = some words →
    ∃ name, f.diagnostic.message = words name ∧ Stands source.toList name.toList f.span

/-- A finding about a piece of a text is placed. -/
theorem placed_of_standsBefore {piece after : List Char}
    (h : StandsBefore source.toList piece after f.span)
    (hquotes : ∀ code words, f.diagnostic.code = some code → nameMessage? code = some words →
      ∃ name, f.diagnostic.message = words name ∧ Stands source.toList name.toList f.span) :
    f.Placed source := by
  obtain ⟨hinside, hstarts, hstops⟩ := h.isValid
  obtain ⟨before, hsource, hspan⟩ := h
  have hstart : f.span.start = byteLength before := by rw [hspan]
  have hstop : f.span.stop = byteLength before + byteLength piece := by rw [hspan]
  refine ⟨by omega, hinside, hstarts, hstops, ?_, hquotes⟩
  unfold Finding.position
  rw [hsource, hstart]
  exact positionFrom_lies before (piece ++ after)

/-- An error of the grammar quotes no name. -/
theorem placed_grammarFinding {fault : Located} {piece after : List Char}
    (h : StandsBefore source.toList piece after fault.span) :
    (grammarFinding fault).Placed source := by
  refine placed_of_standsBefore h fun code words hcode hwords => ?_
  obtain rfl : Code.sketchGrammar = code := Option.some.inj hcode
  cases hwords

/-- An error that quotes a name is placed on it. -/
theorem placed_of_ident {name : Ident} (hmem : name.lexeme ∈ (lex source).lexemes)
    (hspan : f.span = name.span)
    (hmessage : ∀ code words, f.diagnostic.code = some code → nameMessage? code = some words →
      f.diagnostic.message = words name.name) : f.Placed source := by
  have hstands : Stands source.toList name.name.toList f.span :=
    hspan ▸ stands_of_ident hmem rfl
  obtain ⟨before, after, hsource, hbytes⟩ := id hstands
  rw [byteLength_append] at hbytes
  refine placed_of_standsBefore ⟨before, hsource.trans (List.append_assoc ..), hbytes⟩ ?_
  exact fun code words hcode hwords => ⟨name.name, hmessage code words hcode hwords, hstands⟩

theorem placed_of_mem_lexicalFindings (h : f ∈ lexicalFindings source) : f.Placed source := by
  obtain ⟨fault, hfault, rfl⟩ := List.mem_map.1 h
  obtain ⟨tiles, htiles, hlex⟩ := lex_tiled source
  rw [hlex] at hfault
  obtain ⟨piece, after, hstands, -⟩ := htiles.not_token_of_mem hfault
  exact placed_grammarFinding hstands

/-- The grammar stops at a token or at the end of the text. -/
theorem placed_of_fault {fault : GrammarFault}
    (h : statementsFrom .lineStart (lex source).lexemes = .error fault) :
    (grammarFinding ⟨fault.message, fault.span source.utf8ByteSize⟩).Placed source := by
  have hmem := found_mem h
  obtain ⟨found, p⟩ := fault
  cases found with
  | some lexeme =>
    obtain ⟨tiles, htiles, hlex⟩ := lex_tiled source
    have hlexeme := hmem lexeme rfl
    rw [hlex] at hlexeme
    obtain ⟨piece, after, hstands, -⟩ := htiles.longest_of_mem hlexeme
    exact placed_grammarFinding hstands
  | none =>
    have hstands : StandsBefore source.toList [] []
        ⟨source.utf8ByteSize, source.utf8ByteSize⟩ :=
      ⟨source.toList, by simp, by rw [byteLength_toList]; rfl⟩
    exact placed_grammarFinding hstands

/-- An error of the graph is about a name of the text. -/
theorem placed_of_mem_statements (hspells : Spells (lex source).lexemes statements)
    (h : f ∈ complaints (declarations statements) ++ strays statements) : f.Placed source := by
  rcases List.mem_append.1 h with h | h
  · obtain ⟨d, hd, hf⟩ := exists_of_mem_complaints h
    have hmem (name : Ident) (hname : name ∈ (Statement.node d).names) :=
      hspells.mem (mem_declarations_iff.1 hd) hname
    rcases hf with rfl | rfl
    · refine placed_of_ident (hmem d.name (by simp [Statement.names])) rfl ?_
      rintro code words ⟨⟩ ⟨⟩
      rfl
    · refine placed_of_ident (hmem d.block (by simp [Statement.names])) rfl ?_
      rintro code words ⟨⟩ ⟨⟩
      rfl
  · obtain ⟨e, he, rfl⟩ := List.mem_map.1 h
    obtain ⟨he, -⟩ := List.mem_filter.1 he
    obtain ⟨c, hc, he⟩ := List.mem_flatMap.1 he
    have hname : e.node ∈ (Statement.chain c).names :=
      List.mem_flatMap.2 ⟨e, he, List.mem_cons_self⟩
    refine placed_of_ident (hspells.mem (mem_chains_iff.1 hc) hname) rfl ?_
    rintro code words ⟨⟩ ⟨⟩
    rfl

/-- **Diagnostics point at their text.** Every finding of a text that is not loaded begins and ends
between characters of the text; its line counts the line ends in front of it and its column the
bytes of that line; and the name that is quoted as unknown, undeclared or declared again is exactly
what the text has at its bytes. -/
theorem findings_point_at_text {findings : List Finding} (h : load source = .error findings) :
    ∀ f ∈ findings, f.Placed source := by
  intro f hf
  obtain ⟨-, ⟨fault, hfault, -, rfl⟩ | ⟨statements, hspells, rfl⟩⟩ := findings_of_load h
  · rcases List.mem_append.1 hf with hf | hf
    · exact placed_of_mem_lexicalFindings hf
    · rw [List.mem_singleton.1 hf]
      exact placed_of_fault hfault
  · rcases List.mem_append.1 hf with hf | hf
    · exact placed_of_mem_lexicalFindings hf
    · exact placed_of_mem_statements hspells hf

/-- A character that starts no token, an unknown block and a name that is not declared. -/
def straysText : String := "é\na -> b\nb = Nothing()"

theorem findings_point_at_text_lines :
    ∃ findings, load straysText = .error findings ∧
      findings.map (fun f => (f.diagnostic.code, f.span, f.position straysText)) =
        [(some .sketchGrammar, ⟨0, 2⟩, 1, 1), (some .unknownBlockType, ⟨14, 21⟩, 3, 5),
          (some .undeclaredNode, ⟨3, 4⟩, 2, 1)] ∧
      ∀ f ∈ findings, f.Placed straysText := by
  have hcheck : (match load straysText with
      | .ok _ => false
      | .error findings => decide (findings.map (fun f =>
          (f.diagnostic.code, f.span, f.position straysText)) =
        [(some .sketchGrammar, ⟨0, 2⟩, 1, 1), (some .unknownBlockType, ⟨14, 21⟩, 3, 5),
          (some .undeclaredNode, ⟨3, 4⟩, 2, 1)])) = true := by decide +kernel
  rcases hload : load straysText with findings | g
  · rw [hload] at hcheck
    exact ⟨findings, rfl, of_decide_eq_true hcheck, findings_point_at_text hload⟩
  · rw [hload] at hcheck
    cases hcheck

end ShapeFlow.Sketch
