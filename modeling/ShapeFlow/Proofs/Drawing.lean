import ShapeFlow.Proofs.Quoting
import ShapeFlow.Proofs.Verdict

/-!
# Quotes in drawings

A drawing is cut into parts, and names stand in quoted parts only. A reader of quoted texts finds
the same parts, whatever the names are.

* `Dot.read`: what stands outside of quotes and what stands in them.
* `Dot.read_textOf`: **sealed parts are read as they were written.**
* `Dot.drawing`, `Dot.draw_eq`: the parts of a drawing.
* `Dot.quoting_is_safe`: **no name leaves its quotes.**
-/

namespace ShapeFlow

namespace Dot

open Sketch

/-! ## Parts of a text with quotes -/

/-- A part of a drawing: text outside of quotes, or what stands between two quotes. -/
inductive Part where
  | plain (text : String)
  | quoted (body : String)
deriving DecidableEq, Repr

namespace Part

/-- A part as it is written. -/
def text : Part → String
  | plain text => text
  | quoted body => "\"" ++ body ++ "\""

@[simp] theorem text_plain (text : String) : (plain text).text = text := rfl

/-- A part with nothing in its quotes. -/
def outline : Part → String
  | plain text => text
  | quoted _ => "\"\""

/-- What a part has in quotes. -/
def body? : Part → Option String
  | plain _ => none
  | quoted body => some body

end Part

variable {cs body rest : List Char} {parts : List Part}

/-- Quotes stand around quoted parts and nowhere else. -/
inductive Sealed : List Part → Prop
  | nil : Sealed []
  | plain {text : String} {parts : List Part} :
      '"' ∉ text.toList → Sealed parts → Sealed (.plain text :: parts)
  | quoted {body : String} {parts : List Part} :
      IsBody body.toList → Sealed parts → Sealed (.quoted body :: parts)

/-- Sealed parts one behind the other are sealed. -/
theorem Sealed.append {others : List Part} (h : Sealed parts) (hothers : Sealed others) :
    Sealed (parts ++ others) := by
  induction h with
  | nil => exact hothers
  | plain htext _ ih => exact .plain htext ih
  | quoted hbody _ ih => exact .quoted hbody ih

theorem sealed_flatMap {α : Type} {f : α → List Part} (h : ∀ x, Sealed (f x)) (xs : List α) :
    Sealed (xs.flatMap f) := by
  induction xs with
  | nil => exact .nil
  | cons x xs ih =>
    rw [List.flatMap_cons]
    exact (h x).append ih

/-- Parts as they are written, one behind the other. -/
def textOf (parts : List Part) : String := String.join (parts.map Part.text)

/-- Parts with nothing in their quotes. -/
def outlineOf (parts : List Part) : String := String.join (parts.map Part.outline)

/-- Reads a text with quotes: all of it but for what is in quotes, and what is in quotes, as long as
every quote is closed. -/
def read : List Char → Option (List Char × List String)
  | [] => some ([], [])
  | c :: cs =>
    if c = '"' then
      match _h : untilQuote cs with
      | none => none
      | some (body, rest) =>
        (read rest).map fun (outline, bodies) =>
          ('"' :: '"' :: outline, String.ofList body :: bodies)
    else (read cs).map fun (outline, bodies) => (c :: outline, bodies)
termination_by cs => cs.length
decreasing_by
  · have hlt := length_of_untilQuote _h
    simp only [List.length_cons]
    omega
  · simp

/-- Text without a quote is read up to its end. -/
theorem read_plain (h : '"' ∉ cs) :
    read (cs ++ rest) = (read rest).map fun (outline, bodies) => (cs ++ outline, bodies) := by
  induction cs with
  | nil => simp
  | cons c cs ih =>
    rw [List.mem_cons, not_or] at h
    rw [List.cons_append, read, if_neg (Ne.symm h.1), ih h.2, Option.map_map]
    rfl

/-- A quoted body is read up to its closing quote, whatever stands behind. -/
theorem read_quoted (h : IsBody body) :
    read ('"' :: (body ++ '"' :: rest)) = (read rest).map fun (outline, bodies) =>
      ('"' :: '"' :: outline, String.ofList body :: bodies) := by
  rw [read, if_pos rfl]
  split
  · next hnone =>
    rw [untilQuote_body h] at hnone
    cases hnone
  · next hfound =>
    rw [untilQuote_body h] at hfound
    obtain ⟨rfl, rfl⟩ := Prod.mk.inj (Option.some.inj hfound)
    rfl

@[simp] theorem textOf_nil : textOf [] = "" := rfl

@[simp] theorem textOf_cons (part : Part) (parts : List Part) :
    textOf (part :: parts) = part.text ++ textOf parts := by
  rw [textOf, List.map_cons, String.join_cons, ← textOf]

@[simp] theorem textOf_append (parts others : List Part) :
    textOf (parts ++ others) = textOf parts ++ textOf others := by
  rw [textOf, List.map_append, String.join_append, ← textOf, ← textOf]

theorem outlineOf_cons (part : Part) (parts : List Part) :
    outlineOf (part :: parts) = part.outline ++ outlineOf parts := by
  rw [outlineOf, List.map_cons, String.join_cons, ← outlineOf]

theorem textOf_flatMap {α : Type} (f : α → List Part) (xs : List α) :
    textOf (xs.flatMap f) = String.join (xs.map fun x => textOf (f x)) := by
  induction xs with
  | nil => rfl
  | cons x xs ih => rw [List.flatMap_cons, textOf_append, ih, List.map_cons, String.join_cons]

/-- **Sealed parts are read as they were written.** -/
theorem read_textOf (h : Sealed parts) :
    read (textOf parts).toList = some ((outlineOf parts).toList, parts.filterMap Part.body?) := by
  induction h with
  | nil => rw [textOf_nil, String.toList_empty, read]; rfl
  | @plain text parts htext _ ih =>
    rw [textOf_cons, outlineOf_cons, String.toList_append, String.toList_append, Part.text_plain,
      read_plain htext, ih]
    rfl
  | @quoted body parts hbody _ ih =>
    have htext : (textOf (.quoted body :: parts)).toList =
        '"' :: (body.toList ++ '"' :: (textOf parts).toList) := by simp [Part.text]
    rw [htext, read_quoted hbody, ih, outlineOf_cons, String.ofList_toList]
    simp [Part.outline, Part.body?]

/-! ## The parts of a drawing -/

/-- The parts above all nodes. -/
def headParts : List Part :=
  [.plain "digraph nsc \x7b\n    rankdir=LR;\n    node [fontname=", .quoted "Helvetica",
    .plain ", fontsize=10];\n    edge [fontname=", .quoted "Helvetica", .plain ", fontsize=9];\n\n"]

/-- The parts of a label. -/
def labelParts (body : String) : List Part := [.plain "label=", .quoted body]

/-- The parts of the line for a node. -/
def nodeParts (r : Recomputation) (id : NodeId) (node : Node) : List Part :=
  [.plain "    ", .quoted (escape id), .plain " ["]
    ++ (if node.block = .board then
        .plain "shape=note, style=filled, fillcolor=white, " :: labelParts (escape id)
      else
        [.plain "shape=box, style=filled, fillcolor=", .plain (appearance r id node).1, .plain ", "]
          ++ labelParts (escape id ++ "\\n" ++ node.block.name ++ "\\n"
            ++ escape (appearance r id node).2))
    ++ [.plain "];\n"]

/-- The parts for a verdict. -/
def verdictParts : Verdict → List Part
  | .ok shape => labelParts shape.text
  | .invalid code _ => .plain "color=red, fontcolor=red, " :: labelParts code.text
  | .inactive => [.plain "style=dotted, color=gray50"]
  | .ignored code =>
    .plain "style=dashed, color=gray70, fontcolor=gray50, " :: labelParts code.text

/-- The parts of the line for an edge. -/
def edgeParts (r : Recomputation) (edge : Edge) : List Part :=
  [.plain "    ", .quoted (escape edge.source), .plain " -> ", .quoted (escape edge.target)]
    ++ match r.edges.get? edge.id with
      | some verdict =>
        .plain " [" :: verdictParts verdict
          ++ (if edge.targetHandle = Block.defaultInput then []
            else .plain ", head" :: labelParts (escape edge.targetHandle))
          ++ [.plain "];\n"]
      | none => [.plain ";\n"]

/-- The parts of a drawing. -/
def drawing (g : Graph) (r : Recomputation) : List Part :=
  headParts ++ g.nodes.entries.flatMap (fun (id, node) => nodeParts r id node)
    ++ (if (drawable g).isEmpty then [] else .plain "\n" :: (drawable g).flatMap (edgeParts r))
    ++ [.plain "\x7d\n"]

theorem quote_eq_text (s : String) : quote s = (Part.quoted (escape s)).text := quote_eq s

theorem label_eq (body : String) : label body = textOf (labelParts body) := by
  apply String.toList_injective
  simp [label, labelParts, Part.text]

/-- The line of a node is the text of its parts. -/
theorem line_nodeLine (r : Recomputation) (id : NodeId) (node : Node) :
    Report.line (nodeLine r id node) = textOf (nodeParts r id node) := by
  unfold nodeParts nodeLine nodeAttributes
  split <;> simp [Report.line, quote_eq_text, label_eq, String.append_assoc]

theorem headLabel_eq (edge : Edge) :
    headLabel edge =
      textOf (if edge.targetHandle = Block.defaultInput then []
        else .plain ", head" :: labelParts (escape edge.targetHandle)) := by
  unfold headLabel
  split
  · rfl
  · apply String.toList_injective
    simp [labelParts, Part.text]

theorem edgeAttributes_eq (edge : Edge) (verdict : Verdict) :
    edgeAttributes edge verdict = textOf (verdictParts verdict) ++ headLabel edge := by
  unfold edgeAttributes
  congr 1
  cases verdict with
  | ok shape => exact label_eq _
  | inactive => rfl
  | invalid code =>
    rw [verdictParts, textOf_cons]
    exact congrArg (_ ++ ·) (label_eq _)
  | ignored code =>
    rw [verdictParts, textOf_cons]
    exact congrArg (_ ++ ·) (label_eq _)

/-- The line of an edge is the text of its parts. -/
theorem line_edgeLine (r : Recomputation) (edge : Edge) :
    Report.line (edgeLine r edge) = textOf (edgeParts r edge) := by
  unfold edgeParts edgeLine
  cases r.edges.get? edge.id with
  | none => simp [Report.line, quote_eq_text, String.append_assoc]
  | some verdict =>
    simp only [edgeAttributes_eq, headLabel_eq]
    simp [Report.line, quote_eq_text, String.append_assoc]

/-- **A drawing is its parts** one behind the other. -/
theorem draw_eq (g : Graph) (r : Recomputation) : draw g r = textOf (drawing g r) := by
  have hhead : String.join (header.map Report.line) = textOf headParts := by decide +kernel
  have hedges : Report.section? ((drawable g).map (edgeLine r)) =
      textOf (if (drawable g).isEmpty then []
        else .plain "\n" :: (drawable g).flatMap (edgeParts r)) := by
    rw [Report.section?, List.isEmpty_map]
    split
    · rfl
    · rw [textOf_cons, textOf_flatMap, List.map_map]
      simp only [← line_edgeLine]
      rfl
  unfold draw drawing
  simp only [textOf_append, textOf_flatMap, ← line_nodeLine, hhead, hedges]
  rfl

/-! ## Nothing leaves its quotes -/

/-- A size in digits, or a question mark. -/
theorem isBody_dim (d : Dim) : IsBody d.text.toList := by
  cases d with
  | known n =>
    rw [Dim.text, Nat.toString_eq_repr, Nat.toList_repr]
    refine isBody_of_plain (List.all_eq_true.2 fun c hc => ?_)
    have hne := ne_of_class (Nat.isDigit_of_mem_toDigits (by decide) (by decide) hc)
    rw [isPlain, Bool.and_eq_true, bne_iff_ne, bne_iff_ne]
    exact ⟨hne '"' (by decide), hne '\\' (by decide)⟩
  | unknown => exact isBody_of_plain (by decide)

/-- The text of a shape is brackets, commas, digits and question marks. -/
theorem isBody_shape (shape : Shape) : IsBody shape.text.toList := by
  rw [Shape.text, String.toList_append, String.toList_append, String.toList_intercalate]
  have hopen : IsBody "[".toList := isBody_of_plain (by decide)
  have hclose : IsBody "]".toList := isBody_of_plain (by decide)
  refine isBody_append (isBody_append hopen ?_) hclose
  refine isBody_intercalate (isBody_of_plain (by decide)) fun piece hpiece => ?_
  rw [List.map_map] at hpiece
  obtain ⟨d, -, rfl⟩ := List.mem_map.1 hpiece
  exact isBody_dim d

theorem isBody_errorCode (error : ShapeError) : IsBody error.code.text.toList := by
  refine isBody_of_plain ?_
  cases error <;> rw [ShapeError.code] <;> decide

theorem isBody_neglectCode (neglect : Neglect) : IsBody neglect.code.text.toList := by
  refine isBody_of_plain ?_
  cases neglect <;> rw [Neglect.code] <;> decide

theorem isBody_name (block : Block) : IsBody block.name.toList := by
  refine isBody_of_plain ?_
  cases block <;> decide

/-- A color stands outside of quotes and holds none. -/
theorem color_plain (r : Recomputation) (id : NodeId) (node : Node) :
    '"' ∉ (appearance r id node).1.toList := by
  unfold appearance
  split <;> dsimp only
  · cases node.block.category <;> decide
  · decide
  · decide

theorem sealed_label {label : String} (h : IsBody label.toList) : Sealed (labelParts label) :=
  .plain (by decide) (.quoted h .nil)

/-- What a graph brings into the line of a node is its name and the text of its result, both
escaped. -/
theorem sealed_node (r : Recomputation) (id : NodeId) (node : Node) :
    Sealed (nodeParts r id node) := by
  -- The backslash in front of an n stays: it is a line break to whoever shows the label.
  have hbreak : IsBody "\\n".toList := .escape (by decide) .nil
  have hlabel : IsBody (escape id ++ "\\n" ++ node.block.name ++ "\\n"
      ++ escape (appearance r id node).2).toList := by
    simp only [String.toList_append]
    exact isBody_append (isBody_append (isBody_append (isBody_append (isBody_escape id) hbreak)
      (isBody_name _)) hbreak) (isBody_escape _)
  have hhead : Sealed [.plain "    ", .quoted (escape id), .plain " ["] :=
    .plain (by decide) (.quoted (isBody_escape id) (.plain (by decide) .nil))
  have hend : Sealed [.plain "];\n"] := .plain (by decide) .nil
  refine (hhead.append ?_).append hend
  split
  · exact .plain (by decide) (sealed_label (isBody_escape id))
  · exact .plain (by decide)
      (.plain (color_plain r id node) (.plain (by decide) (sealed_label hlabel)))

/-- A verdict shows a shape or a code, and neither has anything to escape. -/
theorem sealed_verdict (results : Table Result) (edge : Edge) (neglect? : Option Neglect) :
    Sealed (verdictParts (Graph.verdict results edge neglect?)) := by
  cases neglect? with
  | some neglect => exact .plain (by decide) (sealed_label (isBody_neglectCode neglect))
  | none =>
    rw [Graph.verdict]
    unfold Graph.activeVerdict
    split
    · exact .plain (by decide) .nil
    · split
      · split
        · exact .plain (by decide) (sealed_label (isBody_errorCode _))
        · exact sealed_label (isBody_shape _)
      · exact sealed_label (isBody_shape _)

theorem sealed_edge (h : Graph) (edge : Edge) : Sealed (edgeParts h.recompute edge) := by
  have hends : Sealed [.plain "    ", .quoted (escape edge.source), .plain " -> ",
      .quoted (escape edge.target)] :=
    .plain (by decide) (.quoted (isBody_escape _) (.plain (by decide)
      (.quoted (isBody_escape _) .nil)))
  refine hends.append ?_
  cases hverdict : h.recompute.edges.get? edge.id with
  | none => exact .plain (by decide) .nil
  | some verdict =>
    -- A verdict of a computation has no other code than those of errors and of neglected edges.
    have hsealed : Sealed (verdictParts verdict) := by
      change (h.verdicts h.results).get? edge.id = _ at hverdict
      rw [Graph.get?_verdicts] at hverdict
      obtain ⟨c, -, rfl⟩ := Option.map_eq_some_iff.1 hverdict
      exact sealed_verdict _ _ _
    refine .plain (by decide) ((hsealed.append ?_).append (.plain (by decide) .nil))
    split
    · exact .nil
    · exact .plain (by decide) (sealed_label (isBody_escape _))

/-- The drawing of a graph with the computation of a graph is sealed. -/
theorem sealed_drawing (g h : Graph) : Sealed (drawing g h.recompute) := by
  have hhead : Sealed headParts :=
    .plain (by decide) (.quoted (isBody_of_plain (by decide)) (.plain (by decide)
      (.quoted (isBody_of_plain (by decide)) (.plain (by decide) .nil))))
  have hend : Sealed [.plain "\x7d\n"] := .plain (by decide) .nil
  refine ((hhead.append (sealed_flatMap (fun entry => sealed_node _ _ _) _)).append ?_).append hend
  split
  · exact .nil
  · exact .plain (by decide) (sealed_flatMap (sealed_edge h) _)

/-- **Quoting is safe and reversible.** A quoted name is the escaped name in quotes, and one text
token from its first byte to its last. Behind the opening quote, the first quote that no backslash
protects is the last character, whatever follows. So different names are quoted differently, and
whoever reads a drawing finds its names and labels where they were written, each of them alone in
its quotes. -/
theorem quoting_is_safe :
    (∀ s, quote s = "\"" ++ escape s ++ "\"") ∧
    (∀ s, lex (quote s) = ⟨[⟨.text s, ⟨0, (quote s).utf8ByteSize⟩⟩], []⟩) ∧
    (∀ s rest, untilQuote ((quote s).toList.tail ++ rest) = some ((escape s).toList, rest)) ∧
    Function.Injective quote ∧
    ∀ g h : Graph, draw g h.recompute = textOf (drawing g h.recompute) ∧
      read (draw g h.recompute).toList =
        some ((outlineOf (drawing g h.recompute)).toList,
          (drawing g h.recompute).filterMap Part.body?) := by
  refine ⟨quote_eq, lex_quote, untilQuote_quote, quote_injective, fun g h => ⟨draw_eq g _, ?_⟩⟩
  rw [draw_eq]
  exact read_textOf (sealed_drawing g h)

end Dot

end ShapeFlow
