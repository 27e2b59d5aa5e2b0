import ShapeFlow.Proofs.Numeral
import ShapeFlow.Proofs.Quotation
import Mathlib.Data.List.DropRight

/-!
# Written values read back

* `Json.induct`: what holds of a value once it holds of its parts.
* `Json.tree`: the tree of a value.
* `Json.laid`: a value with spaces between its tokens; `compact` and `pretty` are two such layouts.
* `Json.recovered`: **a value is read back from any layout**, if the texts of its doubles are.
* `Json.compact_inj`: **the compact text of a value without doubles determines it.**
-/

namespace ShapeFlow.Json

open Json.Tree

/-- **What holds of a value once it holds of its parts.** -/
theorem induct {motive : Json → Prop} (null : motive .null) (bool : ∀ b, motive (.bool b))
    (integer : ∀ n, motive (.integer n)) (real : ∀ x, motive (.real x))
    (text : ∀ s, motive (.text s))
    (array : ∀ items : List Json, (∀ item ∈ items, motive item) → motive (.array items))
    (object : ∀ fields : List (String × Json), (∀ field ∈ fields, motive field.2) →
      motive (.object fields)) : ∀ v, motive v := by
  exact @Json.rec motive (fun items => ∀ item ∈ items, motive item)
    (fun fields => ∀ field ∈ fields, motive field.2) (fun field => motive field.2)
    null bool integer real text array object
    (List.forall_mem_nil _) (fun _ _ hitem hrest => List.forall_mem_cons.2 ⟨hitem, hrest⟩)
    (List.forall_mem_nil _) (fun _ _ hfield hrest => List.forall_mem_cons.2 ⟨hfield, hrest⟩)
    (fun _ _ h => h)

/-! ### Doubles of a value and its tree -/

mutual

/-- The doubles in a value. -/
def reals : Json → List Double
  | .real x => [x]
  | .array items => itemReals items
  | .object fields => fieldReals fields
  | _ => []

/-- The doubles in items. -/
def itemReals : List Json → List Double
  | [] => []
  | item :: rest => reals item ++ itemReals rest

/-- The doubles in fields. -/
def fieldReals : List (String × Json) → List Double
  | [] => []
  | (_, value) :: rest => reals value ++ fieldReals rest

end

theorem itemReals_eq (items : List Json) : itemReals items = items.flatMap reals := by
  induction items with
  | nil => rfl
  | cons item rest ih => rw [itemReals, ih, List.flatMap_cons]

theorem fieldReals_eq (fields : List (String × Json)) :
    fieldReals fields = fields.flatMap (fun field => reals field.2) := by
  induction fields with
  | nil => rfl
  | cons field rest ih => rw [fieldReals, ih, List.flatMap_cons]

@[simp] theorem reals_array (items : List Json) : (array items).reals = items.flatMap reals := by
  rw [reals, itemReals_eq]

@[simp] theorem reals_object (fields : List (String × Json)) :
    (object fields).reals = fields.flatMap (fun field => reals field.2) := by
  rw [reals, fieldReals_eq]

theorem mem_reals_array {items : List Json} {item : Json} {x : Double} (hitem : item ∈ items)
    (hx : x ∈ item.reals) : x ∈ (array items).reals := by
  rw [reals_array]
  exact List.mem_flatMap.2 ⟨item, hitem, hx⟩

theorem mem_reals_object {fields : List (String × Json)} {field : String × Json} {x : Double}
    (hfield : field ∈ fields) (hx : x ∈ field.2.reals) : x ∈ (object fields).reals := by
  rw [reals_object]
  exact List.mem_flatMap.2 ⟨field, hfield, hx⟩

/-- The numeral as which a double is written. -/
def Numeral.ofReal (x : Double) : Numeral :=
  match readNumeral (layout.write x).toList with
  | .ok (n, _) => n
  | .error _ => ⟨false, [], [], none⟩

mutual

/-- The tree of a value. -/
def tree : Json → Tree
  | .null => .null
  | .bool b => .bool b
  | .integer n => .number (.ofInt n)
  | .real x => .number (.ofReal x)
  | .text s => .text (some s)
  | .array items => .array (itemTrees items) none
  | .object fields => .object (fieldTrees fields) none

/-- The trees of items. -/
def itemTrees : List Json → List Tree
  | [] => []
  | item :: rest => tree item :: itemTrees rest

/-- The trees of fields. -/
def fieldTrees : List (String × Json) → List (Option String × Tree)
  | [] => []
  | (name, value) :: rest => (some name, tree value) :: fieldTrees rest

end

@[simp] theorem itemTrees_eq (items : List Json) : itemTrees items = items.map tree := by
  induction items with
  | nil => rfl
  | cons item rest ih => rw [itemTrees, ih, List.map_cons]

@[simp] theorem fieldTrees_eq (fields : List (String × Json)) :
    fieldTrees fields = fields.map (fun field => (some field.1, tree field.2)) := by
  induction fields with
  | nil => rfl
  | cons field rest ih => rw [fieldTrees, ih, List.map_cons]

/-! ### Layouts -/

/-- The spaces of a layout: in front of every item and of the end of a container, by its level, and
behind every colon. -/
structure Spacing where
  line : Nat → List Char
  colon : List Char
  line_space : ∀ level, ∀ c ∈ line level, isSpace c
  colon_space : ∀ c ∈ colon, isSpace c

/-- No spaces at all. -/
def Spacing.tight : Spacing := ⟨fun _ => [], [], by simp, by simp⟩

/-- One item to a line. -/
def Spacing.lines : Spacing where
  line level := (newline level).toList
  colon := [' ']
  line_space level c hc := by
    rw [newline, String.toList_append, List.mem_append, Text.pushn_toList] at hc
    rcases hc with hc | hc
    · rw [List.mem_singleton.1 hc]
      rfl
    · rw [List.eq_of_mem_replicate hc]
      rfl
  colon_space := by simp [isSpace]

variable (s : Spacing)

mutual

/-- A value with spaces between its tokens. -/
def laid (level : Nat) : Json → List Char
  | .null => "null".toList
  | .bool b => if b then "true".toList else "false".toList
  | .integer n => (toString n).toList
  | .real x => (layout.write x).toList
  | .text t => (quote t).toList
  | .array [] => ['[', ']']
  | .array (item :: rest) => '[' :: laidItems (level + 1) (item :: rest) ++ s.line level ++ [']']
  | .object [] => ['\x7b', '\x7d']
  | .object (field :: rest) =>
    '\x7b' :: laidFields (level + 1) (field :: rest) ++ s.line level ++ ['\x7d']

/-- Items with spaces between their tokens. -/
def laidItems (level : Nat) : List Json → List Char
  | [] => []
  | [item] => s.line level ++ laid level item
  | item :: rest => s.line level ++ laid level item ++ ',' :: laidItems level rest

/-- Fields with spaces between their tokens. -/
def laidFields (level : Nat) : List (String × Json) → List Char
  | [] => []
  | [(name, value)] => s.line level ++ (quote name).toList ++ ':' :: s.colon ++ laid level value
  | (name, value) :: rest =>
    s.line level ++ (quote name).toList ++ ':' :: s.colon ++ laid level value
      ++ ',' :: laidFields level rest

end

/-- **The compact text** has no spaces. -/
theorem compact_toList (v : Json) : ∀ level, (compact v).toList = laid .tight level v := by
  induction v using induct with
  | array items ih =>
    have hitems (level : Nat) : (compactItems items).toList = laidItems .tight level items := by
      induction items with
      | nil => rfl
      | cons item rest ihrest =>
        have hitem := ih item (List.mem_cons_self ..) level
        have hrest := ihrest fun other hmem => ih other (List.mem_cons_of_mem _ hmem)
        cases rest <;> simp [compactItems, laidItems, Spacing.tight, hitem, hrest]
    intro level
    cases items <;> simp [compact, laid, compactItems, Spacing.tight, hitems (level + 1)]
  | object fields ih =>
    have hfields (level : Nat) : (compactFields fields).toList = laidFields .tight level fields := by
      induction fields with
      | nil => rfl
      | cons field rest ihrest =>
        have hfield := ih field (List.mem_cons_self ..) level
        have hrest := ihrest fun other hmem => ih other (List.mem_cons_of_mem _ hmem)
        cases rest <;> simp [compactFields, laidFields, Spacing.tight, hfield, hrest]
    intro level
    cases fields <;> simp [compact, laid, compactFields, Spacing.tight, hfields (level + 1)]
  | bool b => intro level; cases b <;> rfl
  | _ => intro level; rfl

/-- **The text with one item to a line** is a layout. -/
theorem prettyAt_toList (v : Json) : ∀ level, (prettyAt level v).toList = laid .lines level v := by
  induction v using induct with
  | array items ih =>
    have hitems (level : Nat) : (prettyItems level items).toList = laidItems .lines level items := by
      induction items with
      | nil => rfl
      | cons item rest ihrest =>
        have hitem := ih item (List.mem_cons_self ..) level
        have hrest := ihrest fun other hmem => ih other (List.mem_cons_of_mem _ hmem)
        cases rest <;> simp [prettyItems, laidItems, Spacing.lines, hitem, hrest]
    intro level
    cases items <;> simp [prettyAt, laid, Spacing.lines, hitems (level + 1)]
  | object fields ih =>
    have hfields (level : Nat) :
        (prettyFields level fields).toList = laidFields .lines level fields := by
      induction fields with
      | nil => rfl
      | cons field rest ihrest =>
        have hfield := ih field (List.mem_cons_self ..) level
        have hrest := ihrest fun other hmem => ih other (List.mem_cons_of_mem _ hmem)
        cases rest <;> simp [prettyFields, laidFields, Spacing.lines, hfield, hrest]
    intro level
    cases fields <;> simp [prettyAt, laid, Spacing.lines, hfields (level + 1)]
  | bool b => intro level; cases b <;> rfl
  | _ => intro level; rfl

/-! ### Reading a layout -/

variable {cs gap rest after behind : List Char} {fuel level : Nat}

theorem skipSpace_append (hgap : ∀ c ∈ gap, isSpace c) (cs : List Char) :
    skipSpace (gap ++ cs) = skipSpace cs :=
  List.dropWhile_append_of_pos hgap

theorem skipSpace_cons {c : Char} (hc : isSpace c = false) (cs : List Char) :
    skipSpace (c :: cs) = c :: cs :=
  List.dropWhile_cons_of_neg (by simp [hc])

theorem skipSpace_skipSpace (cs : List Char) : skipSpace (skipSpace cs) = skipSpace cs :=
  List.dropWhile_idempotent _ cs

/-- Spaces in front of a value do not matter. -/
theorem readTree_skipSpace (fuel : Nat) (cs : List Char) :
    readTree fuel (skipSpace cs) = readTree fuel cs := by
  cases fuel with
  | zero => rfl
  | succ fuel => unfold readTree; rw [skipSpace_skipSpace]

theorem readItems_skipSpace (fuel : Nat) (cs : List Char) :
    readItems fuel (skipSpace cs) = readItems fuel cs := by
  cases fuel with
  | zero => rfl
  | succ fuel => unfold readItems; rw [readTree_skipSpace]

theorem readFields_skipSpace (fuel : Nat) (cs : List Char) :
    readFields fuel (skipSpace cs) = readFields fuel cs := by
  cases fuel with
  | zero => rfl
  | succ fuel => unfold readFields; rw [skipSpace_skipSpace]

theorem readTree_gap (hgap : ∀ c ∈ gap, isSpace c) : readTree fuel (gap ++ cs) = readTree fuel cs := by
  rw [← readTree_skipSpace, skipSpace_append hgap, readTree_skipSpace]

/-- An item of an array, and what stands behind it. -/
theorem readItems_item {t : Tree} {c : Char} (hitem : readTree fuel cs = (t, some rest))
    (hrest : skipSpace rest = c :: after) : readItems (fuel + 1) cs =
      if c = ']' then ([t], none, some after)
      else if c = ',' then
        (t :: (readItems fuel after).1, (readItems fuel after).2.1, (readItems fuel after).2.2)
      else ([t], some Fault.malformed.halt, none) := by
  rw [readItems, hitem]
  dsimp only
  rw [hrest]

/-- A field of an object, and what stands behind it. -/
theorem readFields_field {name : Option String} {t : Tree} {c : Char} {named valued : List Char}
    (hopen : skipSpace cs = '"' :: rest) (hname : readText rest = .ok (name, named))
    (hcolon : skipSpace named = ':' :: valued) (hvalue : readTree fuel valued = (t, some behind))
    (hbehind : skipSpace behind = c :: after) : readFields (fuel + 1) cs =
      if c = '\x7d' then ([(name, t)], none, some after)
      else if c = ',' then ((name, t) :: (readFields fuel after).1, (readFields fuel after).2.1,
        (readFields fuel after).2.2)
      else ([(name, t)], some Fault.malformed.halt, none) := by
  rw [readFields, hopen]
  dsimp only
  rw [if_neg (by decide), hname]
  dsimp only
  rw [hcolon]
  dsimp only
  rw [if_neg (by decide), hvalue]
  dsimp only
  rw [hbehind]

/-- An array that is not empty. -/
theorem readTree_array {c : Char} {ts : List Tree} (hopen : skipSpace cs = c :: rest)
    (hc : c ≠ ']') (hitems : readItems fuel cs = (ts, none, some after)) :
    readTree (fuel + 1) ('[' :: cs) = (.array ts none, some after) := by
  -- the reader decides on what stands behind the spaces
  rw [← readItems_skipSpace, hopen] at hitems
  unfold readTree
  rw [skipSpace_cons rfl]
  split
  · next hcons =>
    cases hcons
    rw [hopen]
    split
    · next hnil => cases hnil
    · next hcons => exact absurd (List.cons.inj hcons).1 hc
    · rw [hitems]
  · next hcons => exact absurd (List.cons.inj hcons).1 (by decide)
  · next hother _ => exact absurd rfl (hother cs)

/-- An object that is not empty. -/
theorem readTree_object {c : Char} {ts : List (Option String × Tree)}
    (hopen : skipSpace cs = c :: rest) (hc : c ≠ '\x7d')
    (hfields : readFields fuel cs = (ts, none, some after)) :
    readTree (fuel + 1) ('\x7b' :: cs) = (.object ts none, some after) := by
  rw [← readFields_skipSpace, hopen] at hfields
  unfold readTree
  rw [skipSpace_cons rfl]
  split
  · next hcons => exact absurd (List.cons.inj hcons).1 (by decide)
  · next hcons =>
    cases hcons
    rw [hopen]
    split
    · next hnil => cases hnil
    · next hcons => exact absurd (List.cons.inj hcons).1 hc
    · rw [hfields]
  · next hother => exact absurd rfl (hother cs)

theorem ends_gap (hgap : ∀ c ∈ gap, isSpace c) (hrest : Ends rest) : Ends (gap ++ rest) := by
  cases gap with
  | nil => exact hrest
  | cons g gap =>
    rintro c ⟨⟩
    have hspace := hgap g (List.mem_cons_self ..)
    simp only [isSpace, Bool.or_eq_true, beq_iff_eq] at hspace
    rcases hspace with ((rfl | rfl) | rfl) | rfl <;> decide

theorem ends_bracket : Ends (']' :: rest) := by
  rintro c ⟨⟩
  decide

theorem ends_brace : Ends ('\x7d' :: rest) := by
  rintro c ⟨⟩
  decide

theorem ends_comma : Ends (',' :: rest) := by
  rintro c ⟨⟩
  decide

/-- A value is read back from every place of a layout. -/
structure Recovered (v : Json) : Prop where
  opens : ∀ level, ∃ c tail, laid s level v = c :: tail ∧ isSpace c = false ∧ c ≠ ']'
  reads : ∀ level fuel rest, Ends rest → 2 * (laid s level v).length ≤ fuel →
    readTree fuel (laid s level v ++ rest) = (tree v, some rest)

variable {s}

/-- Items are read back up to the bracket behind them. -/
theorem readItems_laid {items : List Json} (hne : items ≠ [])
    (h : ∀ item ∈ items, Recovered s item) (hgap : ∀ c ∈ gap, isSpace c)
    (hfuel : 2 * (laidItems s level items).length + 1 ≤ fuel) :
    readItems fuel (laidItems s level items ++ (gap ++ ']' :: rest)) =
      (items.map tree, none, some rest) := by
  -- every item takes one unit of fuel for itself; its text leaves enough of it for the others
  induction items generalizing fuel with
  | nil => exact absurd rfl hne
  | cons item others ih =>
    obtain ⟨fuel, rfl⟩ : ∃ n, fuel = n + 1 := ⟨fuel - 1, by omega⟩
    have hitem := h item (List.mem_cons_self ..)
    cases others with
    | nil =>
      have hread : readTree fuel (laidItems s level [item] ++ (gap ++ ']' :: rest)) =
          (tree item, some (gap ++ ']' :: rest)) := by
        rw [laidItems, List.length_append] at hfuel
        rw [laidItems, List.append_assoc, readTree_gap (s.line_space level)]
        exact hitem.reads level fuel _ (ends_gap hgap ends_bracket) (by omega)
      have hend : skipSpace (gap ++ ']' :: rest) = ']' :: rest :=
        (skipSpace_append hgap _).trans (skipSpace_cons rfl _)
      rw [readItems_item hread hend, if_pos rfl]
      rfl
    | cons next others =>
      have hlaid : laidItems s level (item :: next :: others) =
          s.line level ++ laid s level item ++ ',' :: laidItems s level (next :: others) := rfl
      have hread : readTree fuel (laidItems s level (item :: next :: others) ++
          (gap ++ ']' :: rest)) = (tree item,
            some (',' :: (laidItems s level (next :: others) ++ (gap ++ ']' :: rest)))) := by
        rw [hlaid, List.length_append, List.length_append] at hfuel
        rw [hlaid, List.append_assoc, List.append_assoc, readTree_gap (s.line_space level)]
        exact hitem.reads level fuel _ ends_comma (by omega)
      have hfuel' : 2 * (laidItems s level (next :: others)).length + 1 ≤ fuel := by
        rw [hlaid, List.length_append, List.length_cons] at hfuel
        omega
      have hrest := ih (by simp) (fun other hother => h other (List.mem_cons_of_mem _ hother)) hfuel'
      rw [readItems_item hread (skipSpace_cons rfl _), if_neg (by decide), if_pos rfl, hrest]
      rfl

/-- A written field is read back, and then what stands behind it. -/
theorem readFields_laid_field {field : String × Json} (h : Recovered s field.2) {c : Char}
    (hends : Ends behind) (hbehind : skipSpace behind = c :: after)
    (hfuel : 2 * (laid s level field.2).length ≤ fuel) :
    readFields (fuel + 1) (s.line level ++ (quote field.1).toList ++ ':' :: s.colon ++
        laid s level field.2 ++ behind) =
      if c = '\x7d' then ([(some field.1, tree field.2)], none, some after)
      else if c = ',' then ((some field.1, tree field.2) :: (readFields fuel after).1,
        (readFields fuel after).2.1, (readFields fuel after).2.2)
      else ([(some field.1, tree field.2)], some Fault.malformed.halt, none) := by
  obtain ⟨name, value⟩ := field
  have hopen : skipSpace (s.line level ++ (quote name).toList ++ ':' :: s.colon ++
      laid s level value ++ behind) = '"' :: (name.toList.flatMap (fun c => (spelled c).toList) ++
        '"' :: ':' :: (s.colon ++ (laid s level value ++ behind))) := by
    simp only [List.append_assoc]
    rw [skipSpace_append (s.line_space level), quote_toList, List.cons_append, skipSpace_cons rfl]
    simp
  have hvalue : readTree fuel (s.colon ++ (laid s level value ++ behind)) =
      (tree value, some behind) := by
    rw [readTree_gap s.colon_space]
    exact h.reads level fuel behind hends hfuel
  exact readFields_field hopen (readText_quote name _) (skipSpace_cons rfl _) hvalue hbehind

/-- Fields are read back up to the brace behind them. -/
theorem readFields_laid {fields : List (String × Json)} (hne : fields ≠ [])
    (h : ∀ field ∈ fields, Recovered s field.2) (hgap : ∀ c ∈ gap, isSpace c)
    (hfuel : 2 * (laidFields s level fields).length + 1 ≤ fuel) :
    readFields fuel (laidFields s level fields ++ (gap ++ '\x7d' :: rest)) =
      (fields.map (fun field => (some field.1, tree field.2)), none, some rest) := by
  induction fields generalizing fuel with
  | nil => exact absurd rfl hne
  | cons field others ih =>
    obtain ⟨fuel, rfl⟩ : ∃ n, fuel = n + 1 := ⟨fuel - 1, by omega⟩
    have hfield := h field (List.mem_cons_self ..)
    cases others with
    | nil =>
      have hlaid : laidFields s level [field] = s.line level ++ (quote field.1).toList ++
          ':' :: s.colon ++ laid s level field.2 := rfl
      have hend : skipSpace (gap ++ '\x7d' :: rest) = '\x7d' :: rest :=
        (skipSpace_append hgap _).trans (skipSpace_cons rfl _)
      have hvalue : 2 * (laid s level field.2).length ≤ fuel := by
        rw [hlaid, List.length_append] at hfuel
        omega
      rw [hlaid, readFields_laid_field hfield (ends_gap hgap ends_brace) hend hvalue, if_pos rfl]
      rfl
    | cons next others =>
      have hlaid : laidFields s level (field :: next :: others) =
          s.line level ++ (quote field.1).toList ++ ':' :: s.colon ++ laid s level field.2 ++
            ',' :: laidFields s level (next :: others) := rfl
      have hlength := congrArg List.length hlaid
      rw [List.length_append, List.length_append, List.length_cons] at hlength
      have hvalue : 2 * (laid s level field.2).length ≤ fuel := by omega
      have hothers : 2 * (laidFields s level (next :: others)).length + 1 ≤ fuel := by omega
      have hrest := ih (by simp) (fun other hother => h other (List.mem_cons_of_mem _ hother)) hothers
      rw [hlaid, List.append_assoc, List.cons_append,
        readFields_laid_field hfield ends_comma (skipSpace_cons rfl _) hvalue,
        if_neg (by decide), if_pos rfl, hrest]
      rfl

/-- A scalar is read back if its text opens as no other value does. -/
theorem recovered_scalar {v : Json} {c : Char} {tail : List Char}
    (hlaid : ∀ level, laid s level v = c :: tail) (hspace : isSpace c = false)
    (hc : c ≠ ']' ∧ c ≠ '[' ∧ c ≠ '\x7b')
    (hread : ∀ rest, Ends rest → readScalar (c :: (tail ++ rest)) = (tree v, some rest)) :
    Recovered s v := by
  refine ⟨fun level => ⟨c, tail, hlaid level, hspace, hc.1⟩, fun level fuel rest hrest hfuel => ?_⟩
  rw [hlaid, List.length_cons] at hfuel
  obtain ⟨fuel, rfl⟩ : ∃ n, fuel = n + 1 := ⟨fuel - 1, by omega⟩
  rw [hlaid, List.cons_append, readTree_scalar hspace hc.2.1 hc.2.2]
  exact hread rest hrest

/-- A number is read back as the numeral that is its text. -/
theorem recovered_numeral {v : Json} {n : Numeral} (hlaid : ∀ level, laid s level v = cs)
    (htree : tree v = .number n) (hread : readNumeral cs = .ok (n, [])) : Recovered s v := by
  obtain ⟨c, tail, rfl, hc⟩ := readNumeral_open hread
  obtain ⟨hspace, -, -, hclose, -⟩ := numeral_open hc
  refine ⟨fun level => ⟨c, tail, hlaid level, hspace, hclose⟩, fun level fuel rest hrest hfuel => ?_⟩
  rw [hlaid, List.length_cons] at hfuel
  obtain ⟨fuel, rfl⟩ : ∃ n, fuel = n + 1 := ⟨fuel - 1, by omega⟩
  rw [hlaid, htree]
  exact readTree_numeral ((local_readNumeral hread).2 rest hrest) fuel

theorem recovered_array {items : List Json} (h : ∀ item ∈ items, Recovered s item) :
    Recovered s (.array items) := by
  refine ⟨fun level => ?_, fun level fuel rest _ hfuel => ?_⟩
  · cases items with
    | nil => exact ⟨'[', _, rfl, rfl, by decide⟩
    | cons item items => exact ⟨'[', _, rfl, rfl, by decide⟩
  cases items with
  | nil =>
    have hlaid : laid s level (.array []) = ['[', ']'] := rfl
    rw [hlaid, List.length_cons] at hfuel
    obtain ⟨fuel, rfl⟩ : ∃ n, fuel = n + 1 := ⟨fuel - 1, by omega⟩
    rfl
  | cons item items =>
    have hlaid : laid s level (.array (item :: items)) ++ rest =
        '[' :: (laidItems s (level + 1) (item :: items) ++ (s.line level ++ ']' :: rest)) := by
      simp [laid]
    have hlength : (laid s level (.array (item :: items))).length =
        (laidItems s (level + 1) (item :: items)).length + (s.line level).length + 2 := by
      simp [laid]
      omega
    obtain ⟨fuel, rfl⟩ : ∃ n, fuel = n + 1 := ⟨fuel - 1, by omega⟩
    -- the first item opens with no bracket that would end the array
    obtain ⟨c, tail, hfirst, hspace, hc⟩ := (h item (List.mem_cons_self ..)).opens (level + 1)
    obtain ⟨others, hothers⟩ : ∃ others, laidItems s (level + 1) (item :: items) =
        s.line (level + 1) ++ c :: others := by
      cases items <;> simp [laidItems, hfirst]
    have hskip (cs : List Char) : skipSpace (laidItems s (level + 1) (item :: items) ++ cs) =
        c :: (others ++ cs) := by
      rw [hothers, List.append_assoc, skipSpace_append (s.line_space _), List.cons_append,
        skipSpace_cons hspace]
    rw [hlaid, tree, itemTrees_eq]
    exact readTree_array (hskip _) hc (readItems_laid (by simp) h (s.line_space level) (by omega))

theorem recovered_object {fields : List (String × Json)}
    (h : ∀ field ∈ fields, Recovered s field.2) : Recovered s (.object fields) := by
  refine ⟨fun level => ?_, fun level fuel rest _ hfuel => ?_⟩
  · cases fields with
    | nil => exact ⟨'\x7b', _, rfl, rfl, by decide⟩
    | cons field fields => exact ⟨'\x7b', _, rfl, rfl, by decide⟩
  cases fields with
  | nil =>
    have hlaid : laid s level (.object []) = ['\x7b', '\x7d'] := rfl
    rw [hlaid, List.length_cons] at hfuel
    obtain ⟨fuel, rfl⟩ : ∃ n, fuel = n + 1 := ⟨fuel - 1, by omega⟩
    rfl
  | cons field fields =>
    have hlaid : laid s level (.object (field :: fields)) ++ rest =
        '\x7b' :: (laidFields s (level + 1) (field :: fields) ++ (s.line level ++ '\x7d' :: rest)) := by
      simp [laid]
    have hlength : (laid s level (.object (field :: fields))).length =
        (laidFields s (level + 1) (field :: fields)).length + (s.line level).length + 2 := by
      simp [laid]
      omega
    obtain ⟨fuel, rfl⟩ : ∃ n, fuel = n + 1 := ⟨fuel - 1, by omega⟩
    obtain ⟨others, hothers⟩ : ∃ others, laidFields s (level + 1) (field :: fields) =
        s.line (level + 1) ++ '"' :: others := by
      cases fields <;> simp [laidFields, quote_toList]
    have hskip (cs : List Char) : skipSpace (laidFields s (level + 1) (field :: fields) ++ cs) =
        '"' :: (others ++ cs) := by
      rw [hothers, List.append_assoc, skipSpace_append (s.line_space _), List.cons_append,
        skipSpace_cons rfl]
    rw [hlaid, tree, fieldTrees_eq]
    exact readTree_object (hskip _) (by decide)
      (readFields_laid (by simp) h (s.line_space level) (by omega))

/-- **A value is read back from any layout**, if the text of every double in it is. -/
theorem recovered (v : Json) (hreals : ∀ x ∈ v.reals, ReadsBack x) : Recovered s v := by
  induction v using induct with
  | null =>
    exact recovered_scalar (fun _ => rfl) rfl (by decide) fun _ _ => rfl
  | bool b =>
    cases b
    · exact recovered_scalar (fun _ => rfl) rfl (by decide) fun _ _ => rfl
    · exact recovered_scalar (fun _ => rfl) rfl (by decide) fun _ _ => rfl
  | integer n =>
    have hread : readNumeral ((toString n).toList ++ []) = .ok (Numeral.ofInt n, []) :=
      readNumeral_integer n (by simp [Ends])
    rw [List.append_nil] at hread
    exact recovered_numeral (fun _ => rfl) rfl hread
  | real x =>
    obtain ⟨n, hread, -⟩ := (hreals x (List.mem_singleton_self x)).exists_numeral
    have hn : Numeral.ofReal x = n := by
      rw [Numeral.ofReal, hread]
    exact recovered_numeral (fun _ => rfl) (congrArg Tree.number hn) hread
  | text t =>
    refine recovered_scalar (fun _ => quote_toList t) rfl (by decide) fun rest _ => ?_
    rw [List.append_assoc, readScalar]
    dsimp only
    rw [if_pos rfl, List.singleton_append, readText_quote]
    rfl
  | array items ih =>
    refine recovered_array fun item hitem => ih item hitem fun x hx => ?_
    exact hreals x (mem_reals_array hitem hx)
  | object fields ih =>
    refine recovered_object fun field hfield => ih field hfield fun x hx => ?_
    exact hreals x (mem_reals_object hfield hx)

theorem read_of_laid {text : String} {v : Json} (htext : text.toList = laid s level v)
    (hreals : ∀ x ∈ v.reals, ReadsBack x) : Tree.read text = (tree v, some []) := by
  have hv : Recovered s v := recovered v hreals
  have hread := hv.reads level (2 * text.toList.length + 2) [] (by simp [Ends])
    (by rw [htext]; omega)
  rw [← htext, List.append_nil] at hread
  exact hread

/-- **A compact text is read back.** -/
theorem read_compact {v : Json} (hreals : ∀ x ∈ v.reals, ReadsBack x) :
    Tree.read v.compact = (tree v, some []) :=
  read_of_laid (compact_toList v 0) hreals

/-- **A text with one item to a line is read back.** -/
theorem read_pretty {v : Json} (hreals : ∀ x ∈ v.reals, ReadsBack x) :
    Tree.read v.pretty = (tree v, some []) :=
  read_of_laid (prettyAt_toList v 0) hreals

/-! ### Trees determine values -/

theorem eq_of_map_eq {α β : Type} {f : α → β} {p : α → Prop} {xs ys : List α}
    (hinj : ∀ x ∈ xs, ∀ y, p y → f x = f y → x = y) (hys : ∀ y ∈ ys, p y)
    (h : xs.map f = ys.map f) : xs = ys := by
  induction xs generalizing ys with
  | nil => exact (List.map_eq_nil_iff.1 h.symm).symm
  | cons x xs ih =>
    cases ys with
    | nil => cases h
    | cons y ys =>
      obtain ⟨hhead, htail⟩ := List.cons.inj h
      obtain ⟨hx, hxs⟩ := List.forall_mem_cons.1 hinj
      obtain ⟨hy, hys⟩ := List.forall_mem_cons.1 hys
      rw [hx y hy hhead, ih hxs hys htail]

/-- **The tree of a value without doubles determines it.** -/
theorem eq_of_tree_eq {v w : Json} (hv : v.reals = []) (hw : w.reals = [])
    (h : tree v = tree w) : v = w := by
  induction v using induct generalizing w with
  | array items ih =>
    rw [reals_array, List.flatMap_eq_nil_iff] at hv
    cases w with
    | array others =>
      rw [reals_array, List.flatMap_eq_nil_iff] at hw
      simp only [tree, itemTrees_eq, Tree.array.injEq, and_true] at h
      refine congrArg array (eq_of_map_eq ?_ hw h)
      intro item hitem other hother heq
      exact ih item hitem (hv item hitem) hother heq
    | _ => simp [tree] at h
  | object fields ih =>
    rw [reals_object, List.flatMap_eq_nil_iff] at hv
    cases w with
    | object others =>
      rw [reals_object, List.flatMap_eq_nil_iff] at hw
      simp only [tree, fieldTrees_eq, Tree.object.injEq, and_true] at h
      refine congrArg object (eq_of_map_eq ?_ hw h)
      intro field hfield other hother heq
      obtain ⟨hname, hvalue⟩ := Prod.mk.inj heq
      exact Prod.ext (Option.some.inj hname) (ih field hfield (hv field hfield) hother hvalue)
    | _ => simp [tree] at h
  | integer n =>
    cases w with
    | integer m =>
      rw [tree, tree, Tree.number.injEq] at h
      rw [Numeral.ofInt_injective h]
    | real x => simp [reals] at hw
    | _ => simp [tree] at h
  | real x => simp [reals] at hv
  | _ => cases w <;> simp_all [tree]

/-- **The compact text of a value without doubles determines it.** -/
theorem compact_inj {v w : Json} (hv : v.reals = []) (hw : w.reals = []) :
    v.compact = w.compact ↔ v = w := by
  refine ⟨fun h => eq_of_tree_eq hv hw ?_, congrArg compact⟩
  have hread := read_compact (v := v) (by simp [hv])
  rw [h, read_compact (by simp [hw])] at hread
  exact (Prod.mk.inj hread).1.symm

end ShapeFlow.Json
