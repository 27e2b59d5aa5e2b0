/-!
# Tables

A table maps names to values and lists its entries in name order, byte by byte. The order is part
of the type, so two tables with the same entries are equal.

* `Table.get?_insert`: what a lookup finds after an insertion.
* `Table.ext_get?`: a table is determined by its lookups.
-/

namespace ShapeFlow

/-- Entries of a table stand in strictly ascending name order. -/
def Ascending {α : Type} (entries : List (String × α)) : Prop :=
  entries.Pairwise (fun a b => a.1 < b.1)

/-- A finite map from names to values. -/
structure Table (α : Type) where
  entries : List (String × α)
  ascending : Ascending entries

namespace Table

variable {α β : Type}

instance [DecidableEq α] : DecidableEq (Table α) := fun a b =>
  if h : a.entries = b.entries then
    isTrue (by cases a; cases b; simp_all)
  else
    isFalse (fun e => h (e ▸ rfl))

/-- The table without entries. -/
def empty : Table α := ⟨[], List.Pairwise.nil⟩

instance : EmptyCollection (Table α) := ⟨empty⟩
instance : Inhabited (Table α) := ⟨empty⟩

/-- Puts an entry at its place; an entry of the same name gives way. -/
def place (name : String) (value : α) : List (String × α) → List (String × α)
  | [] => [(name, value)]
  | (other, held) :: rest =>
    if name < other then (name, value) :: (other, held) :: rest
    else if name = other then (name, value) :: rest
    else (other, held) :: place name value rest

theorem mem_place {name : String} {value : α} {entry : String × α}
    {entries : List (String × α)} (h : entry ∈ place name value entries) :
    entry = (name, value) ∨ entry ∈ entries := by
  induction entries with
  | nil => simp_all [place]
  | cons first rest ih =>
    obtain ⟨other, held⟩ := first
    simp only [place] at h
    split at h
    · simpa using h
    · split at h
      · rcases List.mem_cons.1 h with h | h
        · exact Or.inl h
        · exact Or.inr (List.mem_cons_of_mem _ h)
      · rcases List.mem_cons.1 h with h | h
        · exact Or.inr (h ▸ List.mem_cons_self ..)
        · exact (ih h).imp id (List.mem_cons_of_mem _)

private theorem lt_of_not_lt_of_ne {a b : String} (hlt : ¬ a < b) (hne : a ≠ b) : b < a := by
  by_cases h : b < a
  · exact h
  · exact absurd (String.le_antisymm (String.not_lt.1 h) (String.not_lt.1 hlt)) hne

/-- An entry is placed where its name belongs, so the names stay in order. -/
theorem ascending_place (name : String) (value : α) {entries : List (String × α)}
    (h : Ascending entries) : Ascending (place name value entries) := by
  induction entries with
  | nil => exact List.pairwise_singleton ..
  | cons first rest ih =>
    obtain ⟨other, held⟩ := first
    obtain ⟨hfirst, hrest⟩ := List.pairwise_cons.1 h
    simp only [place]
    split
    · next hlt =>
      refine List.pairwise_cons.2 ⟨fun entry hm => ?_, h⟩
      rcases List.mem_cons.1 hm with rfl | hm
      · exact hlt
      · exact String.lt_trans hlt (hfirst entry hm)
    · next hlt =>
      split
      · next heq => exact List.pairwise_cons.2 ⟨fun entry hm => heq ▸ hfirst entry hm, hrest⟩
      · next hne =>
        refine List.pairwise_cons.2 ⟨fun entry hm => ?_, ih hrest⟩
        rcases mem_place hm with rfl | hm
        · exact lt_of_not_lt_of_ne hlt hne
        · exact hfirst entry hm

/-- Adds an entry or replaces the one of the same name. -/
def insert (t : Table α) (name : String) (value : α) : Table α :=
  ⟨place name value t.entries, ascending_place name value t.ascending⟩

/-- The value under a name. -/
def get? (t : Table α) (name : String) : Option α := t.entries.lookup name

/-- Whether a name has an entry. -/
def contains (t : Table α) (name : String) : Bool := (t.get? name).isSome

/-- Adds an entry unless the name already has one. -/
def insertNew (t : Table α) (name : String) (value : α) : Table α :=
  if t.contains name then t else t.insert name value

/-- The names in order. -/
def names (t : Table α) : List String := t.entries.map (·.1)

/-- The values in the order of their names. -/
def values (t : Table α) : List α := t.entries.map (·.2)

/-- The number of entries. -/
def size (t : Table α) : Nat := t.entries.length

/-- Whether there is no entry. -/
def isEmpty (t : Table α) : Bool := t.entries.isEmpty

/-- A table of the entries given, a later one of the same name replacing an earlier one. -/
def ofList (entries : List (String × α)) : Table α :=
  entries.foldl (fun t entry => t.insert entry.1 entry.2) empty

theorem lookup_cons_eq (other key : String) (held : α) (rest : List (String × α)) :
    ((other, held) :: rest).lookup key = if key = other then some held else rest.lookup key := by
  rw [List.lookup_cons]
  by_cases h : key = other
  · rw [h, beq_self_eq_true, if_pos rfl]
  · rw [beq_false_of_ne h, if_neg h]

/-- What was placed is found under its name, and all other names stand for what they stood for. -/
theorem lookup_place (name key : String) (value : α) (entries : List (String × α)) :
    (place name value entries).lookup key =
      if key = name then some value else entries.lookup key := by
  induction entries with
  | nil => rw [place, lookup_cons_eq]
  | cons first rest ih =>
    obtain ⟨other, held⟩ := first
    simp only [place]
    split
    · rw [lookup_cons_eq]
    · split
      · next heq => subst heq; grind [lookup_cons_eq]
      · grind [lookup_cons_eq]

/-- **A lookup after an insertion** finds the new value under its name and nothing else new. -/
theorem get?_insert (t : Table α) (name key : String) (value : α) :
    (t.insert name value).get? key = if key = name then some value else t.get? key :=
  lookup_place name key value t.entries

@[simp] theorem get?_empty (key : String) : (empty : Table α).get? key = none := rfl

theorem lookup_eq_some_iff {entries : List (String × α)} (h : Ascending entries) (key : String)
    (value : α) : entries.lookup key = some value ↔ (key, value) ∈ entries := by
  induction entries with
  | nil => simp
  | cons first rest ih =>
    obtain ⟨other, held⟩ := first
    obtain ⟨hfirst, hrest⟩ := List.pairwise_cons.1 h
    rw [lookup_cons_eq, List.mem_cons, Prod.mk.injEq]
    split
    · next ho =>
      subst ho
      have : (key, value) ∉ rest := fun hm => String.lt_irrefl key (hfirst (key, value) hm)
      simp [this, eq_comm]
    · next ho => simp [ho, ih hrest]

theorem get?_eq_some_iff (t : Table α) (key : String) (value : α) :
    t.get? key = some value ↔ (key, value) ∈ t.entries :=
  lookup_eq_some_iff t.ascending key value

private theorem entries_eq_of_mem_iff : ∀ {xs ys : List (String × α)}, Ascending xs → Ascending ys →
    (∀ entry, entry ∈ xs ↔ entry ∈ ys) → xs = ys
  | [], [], _, _, _ => rfl
  | [], y :: _, _, _, h => by simpa using (h y).2
  | x :: _, [], _, _, h => by simpa using (h x).1
  | x :: xs, y :: ys, hx, hy, h => by
    obtain ⟨hx1, hx2⟩ := List.pairwise_cons.1 hx
    obtain ⟨hy1, hy2⟩ := List.pairwise_cons.1 hy
    have hxy : x = y := by
      rcases List.mem_cons.1 ((h x).1 (List.mem_cons_self ..)) with e | hm
      · exact e
      · rcases List.mem_cons.1 ((h y).2 (List.mem_cons_self ..)) with e | hm'
        · exact e.symm
        · exact absurd (hx1 y hm') (String.lt_asymm (hy1 x hm))
    subst hxy
    refine congrArg (x :: ·) (entries_eq_of_mem_iff hx2 hy2 fun entry => ?_)
    constructor
    · intro hm
      rcases List.mem_cons.1 ((h entry).1 (List.mem_cons_of_mem _ hm)) with rfl | hm'
      · exact absurd (hx1 _ hm) (String.lt_irrefl _)
      · exact hm'
    · intro hm
      rcases List.mem_cons.1 ((h entry).2 (List.mem_cons_of_mem _ hm)) with rfl | hm'
      · exact absurd (hy1 _ hm) (String.lt_irrefl _)
      · exact hm'

/-- **A table is determined by its lookups.** -/
theorem ext_get? {s t : Table α} (h : ∀ key, s.get? key = t.get? key) : s = t := by
  have : s.entries = t.entries := entries_eq_of_mem_iff s.ascending t.ascending fun entry => by
    obtain ⟨key, value⟩ := entry
    rw [← get?_eq_some_iff, ← get?_eq_some_iff, h]
  cases s; cases t; simp_all

end Table

end ShapeFlow
