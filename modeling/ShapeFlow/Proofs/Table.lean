import ShapeFlow.Table
import Mathlib.Data.List.Induction
import Mathlib.Data.List.Sort

/-!
# Tables made entry by entry

* `Table.names_eq_of_mem_iff`: the names of a table are determined by what they are.
* `Table.mapEntries`: other values under the same names.
* `Table.get?_foldl_insert`, `Table.get?_foldl_insertNew`: lookups in a table made of many entries,
  the last or the first of a name prevailing.
-/

namespace ShapeFlow.Table

variable {α β : Type}

theorem names_ascending (t : Table α) : t.names.Pairwise (· < ·) :=
  List.pairwise_map.2 t.ascending

/-- No name stands twice in a table. -/
theorem names_nodup (t : Table α) : t.names.Nodup :=
  t.names_ascending.imp fun h => String.ne_of_lt h

theorem mem_names_iff {t : Table α} {key : String} : key ∈ t.names ↔ (t.get? key).isSome := by
  rw [names, List.mem_map, Option.isSome_iff_exists]
  constructor
  · rintro ⟨⟨name, value⟩, h, rfl⟩
    exact ⟨value, (get?_eq_some_iff t name value).2 h⟩
  · rintro ⟨value, h⟩
    exact ⟨(key, value), (get?_eq_some_iff t key value).1 h, rfl⟩

/-- **Ascending names are determined by what they are.** -/
theorem names_eq_of_mem_iff {t : Table α} {names : List String} (h : names.Pairwise (· < ·))
    (hmem : ∀ key, (t.get? key).isSome ↔ key ∈ names) : t.names = names :=
  t.names_ascending.eq_of_mem_iff h fun {key} => mem_names_iff.trans (hmem key)

theorem ofList_concat (entries : List (String × α)) (last : String × α) :
    ofList (entries ++ [last]) = (ofList entries).insert last.1 last.2 := by
  simp [ofList]

/-- The last entry of a name prevails. -/
theorem get?_foldl_insert (f : β → String × α) (entries : List β) (t : Table α) (key : String) :
    (entries.foldl (fun t b => t.insert (f b).1 (f b).2) t).get? key =
      ((entries.reverse.find? (fun b => (f b).1 == key)).map (fun b => (f b).2)).or
        (t.get? key) := by
  induction entries using List.reverseRecOn with
  | nil => rfl
  | append_singleton entries b ih =>
    rw [List.foldl_append, List.foldl_cons, List.foldl_nil, get?_insert, ih, List.reverse_append,
      List.reverse_singleton, List.singleton_append, List.find?_cons]
    by_cases hkey : key = (f b).1
    · simp [hkey]
    · have hne : ((f b).1 == key) = false := by simpa using Ne.symm hkey
      simp [hkey, hne]

/-- Of repeated names, the last one counts. -/
theorem get?_ofList (entries : List (String × α)) (key : String) :
    (ofList entries).get? key = (entries.reverse.find? (·.1 == key)).map (·.2) := by
  rw [ofList, get?_foldl_insert (fun entry => entry), get?_empty, Option.or_none]

theorem get?_ofList_map (f : String → α) (names : List String) (key : String) :
    (ofList (names.map (fun name => (name, f name)))).get? key =
      if key ∈ names then some (f key) else none := by
  induction names using List.reverseRecOn with
  | nil => rfl
  | append_singleton names last ih =>
    rw [List.map_append, List.map_singleton, ofList_concat, get?_insert, ih]
    by_cases h : key = last <;> simp [h]

/-- With distinct names every entry of a list is in the table made of it. -/
theorem get?_ofList_eq_some_iff {entries : List (String × α)} {key : String} {value : α}
    (h : (entries.map (·.1)).Nodup) :
    (ofList entries).get? key = some value ↔ (key, value) ∈ entries := by
  induction entries using List.reverseRecOn with
  | nil => simp [ofList]
  | append_singleton entries last ih =>
    rw [List.map_append, List.map_singleton, ← List.concat_eq_append] at h
    obtain ⟨hlast, hentries⟩ := (List.nodup_concat _ _).1 h
    rw [ofList_concat, get?_insert, List.mem_append, List.mem_singleton, ← ih hentries]
    obtain ⟨name, held⟩ := last
    by_cases hkey : key = name
    · subst hkey
      have hnew : (ofList entries).get? key ≠ some value := fun hold =>
        hlast (List.mem_map.2 ⟨_, (ih hentries).1 hold, rfl⟩)
      simp [hnew, eq_comm]
    · simp [hkey]

theorem get?_insertNew (t : Table α) (name key : String) (value : α) :
    (t.insertNew name value).get? key =
      (t.get? key).or (if key = name then some value else none) := by
  unfold insertNew contains
  split
  · next h =>
    by_cases hk : key = name
    · subst hk
      obtain ⟨held, hheld⟩ := Option.isSome_iff_exists.1 h
      simp [hheld]
    · simp [hk]
  · next h =>
    have hnone : t.get? name = none := by simpa using h
    rw [get?_insert]
    by_cases hk : key = name
    · simp [hk, hnone]
    · simp [hk]

/-- The first entry of a name prevails. -/
theorem get?_foldl_insertNew (f : β → String × α) (entries : List β) (t : Table α) (key : String) :
    (entries.foldl (fun t b => t.insertNew (f b).1 (f b).2) t).get? key =
      (t.get? key).or ((entries.find? (fun b => (f b).1 == key)).map (fun b => (f b).2)) := by
  induction entries generalizing t with
  | nil => simp
  | cons b rest ih =>
    rw [List.foldl_cons, ih, get?_insertNew, List.find?_cons]
    by_cases h : key = (f b).1
    · cases t.get? key <;> simp [h]
    · have hb : ((f b).1 == key) = false := by simpa using Ne.symm h
      simp [h, hb]

/-- Other values under the same names. -/
def mapEntries (f : String → α → β) (t : Table α) : Table β where
  entries := t.entries.map (fun entry => (entry.1, f entry.1 entry.2))
  ascending := List.pairwise_map.2 (t.ascending.imp fun h => h)

theorem get?_mapEntries (f : String → α → β) (t : Table α) (key : String) :
    (t.mapEntries f).get? key = (t.get? key).map (f key) := by
  refine Option.ext fun value => ?_
  rw [get?_eq_some_iff, mapEntries, List.mem_map, Option.map_eq_some_iff]
  constructor
  · rintro ⟨⟨name, held⟩, hmem, heq⟩
    obtain ⟨rfl, rfl⟩ := Prod.mk.inj heq
    exact ⟨held, (get?_eq_some_iff ..).2 hmem, rfl⟩
  · rintro ⟨held, hheld, rfl⟩
    exact ⟨(key, held), (get?_eq_some_iff ..).1 hheld, rfl⟩

end ShapeFlow.Table
