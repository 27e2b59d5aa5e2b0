import ShapeFlow.Text.Blank
import Mathlib.Data.List.TakeWhile

/-!
# Blanks around names

* `Text.Trimmed`: no blank stands at either end.
* `Text.Padded`: a name with blanks around it.
* `Text.trimChars_eq_iff`: **trimming finds the one trimmed name** that the blanks are around.
-/

namespace ShapeFlow.Text

/-- Blanks and nothing else. -/
def Gap (cs : List Char) : Prop := ∀ c ∈ cs, isBlank c = true

/-- No blank stands at either end. -/
structure Trimmed (cs : List Char) : Prop where
  front : ∀ c ∈ cs.head?, isBlank c = false
  back : ∀ c ∈ cs.getLast?, isBlank c = false

/-- A name with blanks around it. -/
def Padded (cs name : List Char) : Prop :=
  ∃ before after, Gap before ∧ Gap after ∧ cs = before ++ name ++ after

variable {cs ds name before after : List Char}

theorem Gap.append (h : Gap cs) (hds : Gap ds) : Gap (cs ++ ds) :=
  List.forall_mem_append.2 ⟨h, hds⟩

theorem padded_self (cs : List Char) : Padded cs cs :=
  ⟨[], [], List.forall_mem_nil _, List.forall_mem_nil _, (List.append_nil _).symm⟩

/-- A gap holds blanks only. -/
theorem Gap.not_mem (h : Gap cs) {c : Char} (hc : isBlank c = false) : c ∉ cs := by
  intro hmem
  rw [h c hmem] at hc
  cases hc

/-- What is no blank stands in a padded name iff it stands in the name. -/
theorem Padded.mem_iff (h : Padded cs name) {c : Char} (hc : isBlank c = false) :
    c ∈ cs ↔ c ∈ name := by
  obtain ⟨before, after, hbefore, hafter, rfl⟩ := h
  simp [hbefore.not_mem hc, hafter.not_mem hc]

theorem dropWhile_gap_append (h : Gap before) (cs : List Char) :
    (before ++ cs).dropWhile isBlank = cs.dropWhile isBlank :=
  List.dropWhile_append_of_pos h

theorem dropWhile_of_front (h : ∀ c ∈ cs.head?, isBlank c = false) :
    cs.dropWhile isBlank = cs := by
  cases cs with
  | nil => rfl
  | cons c cs => rw [List.dropWhile_cons_of_neg (by simp [h c rfl])]

theorem front_dropWhile (cs : List Char) :
    ∀ c ∈ (cs.dropWhile isBlank).head?, isBlank c = false := by
  intro c hc
  have h := List.head?_dropWhile_not isBlank cs
  rwa [hc] at h

theorem gap_takeWhile (cs : List Char) : Gap (cs.takeWhile isBlank) :=
  fun _ hc => List.mem_takeWhile_imp hc

theorem Gap.reverse (h : Gap cs) : Gap cs.reverse := fun c hc => h c (List.mem_reverse.1 hc)

/-- What is left behind the first blanks, cut in front of the last ones. -/
theorem dropWhile_eq_trimChars (cs : List Char) :
    ∃ after, Gap after ∧ cs.dropWhile isBlank = trimChars cs ++ after := by
  refine ⟨((cs.dropWhile isBlank).reverse.takeWhile isBlank).reverse, (gap_takeWhile _).reverse, ?_⟩
  rw [trimChars, ← List.reverse_append, List.takeWhile_append_dropWhile, List.reverse_reverse]

/-- What is trimmed away is a gap on either side. -/
theorem padded_trimChars (cs : List Char) : Padded cs (trimChars cs) := by
  obtain ⟨after, hafter, hrest⟩ := dropWhile_eq_trimChars cs
  refine ⟨cs.takeWhile isBlank, after, gap_takeWhile cs, hafter, ?_⟩
  rw [List.append_assoc, ← hrest, List.takeWhile_append_dropWhile]

theorem trimmed_trimChars (cs : List Char) : Trimmed (trimChars cs) where
  front := by
    obtain ⟨after, -, hrest⟩ := dropWhile_eq_trimChars cs
    intro c hc
    have hfront := front_dropWhile cs
    rw [hrest, List.head?_append, hc] at hfront
    exact hfront c rfl
  back := by
    rw [trimChars, List.getLast?_reverse]
    exact front_dropWhile _

/-- **Blanks around a trimmed name are all that trimming takes.** -/
theorem trimChars_padded (h : Padded cs name) (hname : Trimmed name) : trimChars cs = name := by
  obtain ⟨before, after, hbefore, hafter, rfl⟩ := h
  rw [trimChars, List.append_assoc, dropWhile_gap_append hbefore]
  cases name with
  | nil =>
    -- Nothing stops the blanks, and all of them are taken from the front.
    rw [List.nil_append, List.dropWhile_eq_nil_iff.2 hafter]
    rfl
  | cons c name =>
    have hback : ∀ d ∈ (c :: name).reverse.head?, isBlank d = false := by
      rw [List.head?_reverse]
      exact hname.back
    have hfront : ∀ d ∈ (c :: name ++ after).head?, isBlank d = false := hname.front
    rw [dropWhile_of_front hfront, List.reverse_append, dropWhile_gap_append hafter.reverse,
      dropWhile_of_front hback, List.reverse_reverse]

/-- **Trimming finds the one trimmed name** that the blanks are around. -/
theorem trimChars_eq_iff : trimChars cs = name ↔ Padded cs name ∧ Trimmed name := by
  constructor
  · rintro rfl
    exact ⟨padded_trimChars cs, trimmed_trimChars cs⟩
  · rintro ⟨h, hname⟩
    exact trimChars_padded h hname

/-- Trimming twice is trimming once. -/
theorem trimChars_trimChars (cs : List Char) : trimChars (trimChars cs) = trimChars cs :=
  trimChars_padded (padded_self _) (trimmed_trimChars cs)

/-- Blanks at the ends of a text make no difference to what is left of it. -/
theorem trimChars_gaps (hbefore : Gap before) (hafter : Gap after) (cs : List Char) :
    trimChars (before ++ cs ++ after) = trimChars cs := by
  obtain ⟨front, back, hfront, hback, hcs⟩ := padded_trimChars cs
  have hsplit : before ++ cs ++ after = (before ++ front) ++ trimChars cs ++ (back ++ after) :=
    calc before ++ cs ++ after = before ++ (front ++ trimChars cs ++ back) ++ after := by rw [← hcs]
      _ = (before ++ front) ++ trimChars cs ++ (back ++ after) := by simp only [List.append_assoc]
  exact trimChars_padded ⟨_, _, hbefore.append hfront, hback.append hafter, hsplit⟩
    (trimmed_trimChars cs)

end ShapeFlow.Text
