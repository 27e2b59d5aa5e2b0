import ShapeFlow.Rule.Inputs

/-!
# Taking outcomes apart

* `bind_eq_ok_iff`, `bind_eq_error_iff`: a chain of checks succeeds when every check does, and fails
  with the first failure.
* `map_eq_ok_iff`, `mapError_eq_ok_iff`: the same for a result that is taken further, and for an
  error that is put in other words.
* `exists_ok_of_any`: an outcome whose value passes a test is a success.
* `Rule.configured_eq_ok_iff`, `Rule.configured_eq_error_iff`: the same for a reading of parameters.
-/

namespace ShapeFlow

variable {ε α β : Type} {x : Except ε α} {next : α → Except ε β}

@[simp] theorem ok_bind (a : α) : (Except.ok a >>= next) = next a := rfl

@[simp] theorem error_bind (e : ε) : (Except.error e >>= next) = .error e := rfl

/-- Two steps give an answer when both do, one after the other. -/
theorem bind_eq_ok_iff {b : β} : x >>= next = .ok b ↔ ∃ a, x = .ok a ∧ next a = .ok b := by
  cases x <;> simp

/-- Two steps fail at the first one, or at the second one. -/
theorem bind_eq_error_iff {e : ε} :
    x >>= next = .error e ↔ x = .error e ∨ ∃ a, x = .ok a ∧ next a = .error e := by
  cases x <;> simp

theorem map_eq_ok_iff {f : α → β} {b : β} : x.map f = .ok b ↔ ∃ a, x = .ok a ∧ f a = b := by
  cases x <;> simp [Except.map]

theorem mapError_eq_ok_iff {δ : Type} {f : ε → δ} {a : α} : x.mapError f = .ok a ↔ x = .ok a := by
  constructor <;> intro h <;> cases x <;> cases h <;> rfl

/-- An outcome whose value passes a test is a success. -/
theorem exists_ok_of_any {P : α → Bool} (h : x.toOption.any P = true) :
    ∃ a, x = .ok a ∧ P a = true := by
  cases x with
  | error e => cases h
  | ok a => exact ⟨a, rfl, h⟩

namespace Rule

variable {reading : Except ShapeError α}

@[simp] theorem configured_ok (a : α) : configured (.ok a) = .ok a := rfl

@[simp] theorem configured_error (e : ShapeError) :
    configured (.error e : Except ShapeError α) = .error (.ofError e) := rfl

theorem configured_eq_ok_iff {a : α} : configured reading = .ok a ↔ reading = .ok a := by
  cases reading <;> simp

/-- A reading that fails in a rule fails with an error at no handle. -/
theorem configured_eq_error_iff {f : Failure} :
    configured reading = .error f ↔ ∃ e, reading = .error e ∧ f = .ofError e := by
  cases reading <;> simp [eq_comm]

end Rule

end ShapeFlow
