import Rrelayer.Lib.Machine

/-! A machine that notes what its steps emit, newest first. A condition on each emitted entry and
the ones before it is a condition on each step of the run. -/
namespace EventMachine

structure Journal (S A : Type*) where
  state : S
  entries : List A

variable {S E A : Type*}

def note (step : S → E → S) (emits : S → E → Option A) (j : Journal S A) (e : E) : Journal S A where
  state := step j.state e
  entries := (emits j.state e).toList ++ j.entries

/-- Every entry stands in the relation to the ones noted before it. -/
def Each (P : List A → A → Prop) : List A → Prop
  | [] => True
  | a :: older => P older a ∧ Each P older

instance decidableEach (P : List A → A → Prop) [∀ older a, Decidable (P older a)] :
    ∀ entries, Decidable (Each P entries)
  | [] => .isTrue trivial
  | _ :: older => @instDecidableAnd _ _ _ (decidableEach P older)

variable {step : S → E → S} {emits : S → E → Option A} {P : List A → A → Prop}

/-- Taking notes does not change the run. -/
theorem run_note_state (j : Journal S A) (es : List E) :
    (run (note step emits) j es).state = run step j.state es := by
  induction es generalizing j with
  | nil => rfl
  | cons e es ih => exact ih _

theorem each_note {j : Journal S A} {e : E} :
    Each P (note step emits j e).entries ↔
      (∀ a ∈ emits j.state e, P j.entries a) ∧ Each P j.entries := by
  unfold note
  rcases emits j.state e with _ | a
  · simp
  · simp [Each]

/-- The entries of a run are right exactly when each step emits a right one. -/
theorem each_run_iff {j : Journal S A} {es : List E} :
    Each P (run (note step emits) j es).entries ↔
      Along (note step emits) (fun j e => ∀ a ∈ emits j.state e, P j.entries a) j es ∧
        Each P j.entries := by
  induction es generalizing j with
  | nil => simp [Along]
  | cons e es ih =>
    rw [run_cons, ih, each_note]
    constructor
    · rintro ⟨hrest, hnow, hbefore⟩
      exact ⟨⟨hnow, hrest⟩, hbefore⟩
    · rintro ⟨⟨hnow, hrest⟩, hbefore⟩
      exact ⟨hrest, hnow, hbefore⟩

end EventMachine
