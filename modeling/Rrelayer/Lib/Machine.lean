import Mathlib.Data.List.Basic

/-! Deterministic machines driven by events. Everything nondeterministic is part of an event,
so a run is a fold, and a condition on a run is a condition on each state and its event. -/
namespace EventMachine

variable {S E : Type*} (step : S → E → S)

def run (s : S) (es : List E) : S := es.foldl step s

@[simp] theorem run_nil (s : S) : run step s [] = s := rfl

@[simp] theorem run_cons (s : S) (e : E) (es : List E) :
    run step s (e :: es) = run step (step s e) es := rfl

theorem run_append (s : S) (es fs : List E) :
    run step s (es ++ fs) = run step (run step s es) fs := by
  simp [run]

/-- Every step of the run meets `ok`, which sees the state before the step. -/
def Along (ok : S → E → Prop) : S → List E → Prop
  | _, [] => True
  | s, e :: es => ok s e ∧ Along ok (step s e) es

instance decidableAlong (ok : S → E → Prop) [∀ s e, Decidable (ok s e)] :
    ∀ s es, Decidable (Along step ok s es)
  | _, [] => .isTrue trivial
  | s, e :: es => @instDecidableAnd _ _ _ (decidableAlong ok (step s e) es)

variable {step} {ok ok' : S → E → Prop} {s : S} {es fs : List E}

theorem along_append :
    Along step ok s (es ++ fs) ↔ Along step ok s es ∧ Along step ok (run step s es) fs := by
  induction es generalizing s with
  | nil => simp [Along]
  | cons e es ih => simp [Along, ih, and_assoc]

/-- A condition along a run is the condition at each of its splits. -/
theorem along_iff_split :
    Along step ok s es ↔
      ∀ before e after, es = before ++ e :: after → ok (run step s before) e := by
  constructor
  · rintro h before e after rfl
    exact (along_append.mp h).2.1
  · intro h
    induction es generalizing s with
    | nil => trivial
    | cons e es ih =>
      refine ⟨h [] e es rfl, ih ?_⟩
      intro before e' after heq
      exact h (e :: before) e' after (by rw [heq]; rfl)

theorem Along.mono (h : ∀ s e, ok s e → ok' s e) (ha : Along step ok s es) :
    Along step ok' s es := by
  induction es generalizing s with
  | nil => trivial
  | cons e es ih => exact ⟨h s e ha.1, ih ha.2⟩

theorem Along.and (h : Along step ok s es) (h' : Along step ok' s es) :
    Along step (fun s e => ok s e ∧ ok' s e) s es := by
  induction es generalizing s with
  | nil => trivial
  | cons e es ih => exact ⟨⟨h.1, h'.1⟩, ih h.2 h'.2⟩

/-- What every step preserves, a whole run preserves. -/
theorem run_invariant {P : S → Prop} (hstep : ∀ s e, P s → P (step s e)) (hs : P s)
    (es : List E) : P (run step s es) := by
  induction es generalizing s with
  | nil => exact hs
  | cons e es ih => exact ih (hstep s e hs)

/-- What each permitted step preserves, a whole run preserves. -/
theorem Along.invariant {P : S → Prop} (hstep : ∀ s e, ok s e → P s → P (step s e))
    (ha : Along step ok s es) (hs : P s) : P (run step s es) := by
  induction es generalizing s with
  | nil => exact hs
  | cons e es ih => exact ih ha.2 (hstep s e ha.1 hs)

/-- A condition that follows from the invariant at each permitted step holds along the run. -/
theorem Along.of_invariant {P : S → Prop} (hstep : ∀ s e, ok s e → P s → P (step s e))
    (hok : ∀ s e, ok s e → P s → ok' s e) (ha : Along step ok s es) (hs : P s) :
    Along step ok' s es := by
  induction es generalizing s with
  | nil => trivial
  | cons e es ih => exact ⟨hok s e ha.1 hs, ih ha.2 (hstep s e ha.1 hs)⟩

/-- The invariant form for a state in the middle of the run. -/
theorem Along.invariant_prefix {P : S → Prop} (hstep : ∀ s e, ok s e → P s → P (step s e))
    (ha : Along step ok s (es ++ fs)) (hs : P s) : P (run step s es) :=
  (along_append.mp ha).1.invariant hstep hs

section View

variable {T F : Type*} {step' : T → F → T} {view : S → T} {seen : E → Option F} {valid : E → Prop}
  {P : S → Prop}

/-- A part of the state that its own events alone move goes through the run of those events. -/
theorem run_view (hinv : ∀ s e, valid e → P s → P (step s e))
    (hview : ∀ s e, valid e → P s →
      view (step s e) = (seen e).elim (view s) (step' (view s)))
    (hs : P s) (hes : ∀ e ∈ es, valid e) :
    view (run step s es) = run step' (view s) (es.filterMap seen) := by
  induction es generalizing s with
  | nil => rfl
  | cons e es ih =>
    have he := hes e (List.mem_cons_self ..)
    have hrest := ih (hinv s e he hs) fun e' he' => hes e' (List.mem_cons_of_mem _ he')
    have hfirst := hview s e he hs
    rw [run_cons, hrest, hfirst]
    rcases hseen : seen e with _ | own
    · rw [List.filterMap_cons_none hseen]
      rfl
    · rw [List.filterMap_cons_some hseen, run_cons]
      rfl

end View

end EventMachine
