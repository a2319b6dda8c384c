import Mathlib.Data.List.Basic

/-! Checks over a list of items, one after the other: the first failure is the answer. -/
namespace Checks

variable {α ε : Type*} (check : α → Except ε Unit)

def checkAll : List α → Except ε Unit
  | [] => .ok ()
  | a :: as =>
      match check a with
      | .error e => .error e
      | .ok () => checkAll as

variable {check} {as : List α} {e : ε}

theorem checkAll_ok_iff : checkAll check as = .ok () ↔ ∀ a ∈ as, check a = .ok () := by
  induction as with
  | nil => simp [checkAll]
  | cons a as ih =>
    rw [List.forall_mem_cons]
    unfold checkAll
    cases hfirst : check a with
    | error e => simp
    | ok u => simpa using ih

/-- The answer is the failure of an item behind ones that pass. -/
theorem checkAll_error_iff : checkAll check as = .error e ↔ ∃ before a after,
    as = before ++ a :: after ∧ (∀ b ∈ before, check b = .ok ()) ∧ check a = .error e := by
  induction as with
  | nil => simp [checkAll]
  | cons a as ih =>
    unfold checkAll
    cases hfirst : check a with
    | error e' =>
      constructor
      · rintro ⟨⟩
        exact ⟨[], a, as, rfl, by simp, hfirst⟩
      · rintro ⟨before, b, after, hsplit, hbefore, hb⟩
        cases before with
        | nil =>
          cases hsplit
          rw [hfirst] at hb
          exact hb
        | cons c before =>
          obtain ⟨rfl, -⟩ := List.cons.inj hsplit
          rw [hbefore a (List.mem_cons_self ..)] at hfirst
          cases hfirst
    | ok u =>
      dsimp only
      rw [ih]
      constructor
      · rintro ⟨before, b, after, rfl, hbefore, hb⟩
        exact ⟨a :: before, b, after, rfl, List.forall_mem_cons.mpr ⟨hfirst, hbefore⟩, hb⟩
      · rintro ⟨before, b, after, hsplit, hbefore, hb⟩
        cases before with
        | nil =>
          cases hsplit
          rw [hfirst] at hb
          cases hb
        | cons c before =>
          obtain ⟨rfl, rfl⟩ := List.cons.inj hsplit
          exact ⟨before, b, after, rfl, (List.forall_mem_cons.mp hbefore).2, hb⟩

end Checks
