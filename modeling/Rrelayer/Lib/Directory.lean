import Mathlib.Logic.Function.Basic
import Mathlib.Data.Option.Basic

/-! Directories that only grow: a name is bound once and keeps its value, so whoever looks it up
later finds what an earlier caller found. -/
namespace Directory

variable {N K : Type*}

/-- Every name of `d` keeps its value in `d'`. -/
def Extends (d d' : N → Option K) : Prop := ∀ n k, d n = some k → d' n = some k

/-- No value stands under two names. -/
def Separate (d : N → Option K) : Prop := ∀ m n k, d m = some k → d n = some k → m = n

variable {d d' d'' : N → Option K} {n : N} {k : K}

theorem Extends.refl (d : N → Option K) : Extends d d := fun _ _ h => h

theorem Extends.trans (h : Extends d d') (h' : Extends d' d'') : Extends d d'' :=
  fun n k hn => h' n k (h n k hn)

variable [DecidableEq N]

/-- A free name gets the value, a bound one stays as it is. -/
def bind (d : N → Option K) (n : N) (k : K) : N → Option K :=
  if (d n).isSome then d else Function.update d n (some k)

theorem extends_bind (d : N → Option K) (n : N) (k : K) : Extends d (bind d n k) := by
  intro m j hm
  unfold bind
  split
  · exact hm
  · rename_i hfree
    have hne : m ≠ n := by
      rintro rfl
      simp [hm] at hfree
    rw [Function.update_of_ne hne]
    exact hm

/-- What a name shows after a binding was there before, or is the new value under the new name. -/
theorem bind_eq_some {m : N} {j : K} (h : bind d n k m = some j) :
    d m = some j ∨ m = n ∧ j = k := by
  unfold bind at h
  split at h
  · exact .inl h
  · by_cases hm : m = n
    · rw [hm, Function.update_self] at h
      exact .inr ⟨hm, (Option.some.inj h).symm⟩
    · rw [Function.update_of_ne hm] at h
      exact .inl h

theorem bind_self_of_free (h : d n = none) : bind d n k n = some k := by
  simp [bind, h]

end Directory
