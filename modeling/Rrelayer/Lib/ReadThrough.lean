import Rrelayer.Lib.Machine
import Mathlib.Logic.Function.Basic

/-! A read-through cache beside operations that write the store behind it. A read looks up the
cache, reads the row and fills the cache in three steps; an operation stores rows and invalidates
entries in steps of its own. -/
namespace ReadThrough

/-- A step of an operation: a statement, with the rows it leaves, or an invalidation. -/
inductive Move (K V : Type*) where
  | store (rows : K → Option V)
  | invalidate (k : K)

/-- A read whose lookup missed, or that has read the row as well. -/
inductive Reading (K V : Type*) where
  | missed (k : K)
  | fetched (k : K) (row : Option V)

/-- A missing row may be cached too; a lookup reads through it. -/
structure State (K V R : Type*) where
  rows : K → Option V
  cache : K → Option (Option V)
  reading : R → Option (Reading K V)
  running : List (Move K V)

/-- The steps of the readers, an entry's expiry, and the next step of the running operation. -/
inductive Event (K R : Type*) where
  | lookup (r : R) (k : K)
  | fetch (r : R)
  | fill (r : R)
  | expire (k : K)
  | advance

variable {K V R : Type*}

namespace State

/-- What a lookup answers. -/
def get (s : State K V R) (k : K) : Option V := (s.cache k).join

/-- An entry is current: nothing is answered for it, or the row. -/
def Current (s : State K V R) (k : K) : Prop := s.get k = none ∨ s.get k = s.rows k

/-- An entry that is not current is still to be invalidated by the running operation. -/
def Coherent (s : State K V R) : Prop := ∀ k, s.Current k ∨ Move.invalidate k ∈ s.running

theorem Coherent.quiet {s : State K V R} (h : s.Coherent) (hquiet : s.running = []) {k : K} {v : V}
    (hget : s.get k = some v) : s.rows k = some v := by
  rcases h k with (hnone | hrow) | hpending
  · rw [hnone] at hget
    cases hget
  · rw [← hrow, hget]
  · rw [hquiet] at hpending
    cases hpending

/-- The rows once the given steps are made. -/
def rowsAfter (rows : K → Option V) : List (Move K V) → K → Option V
  | [] => rows
  | .store rows :: rest => rowsAfter rows rest
  | .invalidate _ :: rest => rowsAfter rows rest

theorem rowsAfter_append {rows : K → Option V} {first rest : List (Move K V)} :
    rowsAfter rows (first ++ rest) = rowsAfter (rowsAfter rows first) rest := by
  induction first generalizing rows with
  | nil => rfl
  | cons m first ih => cases m <;> simp [rowsAfter, ih]

/-- The next step keeps the cache right: a row that a statement changes is not answered from the
cache or is invalidated later in the operation, and a read fills in the row as it still is, or
before such an invalidation. -/
def Kept (s : State K V R) : Event K R → Prop
  | .advance => ∀ rows rest, s.running = .store rows :: rest → ∀ k, rows k ≠ s.rows k →
      s.get k = none ∨ Move.invalidate k ∈ rest
  | .fill r => ∀ k row, s.reading r = some (.fetched k row) →
      row = none ∨ row = s.rows k ∨ Move.invalidate k ∈ s.running
  | _ => True

/-- Each statement is followed by an invalidation of every row it changes. -/
def Refreshes : (K → Option V) → List (Move K V) → Prop
  | _, [] => True
  | before, .store rows :: rest =>
      (∀ k, rows k ≠ before k → Move.invalidate k ∈ rest) ∧ Refreshes rows rest
  | before, .invalidate _ :: rest => Refreshes before rest

/-- The statements change rows of the given keys only. -/
def Changes (ks : K → Prop) : (K → Option V) → List (Move K V) → Prop
  | _, [] => True
  | before, .store rows :: rest => (∀ k, rows k ≠ before k → ks k) ∧ Changes ks rows rest
  | before, .invalidate _ :: rest => Changes ks before rest

theorem Changes.append {ks : K → Prop} {before : K → Option V} {first rest : List (Move K V)}
    (h : Changes ks before first) (h' : Changes ks (rowsAfter before first) rest) :
    Changes ks before (first ++ rest) := by
  induction first generalizing before with
  | nil => exact h'
  | cons m first ih =>
    cases m with
    | store rows => exact ⟨h.1, ih h.2 h'⟩
    | invalidate k => exact @ih before h h'

/-- An operation on one key that ends by invalidating it. -/
theorem Changes.refreshes {k : K} {before : K → Option V} {moves : List (Move K V)}
    (h : Changes (· = k) before moves) : Refreshes before (moves ++ [.invalidate k]) := by
  induction moves generalizing before with
  | nil => trivial
  | cons m moves ih =>
    cases m with
    | store rows =>
      refine ⟨fun k' hk' => ?_, ih h.2⟩
      rw [h.1 k' hk']
      simp
    | invalidate k' => exact @ih before h

/-- Operations one after the other. -/
theorem Refreshes.append {before : K → Option V} {first rest : List (Move K V)}
    (h : Refreshes before first) (h' : Refreshes (rowsAfter before first) rest) :
    Refreshes before (first ++ rest) := by
  induction first generalizing before with
  | nil => exact h'
  | cons m first ih =>
    cases m with
    | store rows =>
      exact ⟨fun k hk => List.mem_append_left _ (h.1 k hk), ih h.2 h'⟩
    | invalidate k => exact @ih before h h'

/-- A refreshing operation keeps the cache right by itself. -/
theorem Refreshes.kept {s : State K V R} (h : Refreshes s.rows s.running) :
    s.Kept (.advance : Event K R) := by
  rintro rows rest hrunning k hchanged
  rw [hrunning] at h
  exact .inr (h.1 k hchanged)

/-- An invalidation that is still to come, beside the step the operation makes now. -/
theorem Coherent.rest {s : State K V R} (h : s.Coherent) {m : Move K V} {rest : List (Move K V)}
    (hrunning : s.running = m :: rest) (k : K) (hk : m ≠ .invalidate k) :
    s.Current k ∨ Move.invalidate k ∈ rest := by
  rcases h k with hcurrent | hpending
  · exact .inl hcurrent
  · rw [hrunning] at hpending
    exact .inr ((List.mem_cons.mp hpending).resolve_left hk.symm)

/-- A statement keeps the cache coherent where no changed row is answered from it from then on. -/
theorem Coherent.store_iff {s : State K V R} (h : s.Coherent) {rows : K → Option V}
    {rest : List (Move K V)} (hrunning : s.running = .store rows :: rest) :
    Coherent { s with rows := rows, running := rest } ↔
      ∀ k, rows k ≠ s.rows k → s.get k = none ∨ Move.invalidate k ∈ rest := by
  constructor
  · intro hstored k hchanged
    rcases hstored k with (hnone | hrow) | hpending
    · exact .inl hnone
    · rcases h.rest hrunning k nofun with (hnone | hbefore) | hpending
      · exact .inl hnone
      · exact absurd (hrow.symm.trans hbefore) hchanged
      · exact .inr hpending
    · exact .inr hpending
  · intro hkept k
    by_cases hchanged : rows k = s.rows k
    · rcases h.rest hrunning k nofun with (hnone | hrow) | hpending
      · exact .inl (.inl hnone)
      · exact .inl (.inr (hrow.trans hchanged.symm))
      · exact .inr hpending
    · rcases hkept k hchanged with hnone | hpending
      · exact .inl (.inl hnone)
      · exact .inr hpending

section Step

variable [DecidableEq K]

def apply (s : State K V R) : Move K V → State K V R
  | .store rows => { s with rows := rows }
  | .invalidate k => { s with cache := Function.update s.cache k none }

/-- Dropping an entry makes it current. -/
theorem Coherent.drop {s s' : State K V R} {k : K} (h : ∀ k' ≠ k, s.Current k' ∨
      Move.invalidate k' ∈ s'.running) (hrows : s'.rows = s.rows)
    (hcache : s'.cache = Function.update s.cache k none) : s'.Coherent := by
  intro k'
  by_cases hk : k' = k
  · subst hk
    exact .inl (.inl (by simp [get, hcache]))
  · rcases h k' hk with hcurrent | hpending
    · refine .inl ?_
      unfold Current get at hcurrent ⊢
      rwa [hcache, hrows, Function.update_of_ne hk]
    · exact .inr hpending

/-- Filling a row in keeps the cache coherent where the row is current or yet to be invalidated. -/
theorem Coherent.fill_iff {s : State K V R} (h : s.Coherent) {k : K} {row : Option V}
    {reading : R → Option (Reading K V)} :
    Coherent { s with cache := Function.update s.cache k (some row), reading := reading } ↔
      row = none ∨ row = s.rows k ∨ Move.invalidate k ∈ s.running := by
  constructor
  · intro hfilled
    rcases hfilled k with hcurrent | hpending
    · simp only [Current, get, Function.update_self, Option.join_some] at hcurrent
      rcases hcurrent with hnone | hrow
      · exact .inl hnone
      · exact .inr (.inl hrow)
    · exact .inr (.inr hpending)
  · intro hkept k'
    by_cases hk : k' = k
    · subst hk
      simp only [Current, get, Function.update_self, Option.join_some]
      rcases hkept with hnone | hrow | hpending
      · exact .inl (.inl hnone)
      · exact .inl (.inr hrow)
      · exact .inr hpending
    · have hbefore := h k'
      simp only [Current, get, Function.update_of_ne hk] at hbefore ⊢
      exact hbefore

variable [DecidableEq R]

def step (s : State K V R) : Event K R → State K V R
  | .lookup r k =>
      match s.reading r, s.get k with
      | none, none => { s with reading := Function.update s.reading r (some (.missed k)) }
      | _, _ => s
  | .fetch r =>
      match s.reading r with
      | some (.missed k) =>
          { s with reading := Function.update s.reading r (some (.fetched k (s.rows k))) }
      | _ => s
  | .fill r =>
      match s.reading r with
      | some (.fetched k row) => { s with
          cache := Function.update s.cache k (some row)
          reading := Function.update s.reading r none }
      | _ => s
  | .expire k => { s with cache := Function.update s.cache k none }
  | .advance =>
      match s.running with
      | [] => s
      | m :: rest => { s.apply m with running := rest }

/-- The steps that keep the cache coherent are exactly those. -/
theorem step_coherent_iff {s : State K V R} (h : s.Coherent) (e : Event K R) :
    (s.step e).Coherent ↔ s.Kept e := by
  cases e with
  | lookup r k =>
    refine iff_of_true ?_ trivial
    dsimp only [step]
    split
    · exact h
    · exact h
  | fetch r =>
    refine iff_of_true ?_ trivial
    dsimp only [step]
    split
    · exact h
    · exact h
  | fill r =>
    dsimp only [step, Kept]
    rcases hreading : s.reading r with _ | ⟨k | ⟨k, row⟩⟩
    · exact iff_of_true h (by simp)
    · exact iff_of_true h (by simp)
    · rw [h.fill_iff]
      constructor
      · rintro hkept _ _ ⟨⟩
        exact hkept
      · exact fun hkept => hkept k row rfl
  | expire k =>
    exact iff_of_true (Coherent.drop (fun k' _ => h k') rfl rfl) trivial
  | advance =>
    dsimp only [step, Kept]
    rcases hrunning : s.running with _ | ⟨rows | k₀, rest⟩
    · exact iff_of_true h (by simp)
    · refine (h.store_iff hrunning).trans ⟨?_, fun hkept => hkept rows rest rfl⟩
      rintro hkept _ _ ⟨⟩
      exact hkept
    · have hothers (k : K) (hk : k ≠ k₀) : s.Current k ∨ Move.invalidate k ∈ rest :=
        h.rest hrunning k fun hsame => hk (Move.invalidate.inj hsame).symm
      have hdropped : ({ s.apply (.invalidate k₀) with running := rest } : State K V R).Coherent :=
        Coherent.drop (s := s) hothers rfl rfl
      exact iff_of_true hdropped (by simp)

theorem Refreshes.step {s : State K V R} (h : Refreshes s.rows s.running) (e : Event K R) :
    Refreshes (s.step e).rows (s.step e).running := by
  cases e with
  | lookup r k =>
    dsimp only [State.step]
    split
    · exact h
    · exact h
  | fetch r =>
    dsimp only [State.step]
    split
    · exact h
    · exact h
  | fill r =>
    dsimp only [State.step]
    split
    · exact h
    · exact h
  | expire k => exact h
  | advance =>
    dsimp only [State.step]
    rcases hrunning : s.running with _ | ⟨_ | k, rest⟩
    · rwa [hrunning] at h ⊢
    · rw [hrunning] at h
      exact h.2
    · rw [hrunning] at h
      exact h

/-- The rows after the running operation do not depend on the readers, nor on how far it is. -/
theorem step_rowsAfter (s : State K V R) (e : Event K R) :
    rowsAfter (s.step e).rows (s.step e).running = rowsAfter s.rows s.running := by
  cases e with
  | lookup r k =>
    dsimp only [step]
    split
    · rfl
    · rfl
  | fetch r =>
    dsimp only [step]
    split
    · rfl
    · rfl
  | fill r =>
    dsimp only [step]
    split
    · rfl
    · rfl
  | expire k => rfl
  | advance =>
    dsimp only [step]
    rcases hrunning : s.running with _ | ⟨_ | k, rest⟩
    · simp [hrunning]
    · rfl
    · rfl

end Step

end State

end ReadThrough
