import Mathlib.Data.List.Infix
import Mathlib.Data.List.Basic

/-! Append-only ledgers whose entries carry their own position. An entry can only be added at
the position it names, so each position has one holder, and it keeps it for good. -/

/-- The entries of one account in order; entry `i` is the one numbered `i`. -/
structure Ledger (α : Type*) (seq : α → ℕ) where
  entries : List α
  seq_eq : ∀ i (h : i < entries.length), seq entries[i] = i

namespace Ledger

variable {α : Type*} {seq : α → ℕ}

def empty : Ledger α seq := ⟨[], by simp⟩

def length (L : Ledger α seq) : ℕ := L.entries.length

/-- The next entry must be numbered with the current length. -/
def push (L : Ledger α seq) (a : α) (h : seq a = L.length) : Ledger α seq where
  entries := L.entries ++ [a]
  seq_eq i hi := by
    rcases Nat.lt_or_ge i L.entries.length with hlt | hge
    · rw [List.getElem_append_left hlt]
      exact L.seq_eq i hlt
    · have hi' : i = L.entries.length := by simp at hi; omega
      subst hi'
      simpa [length] using h

@[simp] theorem entries_push (L : Ledger α seq) (a : α) (h : seq a = L.length) :
    (L.push a h).entries = L.entries ++ [a] := rfl

@[simp] theorem length_push (L : Ledger α seq) (a : α) (h : seq a = L.length) :
    (L.push a h).length = L.length + 1 := by simp [length]

/-- The holder of a position, if it is taken. -/
def holder (L : Ledger α seq) (n : ℕ) : Option α := L.entries[n]?

theorem holder_eq_some_iff {L : Ledger α seq} {n : ℕ} {a : α} :
    L.holder n = some a ↔ a ∈ L.entries ∧ seq a = n := by
  constructor
  · intro h
    obtain ⟨hn, rfl⟩ := List.getElem?_eq_some_iff.mp h
    exact ⟨List.getElem_mem hn, L.seq_eq n hn⟩
  · rintro ⟨ha, rfl⟩
    obtain ⟨i, hi, rfl⟩ := List.getElem_of_mem ha
    rw [L.seq_eq i hi]
    exact List.getElem?_eq_getElem hi

theorem seq_lt_length {L : Ledger α seq} {a : α} (h : a ∈ L.entries) : seq a < L.length := by
  obtain ⟨i, hi, rfl⟩ := List.getElem_of_mem h
  rw [L.seq_eq i hi]
  exact hi

theorem holder_isSome_iff {L : Ledger α seq} {n : ℕ} : (L.holder n).isSome ↔ n < L.length := by
  simp [holder, length]

/-- Two entries with one number are one entry. -/
theorem eq_of_seq_eq {L : Ledger α seq} {a b : α} (ha : a ∈ L.entries) (hb : b ∈ L.entries)
    (h : seq a = seq b) : a = b := by
  have h₁ := holder_eq_some_iff.mpr ⟨ha, rfl⟩
  have h₂ := holder_eq_some_iff.mpr ⟨hb, rfl⟩
  rw [h] at h₁
  exact Option.some.inj (h₁.symm.trans h₂)

/-- The later ledger starts with the whole earlier one. -/
def Extends (L L' : Ledger α seq) : Prop := L.entries <+: L'.entries

theorem Extends.refl (L : Ledger α seq) : L.Extends L := List.prefix_refl _

theorem Extends.trans {L M N : Ledger α seq} (h : L.Extends M) (h' : M.Extends N) :
    L.Extends N := List.IsPrefix.trans h h'

theorem extends_push (L : Ledger α seq) (a : α) (h : seq a = L.length) :
    L.Extends (L.push a h) := List.prefix_append _ _

theorem Extends.mem {L L' : Ledger α seq} (h : L.Extends L') {a : α} (ha : a ∈ L.entries) :
    a ∈ L'.entries := List.IsPrefix.subset h ha

theorem Extends.length_le {L L' : Ledger α seq} (h : L.Extends L') : L.length ≤ L'.length :=
  List.IsPrefix.length_le h

theorem Extends.holder {L L' : Ledger α seq} (h : L.Extends L') {n : ℕ} {a : α}
    (ha : L.holder n = some a) : L'.holder n = some a := by
  obtain ⟨hm, hs⟩ := holder_eq_some_iff.mp ha
  exact holder_eq_some_iff.mpr ⟨h.mem hm, hs⟩

/-- Another entry has taken the position of `a`. -/
def Excludes (L : Ledger α seq) (a : α) : Prop := ∃ b, L.holder (seq a) = some b ∧ a ≠ b

instance [DecidableEq α] (L : Ledger α seq) (a : α) : Decidable (L.Excludes a) :=
  decidable_of_iff ((L.holder (seq a)).any fun b => decide (a ≠ b)) (by
    unfold Excludes
    cases L.holder (seq a) <;> simp)

theorem Excludes.mono {L L' : Ledger α seq} (h : L.Extends L') {a : α} (ha : L.Excludes a) :
    L'.Excludes a := by
  obtain ⟨b, hb, hne⟩ := ha
  exact ⟨b, h.holder hb, hne⟩

theorem Excludes.not_mem {L : Ledger α seq} {a : α} (h : L.Excludes a) : a ∉ L.entries := by
  obtain ⟨b, hb, hne⟩ := h
  intro ha
  obtain ⟨hm, hs⟩ := holder_eq_some_iff.mp hb
  exact hne (eq_of_seq_eq ha hm hs.symm)

/-- What did not get its position while another entry did is excluded. -/
theorem excludes_of_not_mem {L : Ledger α seq} {a : α} (hlt : seq a < L.length)
    (ha : a ∉ L.entries) : L.Excludes a := by
  obtain ⟨b, hb⟩ := Option.isSome_iff_exists.mp (holder_isSome_iff.mpr hlt)
  refine ⟨b, hb, ?_⟩
  rintro rfl
  exact ha (holder_eq_some_iff.mp hb).1

end Ledger
