import Mathlib.Data.List.Perm.Basic
import Mathlib.Data.List.Basic
import Mathlib.Data.List.Pairwise
import Mathlib.Logic.Relation

/-! Allocation of consecutive numbers to holders. A table is the next free number and the
numbers each holder has; the order of the holders carries no meaning. `Step lost` is a change
of a table in which a number leaves the table only if `lost` permits it. -/
namespace Allocation

structure Table where
  next : ℕ
  holders : List (List ℕ)

/-- Different holders have different numbers, all of them below the next free one. -/
structure Table.Exclusive (t : Table) : Prop where
  disjoint : t.holders.Pairwise List.Disjoint
  below : ∀ H ∈ t.holders, ∀ n ∈ H, n < t.next

/-- Every number handed out is held or is permitted to be gone. -/
def Table.Accounted (lost : ℕ → Prop) (t : Table) : Prop :=
  ∀ n < t.next, lost n ∨ ∃ H ∈ t.holders, n ∈ H

inductive Step (lost : ℕ → Prop) (t : Table) : Table → Prop where
  /-- The next number jumps ahead. -/
  | raise {m : ℕ} (hm : t.next ≤ m) (hlost : ∀ n, t.next ≤ n → n < m → lost n) :
      Step lost t ⟨m, t.holders⟩
  /-- A new holder takes the next number. -/
  | reserve {hs : List (List ℕ)} (hp : hs.Perm ([t.next] :: t.holders)) :
      Step lost t ⟨t.next + 1, hs⟩
  /-- A holder keeps some of its numbers. -/
  | narrow {H K : List ℕ} {R hs : List (List ℕ)} (ho : t.holders.Perm (H :: R))
      (hp : hs.Perm (K :: R)) (hsub : K ⊆ H) (hlost : ∀ n ∈ H, n ∉ K → lost n) :
      Step lost t ⟨t.next, hs⟩
  /-- A holder leaves. -/
  | drop {H : List ℕ} {R hs : List (List ℕ)} (ho : t.holders.Perm (H :: R))
      (hp : hs.Perm R) (hlost : ∀ n ∈ H, lost n) : Step lost t ⟨t.next, hs⟩
  /-- A holder moves to a free number `m`. -/
  | move {m : ℕ} {H K : List ℕ} {R hs : List (List ℕ)} (hm : t.next ≤ m)
      (ho : t.holders.Perm (H :: R)) (hp : hs.Perm (K :: R)) (hin : m ∈ K)
      (hsub : K ⊆ m :: H) (hskip : ∀ n, t.next ≤ n → n < m → lost n)
      (hlost : ∀ n ∈ H, n ∉ K → lost n) : Step lost t ⟨m + 1, hs⟩

/-- Any number of steps. -/
abbrev Steps (lost : ℕ → Prop) : Table → Table → Prop := Relation.ReflTransGen (Step lost)

variable {lost lost' : ℕ → Prop} {t t' : Table}

theorem pairwise_disjoint_perm {hs hs' : List (List ℕ)} (hp : hs.Perm hs') :
    hs.Pairwise List.Disjoint ↔ hs'.Pairwise List.Disjoint :=
  hp.pairwise_iff List.disjoint_symm

theorem Step.exclusive (h : Step lost t t') (ht : t.Exclusive) : t'.Exclusive := by
  cases h with
  | raise hm => exact ⟨ht.disjoint, fun H hH n hn => Nat.lt_of_lt_of_le (ht.below H hH n hn) hm⟩
  | reserve hp =>
    constructor
    · refine (pairwise_disjoint_perm hp).mpr (List.pairwise_cons.mpr ⟨?_, ht.disjoint⟩)
      intro H hH
      rw [List.singleton_disjoint]
      intro hn
      exact Nat.lt_irrefl _ (ht.below H hH _ hn)
    · intro H hH n hn
      rcases List.mem_cons.mp (hp.mem_iff.mp hH) with rfl | hH
      · rw [List.mem_singleton.mp hn]
        exact Nat.lt_succ_self _
      · exact Nat.lt_trans (ht.below H hH n hn) (Nat.lt_succ_self _)
  | @narrow H H' rest hs ho hp hsub =>
    have hd := List.pairwise_cons.mp ((pairwise_disjoint_perm ho).mp ht.disjoint)
    constructor
    · refine (pairwise_disjoint_perm hp).mpr (List.pairwise_cons.mpr ⟨?_, hd.2⟩)
      intro K hK n hn
      exact hd.1 K hK (hsub hn)
    · intro K hK n hn
      rcases List.mem_cons.mp (hp.mem_iff.mp hK) with rfl | hK
      · exact ht.below H (ho.mem_iff.mpr (List.mem_cons_self ..)) n (hsub hn)
      · exact ht.below K (ho.mem_iff.mpr (List.mem_cons_of_mem _ hK)) n hn
  | @drop H rest hs ho hp =>
    have hd := List.pairwise_cons.mp ((pairwise_disjoint_perm ho).mp ht.disjoint)
    refine ⟨(pairwise_disjoint_perm hp).mpr hd.2, fun K hK n hn => ?_⟩
    exact ht.below K (ho.mem_iff.mpr (List.mem_cons_of_mem _ (hp.mem_iff.mp hK))) n hn
  | @move m H H' rest hs hm ho hp hin hsub =>
    have hd := List.pairwise_cons.mp ((pairwise_disjoint_perm ho).mp ht.disjoint)
    have hbelow : ∀ K ∈ H :: rest, ∀ n ∈ K, n < t.next := fun K hK =>
      ht.below K (ho.mem_iff.mpr hK)
    constructor
    · refine (pairwise_disjoint_perm hp).mpr (List.pairwise_cons.mpr ⟨?_, hd.2⟩)
      intro K hK n hn hn'
      rcases List.mem_cons.mp (hsub hn) with rfl | hnH
      · exact absurd (hbelow K (List.mem_cons_of_mem _ hK) n hn') (by omega)
      · exact hd.1 K hK hnH hn'
    · intro K hK n hn
      rcases List.mem_cons.mp (hp.mem_iff.mp hK) with rfl | hK
      · rcases List.mem_cons.mp (hsub hn) with rfl | hnH
        · exact Nat.lt_succ_self _
        · have := hbelow H (List.mem_cons_self ..) n hnH
          show n < m + 1
          omega
      · have := hbelow K (List.mem_cons_of_mem _ hK) n hn
        show n < m + 1
        omega

theorem Step.accounted (h : Step lost t t') (ht : t.Accounted lost) : t'.Accounted lost := by
  intro n hn
  cases h with
  | @raise m hm hlost =>
    rcases Nat.lt_or_ge n t.next with hlt | hge
    · exact ht n hlt
    · exact .inl (hlost n hge hn)
  | reserve hp =>
    rcases Nat.lt_or_eq_of_le (Nat.lt_succ_iff.mp hn) with hlt | rfl
    · refine (ht n hlt).imp id ?_
      rintro ⟨H, hH, hnH⟩
      exact ⟨H, hp.mem_iff.mpr (List.mem_cons_of_mem _ hH), hnH⟩
    · exact .inr ⟨[t.next], hp.mem_iff.mpr (List.mem_cons_self ..), List.mem_singleton_self _⟩
  | @narrow H H' rest hs ho hp hsub hlost =>
    rcases ht n hn with hl | ⟨K, hK, hnK⟩
    · exact .inl hl
    rcases List.mem_cons.mp (ho.mem_iff.mp hK) with rfl | hK
    · by_cases hn' : n ∈ H'
      · exact .inr ⟨H', hp.mem_iff.mpr (List.mem_cons_self ..), hn'⟩
      · exact .inl (hlost n hnK hn')
    · exact .inr ⟨K, hp.mem_iff.mpr (List.mem_cons_of_mem _ hK), hnK⟩
  | @drop H rest hs ho hp hlost =>
    rcases ht n hn with hl | ⟨K, hK, hnK⟩
    · exact .inl hl
    rcases List.mem_cons.mp (ho.mem_iff.mp hK) with rfl | hK
    · exact .inl (hlost n hnK)
    · exact .inr ⟨K, hp.mem_iff.mpr hK, hnK⟩
  | @move m H H' rest hs hm ho hp hin hsub hskip hlost =>
    have hH' : H' ∈ hs := hp.mem_iff.mpr (List.mem_cons_self ..)
    rcases Nat.lt_or_eq_of_le (Nat.lt_succ_iff.mp hn) with hlt | rfl
    · rcases Nat.lt_or_ge n t.next with hlt' | hge
      · rcases ht n hlt' with hl | ⟨K, hK, hnK⟩
        · exact .inl hl
        rcases List.mem_cons.mp (ho.mem_iff.mp hK) with rfl | hK
        · by_cases hn' : n ∈ H'
          · exact .inr ⟨H', hH', hn'⟩
          · exact .inl (hlost n hnK hn')
        · exact .inr ⟨K, hp.mem_iff.mpr (List.mem_cons_of_mem _ hK), hnK⟩
      · exact .inl (hskip n hge hlt)
    · exact .inr ⟨H', hH', hin⟩

/-- Exclusiveness never depends on which numbers may be lost. -/
theorem Steps.exclusive (h : Steps lost t t') (ht : t.Exclusive) : t'.Exclusive := by
  induction h with
  | refl => exact ht
  | tail _ hs ih => exact hs.exclusive ih

theorem Steps.accounted (h : Steps lost t t') (ht : t.Accounted lost) : t'.Accounted lost := by
  induction h with
  | refl => exact ht
  | tail _ hs ih => exact hs.accounted ih

theorem Table.Accounted.mono (h : ∀ n, lost n → lost' n) (ht : t.Accounted lost) :
    t.Accounted lost' := fun n hn => (ht n hn).imp (h n) id

/-- Reordering the holders is no change. -/
theorem Steps.of_perm {next : ℕ} {hs hs' : List (List ℕ)} (hp : hs'.Perm hs) :
    Steps lost ⟨next, hs⟩ ⟨next, hs'⟩ := by
  rcases hs with _ | ⟨H, rest⟩
  · rw [List.perm_nil.mp hp]
  · exact .single (.narrow (.refl _) hp (List.Subset.refl _) fun n hn hn' => absurd hn hn')

end Allocation
