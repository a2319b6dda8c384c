import Mathlib.Data.List.Perm.Basic
import Mathlib.Data.List.Nodup
import Mathlib.Data.List.Sort

/-! Reading a table page by page, each page a query of its own that orders the rows by a key and may
order equal keys as it likes. The rows before a boundary are the same for every order unless the
rows of one key lie on both sides of it. -/
namespace Pages

variable {α : Type*} (key : α → ℕ)

/-- The rows in one order a query may give them. -/
structure Ordering (rows order : List α) : Prop where
  perm : order.Perm rows
  sorted : order.Pairwise fun a b => key a ≤ key b

/-- Rows with the key `v` lie before the boundary and after it. -/
def Straddles (rows : List α) (boundary v : ℕ) : Prop :=
  rows.countP (fun a => key a < v) < boundary ∧ boundary < rows.countP (fun a => key a ≤ v)

/-- Boundaries that no key of the rows straddles. -/
def Clean (rows : List α) (boundary : ℕ) : Prop :=
  ∀ a ∈ rows, ¬ Straddles key rows boundary (key a)

variable {key} {rows order order' : List α} {boundary : ℕ}

theorem Ordering.length (h : Ordering key rows order) : order.length = rows.length :=
  h.perm.length_eq

/-- What stands before a position of an ordered list is not above what stands after it. -/
theorem Ordering.take_le_drop (h : Ordering key rows order) (boundary : ℕ) :
    ∀ a ∈ order.take boundary, ∀ b ∈ order.drop boundary, key a ≤ key b := by
  have hsorted := h.sorted
  rw [← List.take_append_drop boundary order, List.pairwise_append] at hsorted
  exact hsorted.2.2

/-- At a clean boundary the rows before it are those of which no row of the same key comes after
it, whatever the order. -/
theorem Ordering.take_eq_filter (h : Ordering key rows order) (hclean : Clean key rows boundary)
    (hboundary : boundary ≤ rows.length) :
    order.take boundary =
      order.filter fun a => decide (rows.countP (fun b => key b ≤ key a) ≤ boundary) := by
  have hcount : ∀ v, rows.countP (fun b => key b ≤ v) =
      (order.take boundary).countP (fun b => key b ≤ v) +
        (order.drop boundary).countP fun b => key b ≤ v := by
    intro v
    rw [← List.countP_append, List.take_append_drop, h.perm.countP_eq]
  have hless : ∀ v, rows.countP (fun b => key b < v) =
      (order.take boundary).countP (fun b => key b < v) +
        (order.drop boundary).countP fun b => key b < v := by
    intro v
    rw [← List.countP_append, List.take_append_drop, h.perm.countP_eq]
  have hlength : (order.take boundary).length = boundary := by
    rw [List.length_take, h.length]
    omega
  have hbefore : ∀ a ∈ order.take boundary,
      decide (rows.countP (fun b => key b ≤ key a) ≤ boundary) = true := by
    intro a ha
    have hfew : rows.countP (fun b => key b < key a) < boundary := by
      have hafter : (order.drop boundary).countP (fun b => key b < key a) = 0 := by
        rw [List.countP_eq_zero]
        intro b hb
        have hle := h.take_le_drop boundary a ha b hb
        simp only [decide_eq_true_eq]
        omega
      have hnotall : (order.take boundary).countP (fun b => key b < key a) ≠
          (order.take boundary).length := by
        intro hall
        have hself := List.countP_eq_length.mp hall a ha
        simp at hself
      have hle : (order.take boundary).countP (fun b => key b < key a) ≤
          (order.take boundary).length := List.countP_le_length
      have := hless (key a)
      omega
    have hmem : a ∈ rows := h.perm.mem_iff.mp (List.mem_of_mem_take ha)
    have hnot := hclean a hmem
    unfold Straddles at hnot
    simp only [decide_eq_true_eq]
    omega
  have hafter : ∀ a ∈ order.drop boundary,
      ¬ decide (rows.countP (fun b => key b ≤ key a) ≤ boundary) = true := by
    intro a ha
    have hall : (order.take boundary).countP (fun b => key b ≤ key a) =
        (order.take boundary).length := by
      rw [List.countP_eq_length]
      intro b hb
      simpa using h.take_le_drop boundary b hb a ha
    have hself : 0 < (order.drop boundary).countP fun b => key b ≤ key a :=
      List.countP_pos_iff.mpr ⟨a, ha, by simp⟩
    have := hcount (key a)
    simp only [decide_eq_true_eq]
    omega
  calc order.take boundary
      = (order.take boundary).filter
          (fun a => decide (rows.countP (fun b => key b ≤ key a) ≤ boundary)) :=
        (List.filter_eq_self.mpr hbefore).symm
    _ = (order.take boundary).filter
            (fun a => decide (rows.countP (fun b => key b ≤ key a) ≤ boundary)) ++
          (order.drop boundary).filter
            (fun a => decide (rows.countP (fun b => key b ≤ key a) ≤ boundary)) := by
        rw [List.filter_eq_nil_iff.mpr hafter, List.append_nil]
    _ = order.filter fun a => decide (rows.countP (fun b => key b ≤ key a) ≤ boundary) := by
        rw [← List.filter_append, List.take_append_drop]

/-- Two orders agree on the rows before a clean boundary. -/
theorem take_perm (h : Ordering key rows order) (h' : Ordering key rows order')
    (hclean : boundary < rows.length → Clean key rows boundary) :
    (order.take boundary).Perm (order'.take boundary) := by
  by_cases hboundary : boundary < rows.length
  · rw [h.take_eq_filter (hclean hboundary) hboundary.le,
      h'.take_eq_filter (hclean hboundary) hboundary.le]
    exact (h.perm.trans h'.perm.symm).filter _
  · have hlength := h.length
    have hlength' := h'.length
    rw [List.take_of_length_le (by omega), List.take_of_length_le (by omega)]
    exact h.perm.trans h'.perm.symm

section Collected

variable (limit : ℕ) (answer : ℕ → List α)

/-- What the query for a page answers. -/
def page (k : ℕ) : List α := ((answer k).drop (limit * k)).take limit

/-- The pages read so far, one after the other. -/
def collected (k : ℕ) : List α := (List.range k).flatMap (page limit answer)

variable {limit answer}

theorem collected_succ (k : ℕ) :
    collected limit answer (k + 1) = collected limit answer k ++ page limit answer k := by
  simp [collected, List.range_succ]

theorem take_append_page (k : ℕ) :
    (answer k).take (limit * k) ++ page limit answer k = (answer k).take (limit * (k + 1)) := by
  unfold page
  rw [← List.take_add, Nat.mul_succ]

theorem collected_add (k r : ℕ) :
    collected limit answer (k + r) =
      collected limit answer k ++ (List.range' k r).flatMap (page limit answer) := by
  induction r with
  | zero => simp
  | succ r ih =>
    rw [← Nat.add_assoc, collected_succ, ih, List.range'_concat, List.flatMap_append,
      List.append_assoc]
    simp

/-- Over clean boundaries the pages are the rows before the next boundary, once each and in the
order of their keys. -/
theorem collected_ordered (hanswer : ∀ k, Ordering key rows (answer k))
    (hclean : ∀ k, 0 < k → limit * k < rows.length → Clean key rows (limit * k)) (k : ℕ) :
    (∀ order, Ordering key rows order →
        (collected limit answer k).Perm (order.take (limit * k))) ∧
      (collected limit answer k).Pairwise fun a b => key a ≤ key b := by
  induction k with
  | zero => simp [collected]
  | succ k ih =>
    obtain ⟨hperm, hsorted⟩ := ih
    rw [collected_succ]
    have hbefore := hperm (answer k) (hanswer k)
    constructor
    · intro order horder
      have hnext : (collected limit answer k ++ page limit answer k).Perm
          ((answer k).take (limit * (k + 1))) := by
        rw [← take_append_page]
        exact hbefore.append_right _
      exact hnext.trans (take_perm (hanswer k) horder (hclean (k + 1) (Nat.succ_pos k)))
    · rw [List.pairwise_append]
      refine ⟨hsorted, ?_, ?_⟩
      · exact (hanswer k).sorted.sublist
          ((List.take_sublist ..).trans (List.drop_sublist ..))
      · intro a ha b hb
        exact (hanswer k).take_le_drop (limit * k) a (hbefore.mem_iff.mp ha) b
          (List.mem_of_mem_take hb)

/-- A row at a position is on the page of that position. -/
theorem mem_page {i k : ℕ} {a : α} (hrow : (answer k)[i]? = some a) (hfrom : limit * k ≤ i)
    (hto : i < limit * (k + 1)) : a ∈ page limit answer k := by
  apply List.mem_of_getElem? (i := i - limit * k)
  unfold page
  rw [Nat.mul_succ] at hto
  rw [List.getElem?_take_of_lt (by omega), List.getElem?_drop]
  have hindex : limit * k + (i - limit * k) = i := by omega
  rw [hindex, hrow]

theorem mem_collected {j k : ℕ} {a : α} (hj : j < k) (ha : a ∈ page limit answer j) :
    a ∈ collected limit answer k :=
  List.mem_flatMap.mpr ⟨j, List.mem_range.mpr hj, ha⟩

end Collected

section Ties

variable {v : ℕ}

theorem perm_by_key (key : α → ℕ) (rows : List α) (v : ℕ) :
    rows.Perm (rows.filter (fun a => key a < v) ++
      (rows.filter (fun a => key a = v) ++ rows.filter fun a => v < key a)) := by
  induction rows with
  | nil => rfl
  | cons a rows ih =>
    rcases Nat.lt_trichotomy (key a) v with hlt | heq | hgt
    · have hne : key a ≠ v := by omega
      have hng : ¬ v < key a := by omega
      simpa [hlt, hne, hng] using ih
    · have hnl : ¬ key a < v := by omega
      have hng : ¬ v < key a := by omega
      simp only [heq, Nat.lt_irrefl, decide_false, Bool.false_eq_true, not_false_eq_true,
        List.filter_cons_of_neg, decide_true, List.filter_cons_of_pos]
      exact (ih.cons a).trans List.perm_middle.symm
    · have hnl : ¬ key a < v := by omega
      have hne : key a ≠ v := by omega
      simp only [hnl, hne, hgt, decide_false, Bool.false_eq_true, not_false_eq_true,
        List.filter_cons_of_neg, decide_true, List.filter_cons_of_pos]
      refine (ih.cons a).trans ?_
      rw [← List.append_assoc, ← List.append_assoc]
      exact List.perm_middle.symm

/-- Every set of rows has an order. -/
theorem exists_ordering (key : α → ℕ) (rows : List α) : ∃ order, Ordering key rows order := by
  refine ⟨rows.mergeSort fun a b => decide (key a ≤ key b), List.mergeSort_perm .., ?_⟩
  have htrans : ∀ a b c : α, decide (key a ≤ key b) = true → decide (key b ≤ key c) = true →
      decide (key a ≤ key c) = true := by
    intro a b c hab hbc
    simp only [decide_eq_true_eq] at hab hbc ⊢
    exact hab.trans hbc
  have htotal : ∀ a b : α, (decide (key a ≤ key b) || decide (key b ≤ key a)) = true := by
    intro a b
    simp only [Bool.or_eq_true, decide_eq_true_eq]
    exact Nat.le_total ..
  have hsorted := List.pairwise_mergeSort htrans htotal rows
  exact hsorted.imp fun h => by simpa using h

/-- Lower keys, one key in any order, higher keys. -/
theorem Ordering.of_parts {lower same higher : List α} (hperm : (lower ++ (same ++ higher)).Perm rows)
    (hlower : lower.Pairwise fun a b => key a ≤ key b)
    (hhigher : higher.Pairwise fun a b => key a ≤ key b) (hlt : ∀ a ∈ lower, key a < v)
    (hsame : ∀ a ∈ same, key a = v) (hgt : ∀ a ∈ higher, v < key a) :
    Ordering key rows (lower ++ (same ++ higher)) := by
  refine ⟨hperm, ?_⟩
  rw [List.pairwise_append, List.pairwise_append]
  refine ⟨hlower, ⟨?_, hhigher, ?_⟩, ?_⟩
  · apply List.pairwise_of_forall_mem_list
    intro a ha b hb
    rw [hsame a ha, hsame b hb]
  · intro a ha b hb
    have := hsame a ha
    have := hgt b hb
    omega
  · intro a ha b hb
    have := hlt a ha
    rcases List.mem_append.mp hb with hb | hb
    · have := hsame b hb
      omega
    · have := hgt b hb
      omega

/-- At a boundary that a key straddles, a row can be before the boundary in one order and after it
in another. -/
theorem exists_moving_row (hstraddles : Straddles key rows boundary v) :
    ∃ a before after i j, Ordering key rows before ∧ Ordering key rows after ∧
      before[i]? = some a ∧ after[j]? = some a ∧ i < boundary ∧ boundary ≤ j := by
  obtain ⟨hless, hmore⟩ := hstraddles
  obtain ⟨lower, hlower⟩ := exists_ordering key (rows.filter fun a => key a < v)
  obtain ⟨higher, hhigher⟩ := exists_ordering key (rows.filter fun a => v < key a)
  have hsplit := perm_by_key key rows v
  have hlt : ∀ a ∈ lower, key a < v := fun a ha => by
    simpa using (List.mem_filter.mp (hlower.perm.mem_iff.mp ha)).2
  have hgt : ∀ a ∈ higher, v < key a := fun a ha => by
    simpa using (List.mem_filter.mp (hhigher.perm.mem_iff.mp ha)).2
  have hlength : lower.length = rows.countP fun a => key a < v := by
    rw [hlower.length, List.countP_eq_length_filter]
  have hatmost : (rows.countP fun a => key a ≤ v) =
      lower.length + (rows.filter fun a => key a = v).length := by
    have hnone : (rows.filter fun a => v < key a).countP (fun a => key a ≤ v) = 0 := by
      rw [List.countP_eq_zero]
      intro a ha
      have hv : v < key a := by simpa using (List.mem_filter.mp ha).2
      simp only [decide_eq_true_eq]
      omega
    have hlowerAll : (rows.filter fun a => key a < v).countP (fun a => key a ≤ v) =
        (rows.filter fun a => key a < v).length := by
      rw [List.countP_eq_length]
      intro a ha
      have hv : key a < v := by simpa using (List.mem_filter.mp ha).2
      simp only [decide_eq_true_eq]
      omega
    have hsameAll : (rows.filter fun a => key a = v).countP (fun a => key a ≤ v) =
        (rows.filter fun a => key a = v).length := by
      rw [List.countP_eq_length]
      intro a ha
      have hv : key a = v := by simpa using (List.mem_filter.mp ha).2
      simp only [decide_eq_true_eq]
      omega
    rw [hsplit.countP_eq, List.countP_append, List.countP_append, hnone, hlowerAll, hsameAll,
      hlower.length]
    omega
  cases hsame : rows.filter fun a => key a = v with
  | nil =>
    rw [hsame] at hatmost
    simp only [List.length_nil] at hatmost
    omega
  | cons a same =>
    have hkeys : ∀ b ∈ a :: same, key b = v := fun b hb => by
      rw [← hsame] at hb
      simpa using (List.mem_filter.mp hb).2
    have hperm : (lower ++ ((a :: same) ++ higher)).Perm rows := by
      rw [← hsame]
      exact ((hlower.perm.append (hhigher.perm.append_left _)).trans hsplit.symm)
    have hmoved : (lower ++ ((same ++ [a]) ++ higher)).Perm rows := by
      refine List.Perm.trans ?_ hperm
      exact ((List.perm_append_singleton a same).append_right higher).append_left lower
    refine ⟨a, _, _, lower.length, lower.length + same.length,
      Ordering.of_parts hperm hlower.sorted hhigher.sorted hlt hkeys hgt,
      Ordering.of_parts hmoved hlower.sorted hhigher.sorted hlt ?_ hgt, ?_, ?_, by omega, ?_⟩
    · intro b hb
      apply hkeys
      rcases List.mem_append.mp hb with hb | hb
      · exact List.mem_cons_of_mem _ hb
      · exact List.mem_singleton.mp hb ▸ List.mem_cons_self ..
    · simp
    · simp
    · rw [hsame] at hatmost
      simp only [List.length_cons] at hatmost
      omega

end Ties
end Pages
