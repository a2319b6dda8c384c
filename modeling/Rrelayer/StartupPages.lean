import Rrelayer.System
import Rrelayer.Lib.Pages

/-! The rows of one status as a startup reads them: in pages of a thousand, each a query of its own
that is ordered by nonce only. -/
namespace Rrelayer

structure PagingContext where
  limit : ℕ
  offset : ℕ
  deriving DecidableEq, Repr

/-- An empty page is the last one. The addition is one of 32 bits. -/
def PagingContext.next (context : PagingContext) (resultLength : ℕ) : Option PagingContext :=
  if resultLength = 0 then none
  else some ⟨context.limit, (context.offset + context.limit) % 2 ^ 32⟩

/-- `LIMIT $3 OFFSET $4` on the rows in the order this query gives them. -/
def pageOf (order : List Transaction) (context : PagingContext) : List Transaction :=
  (order.drop context.offset).take context.limit

/-- The loop of `repopulate_transaction_queue`; `orders` is the order of each query. Without a
result the fuel ran out. -/
def repopulateTransactionQueue (orders : ℕ → List Transaction) :
    ℕ → ℕ → PagingContext → Option (List Transaction)
  | 0, _, _ => none
  | fuel + 1, query, context =>
      let items := pageOf (orders query) context
      match context.next items.length with
      | none => some items
      | some next => (repopulateTransactionQueue orders fuel (query + 1) next).map (items ++ ·)

def pageLimit : ℕ := 1000

/-- The rows a startup can number without the offset leaving its 32 bits. -/
def maxPagedRows : ℕ := 4294967000

namespace StartupPages

open Pages

/-- The whole load. -/
def load (orders : ℕ → List Transaction) (fuel : ℕ) : Option (List Transaction) :=
  repopulateTransactionQueue orders fuel 0 ⟨pageLimit, 0⟩

/-- A query gives the rows in some order of their nonces. -/
abbrev Ordered (rows order : List Transaction) : Prop := Pages.Ordering (·.nonce) rows order

/-- However the queries break ties, the load ends with every row once, in nonce order. -/
def LoadsOnce (rows : List Transaction) : Prop :=
  ∀ orders, (∀ query, Ordered rows (orders query)) →
    ∃ fuel loaded, load orders fuel = some loaded ∧ loaded.Perm rows ∧
      loaded.Pairwise fun a b => a.nonce ≤ b.nonce

/-- No nonce has rows on both sides of a page boundary. -/
def CleanBoundaries (rows : List Transaction) : Prop :=
  ∀ k, 0 < k → pageLimit * k < rows.length → Clean (·.nonce) rows (pageLimit * k)

variable {orders : ℕ → List Transaction} {rows loaded loaded' : List Transaction} {fuel : ℕ}

/-- The offset of a page is where the page starts, as long as that fits. -/
def contextOf (query : ℕ) : PagingContext := ⟨pageLimit, (pageLimit * query) % 2 ^ 32⟩

theorem contextOf_next {query resultLength : ℕ} (h : resultLength ≠ 0) :
    (contextOf query).next resultLength = some (contextOf (query + 1)) := by
  unfold PagingContext.next contextOf
  rw [if_neg h]
  dsimp only
  rw [Nat.mul_succ, Nat.mod_add_mod]

theorem pageOf_contextOf {query : ℕ} (hfits : pageLimit * query < 2 ^ 32) :
    pageOf (orders query) (contextOf query) = page pageLimit orders query := by
  unfold pageOf contextOf page
  rw [Nat.mod_eq_of_lt hfits]

theorem repopulate_succ (query : ℕ) :
    repopulateTransactionQueue orders (fuel + 1) query (contextOf query) =
      if pageOf (orders query) (contextOf query) = [] then some []
      else (repopulateTransactionQueue orders fuel (query + 1) (contextOf (query + 1))).map
        (pageOf (orders query) (contextOf query) ++ ·) := by
  rw [repopulateTransactionQueue]
  by_cases hempty : pageOf (orders query) (contextOf query) = []
  · rw [if_pos hempty, hempty]
    rfl
  · rw [if_neg hempty, contextOf_next (by simpa using hempty)]

/-- A load that ends gives the same rows with more fuel. -/
theorem repopulate_mono {fuel' query : ℕ} (hle : fuel ≤ fuel')
    (h : repopulateTransactionQueue orders fuel query (contextOf query) = some loaded) :
    repopulateTransactionQueue orders fuel' query (contextOf query) = some loaded := by
  induction fuel generalizing fuel' query loaded with
  | zero => cases h
  | succ fuel ih =>
    obtain ⟨fuel', rfl⟩ : ∃ m, fuel' = m + 1 := ⟨fuel' - 1, by omega⟩
    rw [repopulate_succ] at h ⊢
    split
    · rename_i hempty
      rw [if_pos hempty] at h
      exact h
    · rename_i hempty
      rw [if_neg hempty] at h
      obtain ⟨rest, hrest, rfl⟩ := Option.map_eq_some_iff.mp h
      rw [ih (by omega) hrest]
      rfl

theorem load_unique {fuel' : ℕ} (h : load orders fuel = some loaded)
    (h' : load orders fuel' = some loaded') : loaded = loaded' := by
  have hone : load orders (max fuel fuel') = some loaded :=
    repopulate_mono (Nat.le_max_left fuel fuel') h
  have hother : load orders (max fuel fuel') = some loaded' :=
    repopulate_mono (Nat.le_max_right fuel fuel') h'
  exact Option.some.inj (hone.symm.trans hother)

/-- Pages that have rows stand at the front of what a load gives. -/
theorem repopulate_front {query : ℕ} (count : ℕ)
    (h : repopulateTransactionQueue orders fuel query (contextOf query) = some loaded)
    (hpages : ∀ j < count, pageOf (orders (query + j)) (contextOf (query + j)) ≠ []) :
    ∃ fuel' rest,
      loaded = ((List.range' query count).flatMap fun j => pageOf (orders j) (contextOf j)) ++ rest ∧
      repopulateTransactionQueue orders fuel' (query + count) (contextOf (query + count)) =
        some rest := by
  induction count generalizing query fuel loaded with
  | zero => exact ⟨fuel, loaded, by simp, h⟩
  | succ count ih =>
    cases fuel with
    | zero => cases h
    | succ fuel =>
      have hfirst : pageOf (orders query) (contextOf query) ≠ [] := hpages 0 (Nat.succ_pos _)
      rw [repopulate_succ, if_neg hfirst] at h
      obtain ⟨next, hnext, rfl⟩ := Option.map_eq_some_iff.mp h
      obtain ⟨fuel', rest, rfl, hrest⟩ := ih hnext (by
        intro j hj
        have hpage := hpages (j + 1) (by omega)
        rw [Nat.add_comm j 1, ← Nat.add_assoc] at hpage
        exact hpage)
      refine ⟨fuel', rest, ?_, ?_⟩
      · rw [List.range'_succ, List.flatMap_cons, List.append_assoc]
      · have hquery : query + 1 + count = query + (count + 1) := by omega
        rw [hquery] at hrest
        exact hrest

/-- With all offsets in range a load ends after the last page, and gives the pages. -/
theorem repopulate_pages {n : ℕ} (hlength : ∀ query, (orders query).length = n)
    (hn : n ≤ maxPagedRows) (count query : ℕ) (hreached : pageLimit * query < n + pageLimit)
    (hcount : n ≤ pageLimit * (query + count)) :
    repopulateTransactionQueue orders (count + 1) query (contextOf query) =
      some ((List.range' query count).flatMap (page pageLimit orders)) := by
  have hfits : pageLimit * query < 2 ^ 32 := by
    unfold maxPagedRows at hn
    unfold pageLimit at hreached ⊢
    omega
  have hafter : ∀ j, n ≤ pageLimit * j → page pageLimit orders j = [] := by
    intro j hj
    unfold page
    rw [List.drop_eq_nil_of_le (by rw [hlength]; exact hj), List.take_nil]
  induction count generalizing query with
  | zero =>
    rw [repopulate_succ, pageOf_contextOf hfits, if_pos (hafter query hcount)]
    rfl
  | succ count ih =>
    rw [repopulate_succ, pageOf_contextOf hfits]
    by_cases hlast : n ≤ pageLimit * query
    · rw [if_pos (hafter query hlast)]
      have hnil : (List.range' query (count + 1)).flatMap (page pageLimit orders) = [] := by
        rw [List.flatMap_eq_nil_iff]
        intro j hj
        apply hafter
        have hle : pageLimit * query ≤ pageLimit * j :=
          Nat.mul_le_mul_left _ (List.mem_range'_1.mp hj).1
        omega
      rw [hnil]
    · have hrow : page pageLimit orders query ≠ [] := by
        unfold page
        intro hnil
        have hzero := congrArg List.length hnil
        rw [List.length_take, List.length_drop, hlength] at hzero
        unfold pageLimit at hzero hlast
        simp only [List.length_nil] at hzero
        omega
      have hnext : pageLimit * (query + 1) < n + pageLimit := by
        rw [Nat.mul_succ]
        omega
      have hnextFits : pageLimit * (query + 1) < 2 ^ 32 := by
        unfold maxPagedRows at hn
        unfold pageLimit at hnext ⊢
        omega
      have hrest : n ≤ pageLimit * (query + 1 + count) := by
        have hsum : query + 1 + count = query + (count + 1) := by omega
        rw [hsum]
        exact hcount
      rw [if_neg hrow, ih (query + 1) hnext hrest hnextFits, List.range'_succ,
        List.flatMap_cons]
      rfl

theorem load_pages {n : ℕ} (hlength : ∀ query, (orders query).length = n)
    (hn : n ≤ maxPagedRows) {count : ℕ} (hcount : n ≤ pageLimit * count) :
    load orders (count + 1) = some (collected pageLimit orders count) := by
  have hpages := repopulate_pages hlength hn count 0 (by unfold pageLimit; omega)
    (by rw [Nat.zero_add]; exact hcount)
  unfold collected
  rw [List.range_eq_range']
  exact hpages

/-- Over clean boundaries every tie order loads every row once. -/
theorem loadsOnce_of_clean (hn : rows.length ≤ maxPagedRows) (hclean : CleanBoundaries rows) :
    LoadsOnce rows := by
  intro orders horders
  have hlength : ∀ query, (orders query).length = rows.length := fun query =>
    (horders query).length
  have hcount : rows.length ≤ pageLimit * rows.length := by
    unfold pageLimit
    omega
  obtain ⟨hperm, hsorted⟩ := collected_ordered horders hclean rows.length
  refine ⟨_, _, load_pages hlength hn hcount, ?_, hsorted⟩
  have hall := hperm (orders 0) (horders 0)
  rw [List.take_of_length_le (by rw [hlength]; exact hcount)] at hall
  exact hall.trans (horders 0).perm

/-- A row on two pages is loaded twice. -/
theorem not_perm_of_twice {front rest : List Transaction} {t : Transaction} (hrows : rows.Nodup)
    (hfront : t ∈ front) (hrest : t ∈ rest) : ¬ (front ++ rest).Perm rows := by
  intro hperm
  have hdistinct := hperm.nodup_iff.mpr hrows
  exact (List.disjoint_of_nodup_append hdistinct) hfront hrest

/-- Where a nonce straddles a boundary, one row is on the page before it for the earlier queries
and on a page after it for the later ones. -/
theorem not_loadsOnce_of_straddles (hrows : rows.Nodup) (hn : rows.length ≤ maxPagedRows) {k v : ℕ}
    (hstraddles : Straddles (·.nonce) rows (pageLimit * k) v) : ¬ LoadsOnce rows := by
  obtain ⟨t, before, after, i, j, hbefore, hafter, hi, hj, hi_lt, hj_le⟩ :=
    exists_moving_row hstraddles
  intro h
  let orders : ℕ → List Transaction := fun query => if query < k then before else after
  have horders : ∀ query, Ordered rows (orders query) := by
    intro query
    by_cases hquery : query < k
    · simpa [orders, hquery] using hbefore
    · simpa [orders, hquery] using hafter
  have hj_lt : j < rows.length := by
    rw [← hafter.length]
    exact (List.getElem?_eq_some_iff.mp hj).1
  have hfirst : i / pageLimit < k := (Nat.div_lt_iff_lt_mul (by decide)).mpr (by
    rw [Nat.mul_comm]
    exact hi_lt)
  have hsecond : k ≤ j / pageLimit := (Nat.le_div_iff_mul_le (by decide)).mpr (by
    rw [Nat.mul_comm]
    exact hj_le)
  have hpage : ∀ position, pageLimit * (position / pageLimit) ≤ position ∧
      position < pageLimit * (position / pageLimit + 1) := by
    intro position
    have hdivision := Nat.div_add_mod position pageLimit
    have hmod := Nat.mod_lt position (show pageLimit > 0 by decide)
    rw [Nat.mul_succ]
    omega
  have hi_page : t ∈ page pageLimit orders (i / pageLimit) :=
    mem_page (by simpa [orders, hfirst] using hi) (hpage i).1 (hpage i).2
  have hj_page : t ∈ page pageLimit orders (j / pageLimit) :=
    mem_page (by simpa [orders, Nat.not_lt_of_le hsecond] using hj) (hpage j).1 (hpage j).2
  obtain ⟨fuel, loaded, hload, hperm, -⟩ := h orders horders
  have hcount : rows.length ≤ pageLimit * (k + rows.length) := by
    unfold pageLimit
    omega
  have hcollected := load_pages (fun query => (horders query).length) hn hcount
  rw [load_unique hload hcollected, collected_add] at hperm
  refine not_perm_of_twice hrows (mem_collected hfirst hi_page) ?_ hperm
  refine List.mem_flatMap.mpr ⟨j / pageLimit, List.mem_range'_1.mpr ⟨hsecond, ?_⟩, hj_page⟩
  have hle : j / pageLimit ≤ j := Nat.div_le_self ..
  omega

/-- Past the last offset of 32 bits the load goes on at row 704, and reads it again. -/
theorem not_loadsOnce_of_wrap (hrows : rows.Nodup) (hn : maxPagedRows < rows.length) :
    ¬ LoadsOnce rows := by
  intro h
  obtain ⟨order, horder⟩ := exists_ordering (·.nonce) rows
  have hlength := horder.length
  unfold maxPagedRows at hn
  obtain ⟨fuel, loaded, hload, hperm, -⟩ := h (fun _ => order) fun _ => horder
  have hpages : ∀ j < 4294968, pageOf order (contextOf (0 + j)) ≠ [] := by
    intro j hj hnil
    have hoffset : (contextOf (0 + j)).offset = 1000 * j := by
      rw [Nat.zero_add]
      exact Nat.mod_eq_of_lt (by unfold pageLimit; omega)
    have hzero := congrArg List.length hnil
    unfold pageOf at hzero
    rw [List.length_take, List.length_drop, hoffset] at hzero
    unfold contextOf pageLimit at hzero
    simp only [List.length_nil] at hzero
    omega
  have hstart : repopulateTransactionQueue (fun _ => order) fuel 0 (contextOf 0) = some loaded :=
    hload
  obtain ⟨fuel', rest, rfl, hrest⟩ := repopulate_front 4294968 hstart hpages
  obtain ⟨t, ht⟩ : ∃ t, order[704]? = some t :=
    ⟨_, List.getElem?_eq_getElem (show 704 < order.length by omega)⟩
  have hwrapped : contextOf (0 + 4294968) = ⟨1000, 704⟩ := rfl
  have hagain : t ∈ pageOf order ⟨1000, 704⟩ := by
    apply List.mem_of_getElem? (i := 0)
    unfold pageOf
    rw [List.getElem?_take_of_lt (by decide), List.getElem?_drop]
    exact ht
  refine not_perm_of_twice hrows (t := t) ?_ ?_ hperm
  · apply List.mem_flatMap.mpr
    refine ⟨0, List.mem_range'_1.mpr ⟨le_rfl, by omega⟩, ?_⟩
    apply List.mem_of_getElem? (i := 704)
    show ((order.drop 0).take 1000)[704]? = some t
    rw [List.getElem?_take_of_lt (by decide), List.getElem?_drop]
    exact ht
  · cases fuel' with
    | zero => cases hrest
    | succ fuel' =>
      rw [repopulate_succ, hwrapped] at hrest
      split at hrest
      · rename_i hnil
        rw [hnil] at hagain
        cases hagain
      · obtain ⟨later, -, rfl⟩ := Option.map_eq_some_iff.mp hrest
        exact List.mem_append_left _ hagain

/-- A startup loads every row once, whatever the tie orders, exactly when no nonce has rows on both
sides of a page boundary and every offset fits its 32 bits. -/
theorem startup_loads_once_iff (rows : List Transaction) (hkey : (rows.map (·.id)).Nodup) :
    LoadsOnce rows ↔ rows.length ≤ maxPagedRows ∧ CleanBoundaries rows := by
  have hrows : rows.Nodup := List.Nodup.of_map _ hkey
  constructor
  · intro h
    have hn : rows.length ≤ maxPagedRows := by
      by_contra hmany
      exact not_loadsOnce_of_wrap hrows (by omega) h
    refine ⟨hn, ?_⟩
    intro k _ _ t _ hstraddles
    exact not_loadsOnce_of_straddles hrows hn hstraddles h
  · rintro ⟨hn, hclean⟩
    exact loadsOnce_of_clean hn hclean

/-- A payment at a nonce. -/
def pagedPayment (id : TransactionId) (nonce : ℕ) : Transaction :=
  { Locked.admittedTransaction ⟨freshQueue, none, .empty, []⟩ (servedAdd 0) (payment id 5) 0 with
    nonce }

/-- A payment and its competitor on one page. -/
theorem startup_loads_once_competitor : LoadsOnce [pagedPayment 0 7, pagedPayment 1 7] :=
  (startup_loads_once_iff [pagedPayment 0 7, pagedPayment 1 7] (by decide)).mpr ⟨by decide, by
    intro k hk hrows
    unfold pageLimit at hrows
    simp only [List.length_cons, List.length_nil] at hrows
    omega⟩

/-- A thousand nonces, the last of them with a competitor that begins the second page. -/
def boundaryRows : List Transaction :=
  (List.range 1001).map fun i => pagedPayment i (min i 999)

/-- The row at the end of the first page comes again on the second one, and the other never. -/
theorem startup_loads_once_fails :
    ¬ ∀ rows : List Transaction, (rows.map (·.id)).Nodup → LoadsOnce rows := by
  intro h
  have hids : boundaryRows.map (·.id) = List.range 1001 := by
    unfold boundaryRows
    rw [List.map_map]
    exact List.map_id _
  have hkey : (boundaryRows.map (·.id)).Nodup := by
    rw [hids]
    exact List.nodup_range
  have hn : boundaryRows.length ≤ maxPagedRows := by
    simp [boundaryRows, maxPagedRows]
  have hstraddles : Straddles (·.nonce) boundaryRows (pageLimit * 1) 999 := by
    unfold Straddles
    decide +kernel
  exact not_loadsOnce_of_straddles (List.Nodup.of_map _ hkey) hn hstraddles
    (h boundaryRows hkey)

end StartupPages
end Rrelayer
