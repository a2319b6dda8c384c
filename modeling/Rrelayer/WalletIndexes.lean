import Rrelayer.SigningIdentity

/-! Two allocators of wallet indexes: creation counts the live normal rows of a chain, key import
counts its live private-key rows as well, whose indexes are negative. -/
namespace Rrelayer

/-- The rows creation counts, and the ones whose wallet index the next relayer must not share. -/
def RelayerRecord.liveNormal (r : RelayerRecord) (chainId : ChainId) : Bool :=
  r.chainId == chainId && !r.isPrivateKey && !r.deleted

namespace RelayerTable

variable (db : RelayerTable) (chainId : ChainId)

/-- The greatest wallet index of the chain's live rows. -/
def greatestIndex : Option ℤ :=
  ((db.filter fun r => r.chainId == chainId && !r.deleted).map (·.walletIndex)).max?

/-- Import takes the index creation would take, and no live normal row has it. -/
structure AllocatorsAgree : Prop where
  same : db.getNextWalletIndex chainId = db.nextNormalWalletIndex chainId
  nonneg : ∀ index, db.getNextWalletIndex chainId = some index → 0 ≤ index
  unused : ∀ index, db.getNextWalletIndex chainId = some index →
    ∀ r ∈ db, r.liveNormal chainId = true → r.walletIndex ≠ index

/-- No live row of the chain, or the greatest index is that of a normal row or the one before
the first. -/
def NormalRowLeads : Prop :=
  ∀ greatest, db.greatestIndex chainId = some greatest →
    greatest = -1 ∨
      0 ≤ greatest ∧ ∃ r ∈ db, r.liveNormal chainId = true ∧ r.walletIndex = greatest

variable {db chainId} {rows : RelayerTable} {greatest : ℤ}

theorem nextIndex_of_max (h : (rows.map (·.walletIndex)).max? = some greatest) :
    nextIndex rows =
      if greatest + 1 ≤ maxNormalWalletIndex then some (greatest + 1) else none := by
  unfold nextIndex
  rw [h]
  rfl

theorem nextIndex_of_nil (h : (rows.map (·.walletIndex)).max? = none) :
    nextIndex rows = some 0 := by
  unfold nextIndex
  rw [h]
  rfl

theorem greatestIndex_some (h : db.greatestIndex chainId = some greatest) :
    (∃ r ∈ db, r.chainId = chainId ∧ r.deleted = false ∧ r.walletIndex = greatest) ∧
      ∀ r ∈ db, r.chainId = chainId → r.deleted = false → r.walletIndex ≤ greatest := by
  obtain ⟨hmem, hle⟩ := List.max?_eq_some_iff.mp h
  constructor
  · obtain ⟨r, hr, hindex⟩ := List.mem_map.mp hmem
    obtain ⟨hr, hlive⟩ := List.mem_filter.mp hr
    simp only [Bool.and_eq_true, beq_iff_eq, Bool.not_eq_true'] at hlive
    exact ⟨r, hr, hlive.1, hlive.2, hindex⟩
  · intro r hr hchain hlive
    apply hle
    apply List.mem_map_of_mem
    simp [List.mem_filter, hr, hchain, hlive]

theorem liveNormal_iff {r : RelayerRecord} :
    r.liveNormal chainId = true ↔
      r.chainId = chainId ∧ r.isPrivateKey = false ∧ r.deleted = false := by
  simp [RelayerRecord.liveNormal, and_assoc]

/-- What creation counts: nothing, or the greatest index of a live normal row. -/
theorem normalIndex_cases (db : RelayerTable) (chainId : ChainId) :
    (db.nextNormalWalletIndex chainId = some 0 ∧
        ∀ r ∈ db, r.liveNormal chainId = true → r.walletIndex < 0) ∨
      ∃ top, 0 ≤ top ∧
        (∃ r ∈ db, r.liveNormal chainId = true ∧ r.walletIndex = top) ∧
        (∀ r ∈ db, r.liveNormal chainId = true → r.walletIndex ≤ top) ∧
        db.nextNormalWalletIndex chainId =
          if top + 1 ≤ maxNormalWalletIndex then some (top + 1) else none := by
  have hcounted : ∀ r, r ∈ (db.filter fun r =>
      r.chainId == chainId && !r.isPrivateKey && !r.deleted && decide (0 ≤ r.walletIndex)) ↔
        r ∈ db ∧ r.liveNormal chainId = true ∧ 0 ≤ r.walletIndex := by
    intro r
    simp [List.mem_filter, RelayerRecord.liveNormal, and_assoc]
  unfold nextNormalWalletIndex
  generalize (db.filter fun r => r.chainId == chainId && !r.isPrivateKey && !r.deleted &&
    decide (0 ≤ r.walletIndex)) = counted at hcounted
  cases hmax : (counted.map (·.walletIndex)).max? with
  | none =>
    left
    refine ⟨nextIndex_of_nil hmax, ?_⟩
    intro r hr hnormal
    have hnil : counted = [] := by simpa using hmax
    by_contra hneg
    have hmem := (hcounted r).mpr ⟨hr, hnormal, by omega⟩
    rw [hnil] at hmem
    cases hmem
  | some top =>
    right
    obtain ⟨hmem, hle⟩ := List.max?_eq_some_iff.mp hmax
    obtain ⟨r, hr, hindex⟩ := List.mem_map.mp hmem
    obtain ⟨hr, hnormal, hnonneg⟩ := (hcounted r).mp hr
    have htop : 0 ≤ top := hindex ▸ hnonneg
    refine ⟨top, htop, ⟨r, hr, hnormal, hindex⟩, ?_, nextIndex_of_max hmax⟩
    intro other hother hnormal'
    by_cases hneg : 0 ≤ other.walletIndex
    · exact hle _ (List.mem_map_of_mem ((hcounted other).mpr ⟨hother, hnormal', hneg⟩))
    · omega

/-- A chain without live rows: both allocators give the first index. -/
theorem agree_of_empty (hgreatest : db.greatestIndex chainId = none) :
    db.AllocatorsAgree chainId := by
  have hnext : db.getNextWalletIndex chainId = some 0 := nextIndex_of_nil hgreatest
  have hnone : ∀ r ∈ db, ¬r.liveNormal chainId = true := by
    intro r hr hnormal
    obtain ⟨hchain, -, hlive⟩ := liveNormal_iff.mp hnormal
    have hnil : (db.filter fun r => r.chainId == chainId && !r.deleted) = [] := by
      simpa [greatestIndex] using hgreatest
    have hmem : r ∈ (db.filter fun r => r.chainId == chainId && !r.deleted) := by
      simp [List.mem_filter, hr, hchain, hlive]
    rw [hnil] at hmem
    cases hmem
  constructor
  · obtain ⟨hnormal, -⟩ | ⟨top, -, ⟨r, hr, hnormal, -⟩, -⟩ := normalIndex_cases db chainId
    · rw [hnext, hnormal]
    · exact absurd hnormal (hnone r hr)
  · intro index hindex
    rw [hnext] at hindex
    exact le_of_eq (Option.some.inj hindex)
  · intro index _ r hr hnormal
    exact absurd hnormal (hnone r hr)

section Greatest

variable (hgreatest : db.greatestIndex chainId = some greatest)

include hgreatest

theorem normal_le_greatest {r : RelayerRecord} (hr : r ∈ db)
    (hnormal : r.liveNormal chainId = true) : r.walletIndex ≤ greatest := by
  obtain ⟨hchain, -, hlive⟩ := liveNormal_iff.mp hnormal
  exact (greatestIndex_some hgreatest).2 r hr hchain hlive

/-- What import takes. -/
theorem getNextWalletIndex_of_greatest : db.getNextWalletIndex chainId =
    if greatest + 1 ≤ maxNormalWalletIndex then some (greatest + 1) else none :=
  nextIndex_of_max hgreatest

theorem getNextWalletIndex_eq {index : ℤ} (h : db.getNextWalletIndex chainId = some index) :
    index = greatest + 1 := by
  rw [getNextWalletIndex_of_greatest hgreatest] at h
  split at h
  · exact (Option.some.inj h).symm
  · cases h

/-- Above all indexes, the one import takes is unused. -/
theorem unused_of_greatest {index : ℤ} (h : db.getNextWalletIndex chainId = some index) :
    ∀ r ∈ db, r.liveNormal chainId = true → r.walletIndex ≠ index := by
  intro r hr hnormal
  have hle := normal_le_greatest hgreatest hr hnormal
  have hindex := getNextWalletIndex_eq hgreatest h
  omega

/-- Only private-key rows, the first of them the greatest: the next index is the first normal
one. -/
theorem agree_of_minus (hminus : greatest = -1) : db.AllocatorsAgree chainId := by
  subst hminus
  have hroom : (0 : ℤ) ≤ maxNormalWalletIndex := by decide
  refine ⟨?_, ?_, fun index => unused_of_greatest hgreatest⟩
  · obtain ⟨hnormal, -⟩ | ⟨top, htop, ⟨r, hr, hnormal, hindex⟩, -⟩ := normalIndex_cases db chainId
    · rw [getNextWalletIndex_of_greatest hgreatest, hnormal]
      simp [hroom]
    · have hle := normal_le_greatest hgreatest hr hnormal
      omega
  · intro index h
    rw [getNextWalletIndex_eq hgreatest h]
    decide

/-- A normal row has the greatest index: creation counts it as well. -/
theorem agree_of_leading (hnonneg : 0 ≤ greatest) {r : RelayerRecord} (hr : r ∈ db)
    (hnormal : r.liveNormal chainId = true) (hindex : r.walletIndex = greatest) :
    db.AllocatorsAgree chainId := by
  refine ⟨?_, ?_, fun index => unused_of_greatest hgreatest⟩
  · obtain ⟨-, hnegative⟩ | ⟨top, htop, ⟨other, ho, ho', htopIndex⟩, htops, hnextNormal⟩ :=
      normalIndex_cases db chainId
    · have hneg := hnegative r hr hnormal
      omega
    · have hup := htops r hr hnormal
      have hdown := normal_le_greatest hgreatest ho ho'
      have hequal : top = greatest := by omega
      rw [getNextWalletIndex_of_greatest hgreatest, hnextNormal, hequal]
  · intro index h
    have heq := getNextWalletIndex_eq hgreatest h
    omega

/-- Where both allocators give the same index, they have counted the same greatest one. -/
theorem leads_of_agree (hfits : greatest ≤ maxNormalWalletIndex)
    (h : db.AllocatorsAgree chainId) : greatest = -1 ∨
      0 ≤ greatest ∧ ∃ r ∈ db, r.liveNormal chainId = true ∧ r.walletIndex = greatest := by
  have hsame := h.same
  rw [getNextWalletIndex_of_greatest hgreatest] at hsame
  obtain ⟨hnormal, -⟩ | ⟨top, htop, ⟨r, hr, hlive, hindex⟩, -, hnormal⟩ :=
    normalIndex_cases db chainId
  · left
    rw [hnormal] at hsame
    split at hsame
    · have hfirst := Option.some.inj hsame
      omega
    · cases hsame
  · right
    have hle := normal_le_greatest hgreatest hr hlive
    have hequal : top = greatest := by
      rw [hnormal] at hsame
      by_cases hroom : greatest + 1 ≤ maxNormalWalletIndex
      · have hroom' : top + 1 ≤ maxNormalWalletIndex := by omega
        rw [if_pos hroom, if_pos hroom'] at hsame
        have hnext := Option.some.inj hsame
        omega
      · by_cases hroom' : top + 1 ≤ maxNormalWalletIndex
        · rw [if_neg hroom, if_pos hroom'] at hsame
          cases hsame
        · omega
    exact ⟨hequal ▸ htop, r, hr, hlive, hindex.trans hequal⟩

end Greatest

/-- The allocators agree on a free index exactly when no private-key row is the chain's greatest,
but for one at the index before the first. The column holds 32 bits. -/
theorem allocators_agree_iff (db : RelayerTable) (chainId : ChainId)
    (hcolumn : ∀ r ∈ db, r.walletIndex ≤ maxNormalWalletIndex) :
    db.AllocatorsAgree chainId ↔ db.NormalRowLeads chainId := by
  unfold NormalRowLeads
  cases hgreatest : db.greatestIndex chainId with
  | none =>
    constructor
    · intro _ greatest h
      cases h
    · intro _
      exact agree_of_empty hgreatest
  | some greatest =>
    constructor
    · intro hagree other hother
      obtain rfl := Option.some.inj hother
      obtain ⟨⟨r, hr, -, -, hindex⟩, -⟩ := greatestIndex_some hgreatest
      exact leads_of_agree hgreatest (hindex ▸ hcolumn r hr) hagree
    · intro hleads
      obtain hminus | ⟨hnonneg, r, hr, hnormal, hindex⟩ := hleads greatest rfl
      · exact agree_of_minus hgreatest hminus
      · exact agree_of_leading hgreatest hnonneg hr hnormal hindex

/-- A relayer of the chain, at the given index of its namespace. -/
def indexedRow (id : RelayerId) (walletIndex : ℤ) (isPrivateKey deleted : Bool) :
    RelayerRecord where
  id := id
  chainId := 1
  clonedFromChainId := none
  address := id
  walletIndex := walletIndex
  isPrivateKey := isPrivateKey
  deleted := deleted

/-- A normal row above a private-key row and a deleted one. -/
theorem allocators_agree_mixed :
    RelayerTable.AllocatorsAgree
      [indexedRow 1 (-1) true false, indexedRow 2 4 false true, indexedRow 3 2 false false] 1 :=
  (allocators_agree_iff [indexedRow 1 (-1) true false, indexedRow 2 4 false true,
    indexedRow 3 2 false false] 1 (by decide)).mpr (by
      intro greatest h
      obtain rfl : (2 : ℤ) = greatest := Option.some.inj h
      exact .inr ⟨by decide, indexedRow 3 2 false false, by decide, rfl, rfl⟩)

/-- Of two private-key relayers the first is deleted, and import continues their namespace. -/
theorem allocators_disagree_private :
    ¬ ∀ (db : RelayerTable) (chainId : ChainId),
      (∀ r ∈ db, r.walletIndex ≤ maxNormalWalletIndex) → db.AllocatorsAgree chainId := by
  intro h
  have hnonneg := (h [indexedRow 1 (-1) true true, indexedRow 2 (-2) true false] 1
    (by decide)).nonneg (-1) (by decide)
  revert hnonneg
  decide

end RelayerTable
end Rrelayer
