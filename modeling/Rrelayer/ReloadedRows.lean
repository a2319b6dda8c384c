import Rrelayer.ExternalIds
import Rrelayer.SafeGasLimits

/-! What a restart reads back of an admitted transaction. The row has no column for the no-op flag,
and the view derives it from the addresses. -/
namespace Rrelayer

/-- A transaction read back means what it meant in memory: the same flag, payload and limits, and
so the same routing, estimation and conversion. -/
structure Transaction.MeansTheSame (reloaded t : Transaction) : Prop where
  isNoop : reloaded.isNoop = t.isNoop
  payload : reloaded.toAddress = t.toAddress ∧ reloaded.value = t.value ∧ reloaded.data = t.data ∧
    reloaded.blobs = t.blobs
  limits : reloaded.gasLimit = t.gasLimit ∧ reloaded.expiresAt = t.expiresAt
  routed : ∀ config, isSafeRouted config reloaded = isSafeRouted config t
  buffered : ∀ env request,
    estimateGas env request reloaded.isNoop = estimateGas env request t.isNoop
  converted : ∀ env, convertsToNoop env reloaded = convertsToNoop env t

theorem Transaction.MeansTheSame.refl (t : Transaction) : t.MeansTheSame t :=
  ⟨rfl, ⟨rfl, rfl, rfl, rfl⟩, ⟨rfl, rfl⟩, fun _ => rfl, fun _ _ => rfl, fun _ => rfl⟩

namespace Locked

variable {l l' : Locked} {env : AdmissionEnv} {toSend : TransactionToSend} {t : Transaction} {r : Row}

/-- The transaction an admission accepts, with its row. -/
def admittedRow (l : Locked) (env : AdmissionEnv) (toSend : TransactionToSend) :
    Option (Transaction × Row) :=
  match l.addTransaction env toSend with
  | (l', .ok t) => (l'.db.row t.id).map (t, ·)
  | (_, .error _) => none

theorem admittedRow_some (h : l.admittedRow env toSend = some (t, r)) :
    ∃ l', l.addTransaction env toSend = (l', .ok t) ∧ l'.db.row t.id = some r := by
  unfold admittedRow at h
  split at h
  · rename_i l' t' hadd
    obtain ⟨r', hr, hsame⟩ := Option.map_eq_some_iff.mp h
    cases hsame
    exact ⟨l', hadd, hr⟩
  · cases h

/-- The view of a row that a save has just written. -/
theorem saveTransaction_row {db db' : Db} {relayerId : RelayerId}
    (h : db.saveTransaction relayerId t = some db') (hnew : db.row t.id = none)
    (hr : db'.row t.id = some r) :
    r.toTransaction = { Row.blank t with
      relayerId := relayerId
      gasLimit := t.gasLimit
      knownTransactionHash := t.knownTransactionHash
      cancelledByTransactionId := t.cancelledByTransactionId }.toTransaction := by
  unfold Db.saveTransaction at h
  obtain ⟨inserted, hinsert, rfl⟩ := Option.map_eq_some_iff.mp h
  obtain ⟨hrows, -⟩ := Db.insert_eq_some hinsert
  unfold Db.row at hr hnew
  dsimp only at hr
  rw [hrows, List.find?_append, hnew] at hr
  simp only [Option.none_or, List.find?_cons] at hr
  split at hr
  · cases hr
    rfl
  · cases hr

/-- An admission that writes the row of the transaction it returns has saved it as it is in
memory, and not as a no-op. -/
theorem addTransaction_saved (h : l.addTransaction env toSend = (l', .ok t))
    (hnew : l.db.row t.id = none) (hr : l'.db.row t.id = some r) :
    (t.isNoop = false ∧ t.toAddress = toSend.toAddress ∧
      t.fromAddress = l.queue.relayer.address) ∧
    r.toTransaction = { t with isNoop := t.toAddress == t.fromAddress } := by
  have hsame : l'.db ≠ l.db := by
    intro hdb
    rw [hdb, hnew] at hr
    cases hr
  unfold addTransaction at h
  split at h
  · cases h
  · cases h
    exact absurd rfl hsame
  · split at h
    · cases h
    · split at h
      · cases h
      · split at h
        · cases h
        · unfold admitNew at h
          dsimp only at h
          split at h
          · cases h
          · split at h
            · unfold admissionFailed at h
              dsimp only at h
              split at h
              · cases h
              · rw [Prod.mk.injEq] at h
                rw [← h.1] at hsame
                exact absurd rfl hsame
            · unfold reserveAndSave at h
              dsimp only at h
              split at h
              · rename_i db hsave
                cases h
                unfold saveAdmitted at hsave
                split at hsave
                · exact ⟨⟨rfl, rfl, rfl⟩, saveTransaction_row hsave hnew hr⟩
                · cases hsave
              · rw [Prod.mk.injEq] at h
                rw [← h.1] at hsame
                exact absurd rfl hsame

/-- An admitted and saved transaction is read back with the same meaning exactly when it is not a
payment of the relayer to itself. -/
theorem reloaded_means_the_same_iff (h : l.admittedRow env toSend = some (t, r))
    (hnew : l.db.row t.id = none) :
    r.toTransaction.MeansTheSame t ↔ toSend.toAddress ≠ l.queue.relayer.address := by
  obtain ⟨l', hadd, hr⟩ := admittedRow_some h
  obtain ⟨⟨hnoop, hto, hfrom⟩, hreloaded⟩ := addTransaction_saved hadd hnew hr
  rw [hreloaded]
  constructor
  · intro hsame hself
    have hflag := hsame.isNoop
    rw [hnoop] at hflag
    dsimp only at hflag
    rw [hto, hfrom, hself] at hflag
    simp at hflag
  · intro hother
    have hflag : (t.toAddress == t.fromAddress) = t.isNoop := by
      rw [hnoop, hto, hfrom]
      simpa using hother
    rw [hflag]
    exact .refl t

theorem reloaded_means_the_same_payment : ∃ (t : Transaction) (r : Row),
    freshLocked.admittedRow (servedAdd 0) (payment 1 5) = some (t, r) ∧
      r.toTransaction.MeansTheSame t := by
  have hserved : (freshLocked.admittedRow (servedAdd 0) (payment 1 5)).isSome = true := by decide
  obtain ⟨⟨t, r⟩, h⟩ := Option.isSome_iff_exists.mp hserved
  exact ⟨t, r, h, (reloaded_means_the_same_iff h rfl).mpr (by decide)⟩

/-- A payment of the relayer to itself is read back as a no-op. -/
theorem reloaded_means_the_same_fails : ¬ ∀ (l : Locked) (env : AdmissionEnv)
    (toSend : TransactionToSend), ∀ p ∈ l.admittedRow env toSend, l.db.row p.1.id = none →
      p.2.toTransaction.MeansTheSame p.1 := by
  intro hsame
  have hflag : ∀ p ∈ freshLocked.admittedRow (servedAdd 0) ⟨1, 7, 5, [], .fast, none, none⟩,
      p.2.isNoop = p.1.isNoop :=
    fun p hp => (hsame freshLocked (servedAdd 0) _ p hp rfl).isNoop
  revert hflag
  decide

end Locked
end Rrelayer
