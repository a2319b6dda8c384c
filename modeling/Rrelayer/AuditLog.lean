import Rrelayer.WriteTrace

/-! The audit log is append-only, and what it has recorded stays recorded. -/
namespace Rrelayer
namespace Db

theorem insert_audit {db db' : Db} {r : Row} (h : db.insert r = some db') :
    db'.audit = db.audit := by
  unfold insert at h
  split at h
  · cases h
  · cases h
    rfl

/-- The audit log holds an attempt of the transaction with this hash. -/
def Recorded (db : Db) (x : TransactionId) (hash : TransactionHash) : Prop :=
  ∃ a ∈ db.audit, a.id = x ∧ a.knownTransactionHash = some hash ∧ a.sentAt.isSome

/-- The transaction has no row with the status. -/
def Avoids (status : TransactionStatus) (db : Db) (x : TransactionId) : Prop :=
  ∀ r ∈ db.rows, r.id = x → r.status ≠ status

abbrev NotPending (db : Db) (x : TransactionId) : Prop := Avoids .pending db x

theorem Recorded.of_append {db db' : Db} {x : TransactionId} {hash : TransactionHash}
    {new : List Row} (h : db.Recorded x hash) (happend : db'.audit = db.audit ++ new) :
    db'.Recorded x hash := by
  obtain ⟨a, ha, hrecorded⟩ := h
  exact ⟨a, happend ▸ List.mem_append_left _ ha, hrecorded⟩

/-- A row after an update is an old one, rewritten when it has the id. -/
theorem mem_update {db : Db} {x : TransactionId} {f : Row → Row} {r' : Row}
    (h : r' ∈ (db.update x f).rows) :
    ∃ r ∈ db.rows, (r.id = x ∧ r' = f r) ∨ (r.id ≠ x ∧ r' = r) := by
  obtain ⟨r, hr, rfl⟩ := List.mem_map.mp h
  by_cases hid : r.id = x
  · exact ⟨r, hr, .inl ⟨hid, by simp [hid]⟩⟩
  · exact ⟨r, hr, .inr ⟨hid, by simp [hid]⟩⟩

/-- What a statement that writes one transaction logs: its snapshots after the update. -/
theorem mem_updateLog {db : Db} {x : TransactionId} {f snapshot : Row → Row} {a : Row}
    (h : a ∈ (((db.update x f).rows.filter (·.id == x)).map snapshot)) :
    ∃ r ∈ db.rows, r.id = x ∧ a = snapshot (f r) := by
  obtain ⟨r', hr', rfl⟩ := List.mem_map.mp h
  obtain ⟨hmem, hx⟩ := List.mem_filter.mp hr'
  simp only [beq_iff_eq] at hx
  obtain ⟨r, hr, ⟨hrid, rfl⟩ | ⟨hrid, rfl⟩⟩ := mem_update hmem
  · exact ⟨r, hr, hrid, rfl⟩
  · exact absurd hx hrid

/-- An attempt as it is written: over the rows with its id, or as a new row, and logged. -/
theorem transactionBroadcastAttempt_spec {db db' : Db} {relayerId : RelayerId} {t : Transaction}
    {hash : TransactionHash} {gas : GasPriceResult} {blobGas : Option BlobGasPriceResult}
    {legacy : Bool} {now : DateTime}
    (h : db.transactionBroadcastAttempt relayerId t hash gas blobGas legacy now = some db') :
    (∀ r' ∈ db'.rows, r' ∈ db.rows ∧ r'.id ≠ t.id ∨
      ∃ r : Row, r.id = t.id ∧ r' = r.withAttempt relayerId t hash gas blobGas legacy now) ∧
    ∃ new, db'.audit = db.audit ++ new ∧ new ≠ [] ∧ ∀ a ∈ new, ∃ r : Row, r.id = t.id ∧
      a = { r.withAttempt relayerId t hash gas blobGas legacy now with requestDigest := none } := by
  unfold transactionBroadcastAttempt at h
  dsimp only at h
  split at h
  · rename_i row hrow
    cases h
    constructor
    · intro r' hr'
      obtain ⟨r, hr, ⟨hid, rfl⟩ | ⟨hid, rfl⟩⟩ := mem_update hr'
      · exact .inr ⟨r, hid, rfl⟩
      · exact .inl ⟨hr, hid⟩
    · refine ⟨_, rfl, ?_, ?_⟩
      · have hmem := List.mem_of_find?_eq_some hrow
        have hid : row.id = t.id := row_id hrow
        apply List.ne_nil_of_mem
        apply List.mem_map_of_mem
        apply List.mem_filter.mpr
        constructor
        · exact List.mem_map.mpr ⟨row, hmem, rfl⟩
        · simp [hid, Row.withAttempt, Row.withGas]
      · intro a ha
        obtain ⟨r, -, hid, rfl⟩ := mem_updateLog ha
        exact ⟨r, hid, rfl⟩
  · rename_i hrow
    obtain ⟨inserted, hinsert, rfl⟩ := Option.map_eq_some_iff.mp h
    have hrows : inserted.rows = db.rows ++
        [(Row.blank t).withAttempt relayerId t hash gas blobGas legacy now] ∧
        inserted.audit = db.audit := by
      unfold insert at hinsert
      split at hinsert
      · cases hinsert
      · cases hinsert
        exact ⟨rfl, rfl⟩
    have hfresh : ∀ r ∈ db.rows, r.id ≠ t.id := by
      intro r hr hid
      have hnone := List.find?_eq_none.mp hrow r hr
      simp [hid] at hnone
    constructor
    · intro r' hr'
      have hr' : r' ∈ inserted.rows := hr'
      rw [hrows.1] at hr'
      rcases List.mem_append.mp hr' with hr' | hr'
      · exact .inl ⟨hr', hfresh r' hr'⟩
      · exact .inr ⟨Row.blank t, rfl, List.mem_singleton.mp hr'⟩
    · have hlogged : inserted.rows.filter (·.id == t.id) =
          [(Row.blank t).withAttempt relayerId t hash gas blobGas legacy now] := by
        rw [hrows.1, List.filter_append]
        have hnil : db.rows.filter (·.id == t.id) = [] := by
          apply List.filter_eq_nil_iff.mpr
          intro r hr
          simpa using hfresh r hr
        rw [hnil]
        simp [Row.withAttempt, Row.withGas, Row.blank]
      refine ⟨_, congrArg (· ++ _) hrows.2, ?_, ?_⟩
      · rw [hlogged]
        simp
      · intro a ha
        rw [hlogged] at ha
        exact ⟨Row.blank t, rfl, by simpa using ha⟩

theorem transactionBroadcastAttempt_recorded {db db' : Db} {relayerId : RelayerId}
    {t : Transaction} {hash : TransactionHash} {gas : GasPriceResult}
    {blobGas : Option BlobGasPriceResult} {legacy : Bool} {now : DateTime}
    (h : db.transactionBroadcastAttempt relayerId t hash gas blobGas legacy now = some db') :
    db'.Recorded t.id hash := by
  obtain ⟨-, new, hnew, hne, hall⟩ := transactionBroadcastAttempt_spec h
  obtain ⟨a, ha⟩ := List.exists_mem_of_ne_nil new hne
  obtain ⟨r, hid, heq⟩ := hall a ha
  refine ⟨a, hnew ▸ List.mem_append_right _ ha, ?_⟩
  rw [heq]
  exact ⟨hid, rfl, rfl⟩

theorem transactionSent_notPending (db : Db) (x : TransactionId) (hash : TransactionHash)
    (gas : GasPriceResult) (blobGas : Option BlobGasPriceResult) (legacy : Bool)
    (now : DateTime) : (db.transactionSent x hash gas blobGas legacy now).NotPending x := by
  intro r' hr' hid
  obtain ⟨r, -, ⟨-, rfl⟩ | ⟨hne, rfl⟩⟩ := mem_update hr'
  · exact fun h => nomatch h
  · exact absurd hid hne

/-- A recovery that is carried out rewrites the rows with the id and logs them. -/
theorem recoverLanded_true {db db' : Db} {relayerId : RelayerId} {x : TransactionId}
    {hash : TransactionHash} {gas : GasPriceResult} {blobGas : Option BlobGasPriceResult}
    {legacy : Bool} {now : DateTime}
    (h : db.recoverLandedTransactionAttempt relayerId x hash gas blobGas legacy now =
      (true, db')) :
    db' = (db.update x fun r =>
      { r with status := .inmempool, sentAt := r.sentAt.or (some now) }.withGas
        hash gas blobGas legacy).log x fun r => { r with requestDigest := none } := by
  unfold recoverLandedTransactionAttempt at h
  dsimp only at h
  split at h
  · split at h
    · cases h
      rfl
    · cases h
  · cases h

/-- One absent repair fails the rows with the id, or does nothing. -/
theorem repairAbsentOne_cases (relayerId : RelayerId) (chainNonce : ℕ) (reason : String)
    (now : DateTime) (db : Db) (entry : TransactionId × List TransactionHash) :
    repairAbsentOne relayerId chainNonce reason now db entry = db ∨
      repairAbsentOne relayerId chainNonce reason now db entry =
        (db.update entry.1 fun r => { r with
          status := .failed
          failedAt := some now
          failedReason := r.failedReason.or (some reason) }).log entry.1 fun r =>
            { r with requestDigest := none } := by
  unfold repairAbsentOne
  dsimp only
  split
  · split
    · exact .inr rfl
    · exact .inl rfl
  · exact .inl rfl

section Avoids

variable {status : TransactionStatus} {db db' : Db} {x : TransactionId}

/-- An update whose rewritten rows have another status. -/
theorem Avoids.update {y : TransactionId} {f : Row → Row} (h : Avoids status db x)
    (hf : ∀ r ∈ db.rows, r.id = y → (f r).id = x → (f r).status ≠ status) :
    Avoids status (db.update y f) x := by
  intro r' hr' hid
  obtain ⟨r, hr, ⟨hy, rfl⟩ | ⟨-, rfl⟩⟩ := mem_update hr'
  · exact hf r hr hy hid
  · exact h r' hr hid

theorem Avoids.insert {r : Row} (h : Avoids status db x)
    (hinsert : db.insert r = some db') (hr : r.id = x → r.status ≠ status) :
    Avoids status db' x := by
  unfold Db.insert at hinsert
  split at hinsert
  · cases hinsert
  · cases hinsert
    intro r' hr' hid
    rcases List.mem_append.mp hr' with hr' | hr'
    · exact h r' hr' hid
    · rw [List.mem_singleton.mp hr'] at hid ⊢
      exact hr hid

end Avoids

end Db

/-- Every statement only appends to the audit log. -/
theorem Wrote.audit {w : Writer} {store store' : Db × Broadcasts} (h : Wrote w store store') :
    ∃ new, store'.1.audit = store.1.audit ++ new := by
  cases h with
  | saved relayerId _ _ h =>
    unfold Db.saveTransaction at h
    obtain ⟨inserted, hinsert, rfl⟩ := Option.map_eq_some_iff.mp h
    have hsame : inserted.audit = _ := Db.insert_audit hinsert
    exact ⟨_, congrArg (· ++ _) hsame⟩
  | rejected relayerId reason now _ h =>
    unfold Db.transactionFailedOnSend at h
    obtain ⟨inserted, hinsert, rfl⟩ := Option.map_eq_some_iff.mp h
    have hsame : inserted.audit = _ := Db.insert_audit hinsert
    exact ⟨_, congrArg (· ++ _) hsame⟩
  | attempted relayerId legacy now _ _ h =>
    obtain ⟨-, new, hnew, -⟩ := Db.transactionBroadcastAttempt_spec h
    exact ⟨new, hnew⟩
  | recovered relayerId legacy now _ _ _ h => exact ⟨_, congrArg Db.audit (Db.recoverLanded_true h)⟩
  | absentRepaired relayerId chainNonce reason now entry =>
    rcases Db.repairAbsentOne_cases relayerId chainNonce reason now _ entry with hsame | hlogged
    · exact ⟨[], by rw [hsame, List.append_nil]⟩
    · exact ⟨_, congrArg Db.audit hlogged⟩
  | _ => exact ⟨_, rfl⟩

theorem History.audit {w : Writer} {store store' : Db × Broadcasts} (h : History w store store') :
    ∃ new, store'.1.audit = store.1.audit ++ new := by
  induction h with
  | refl => exact ⟨[], by simp⟩
  | tail _ hwrote ih =>
    obtain ⟨new, hnew⟩ := ih
    obtain ⟨new', hnew'⟩ := hwrote.audit
    exact ⟨new ++ new', by rw [hnew', hnew, List.append_assoc]⟩

theorem History.recorded {w : Writer} {store store' : Db × Broadcasts} (h : History w store store')
    {x : TransactionId} {hash : TransactionHash} (hx : store.1.Recorded x hash) :
    store'.1.Recorded x hash := by
  obtain ⟨new, hnew⟩ := h.audit
  exact hx.of_append hnew

/-- The statements that put a pending row in the mempool: the one after an accepted broadcast, and
the adoption of a recorded attempt that a provider knows. -/
inductive Advances (w : Writer) : TransactionId → Db × Broadcasts → Db × Broadcasts → Prop where
  | sent {db : Db} {b : Broadcasts} {t : Transaction} {signed : SignedTransaction}
      {sent : TransactionSentWithRelayer} (legacy : Bool) (now : DateTime)
      (hsigned : w.signs t signed sent) (hb : (t.id, signed) ∈ b) (haccepted : w.accepts signed) :
      Advances w sent.id (db, b) (db.transactionSent sent.id sent.hash sent.sentWithGas
        sent.sentWithBlobGas legacy now, b)
  | landed {db : Db} {b : Broadcasts} {id : TransactionId} {a : RecordedTransactionAttempt}
      {gas : GasPriceResult} (legacy : Bool) (now : DateTime)
      (ha : a ∈ db.getRecordedTransactionAttempts id) (hfound : w.finds a.hash) :
      Advances w id (db, b) (db.transactionSent id a.hash gas a.sentWithBlobGas legacy now, b)
  | recovered {db db' : Db} {b : Broadcasts} (relayerId : RelayerId) {id : TransactionId}
      {a : RecordedTransactionAttempt} {gas : GasPriceResult} (legacy : Bool) (now : DateTime)
      (ha : a ∈ db.getRecordedTransactionAttempts id) (hfound : w.finds a.hash)
      (h : db.recoverLandedTransactionAttempt relayerId id a.hash gas a.sentWithBlobGas legacy
        now = (true, db')) : Advances w id (db, b) (db', b)

section Statements

variable {db : Db} {x : TransactionId} {status : TransactionStatus}

/-- The statement after a broadcast puts its own transaction in the mempool, and does no more. -/
theorem avoids_transactionSent (hx : Db.Avoids status db x) (id : TransactionId)
    (hash : TransactionHash) (gas : GasPriceResult) (blobGas : Option BlobGasPriceResult)
    (legacy : Bool) (now : DateTime) :
    Db.Avoids status (db.transactionSent id hash gas blobGas legacy now) x ∨
      id = x ∧ status = .inmempool := by
  by_cases hadvances : id = x ∧ status = .inmempool
  · exact .inr hadvances
  · left
    apply hx.update
    intro r _ hr hrx hstatus
    exact hadvances ⟨hr.symm.trans hrx, hstatus.symm⟩

theorem avoids_recoverLanded {db' : Db} {relayerId : RelayerId} {id : TransactionId}
    {hash : TransactionHash} {gas : GasPriceResult} {blobGas : Option BlobGasPriceResult}
    {legacy : Bool} {now : DateTime} (hx : Db.Avoids status db x)
    (h : db.recoverLandedTransactionAttempt relayerId id hash gas blobGas legacy now =
      (true, db')) : Db.Avoids status db' x ∨ id = x ∧ status = .inmempool := by
  by_cases hadvances : id = x ∧ status = .inmempool
  · exact .inr hadvances
  · left
    rw [Db.recoverLanded_true h]
    apply hx.update
    intro r _ hr hrx hstatus
    exact hadvances ⟨hr.symm.trans hrx, hstatus.symm⟩

theorem avoids_repairPoisoned (hx : Db.Avoids status db x)
    (hfailed : TransactionStatus.failed ≠ status) (relayerId : RelayerId) :
    Db.Avoids status (db.repairPoisonedPendingTransactionsForRelayer relayerId) x := by
  intro r' hr' hid
  obtain ⟨r, hr, rfl⟩ := List.mem_map.mp hr'
  by_cases hpoisoned : Db.poisoned relayerId r = true
  · simp only [hpoisoned, if_true]
    exact hfailed
  · simp only [hpoisoned] at hid ⊢
    exact hx r hr hid

theorem avoids_repairAbsentOne (hx : Db.Avoids status db x)
    (hfailed : TransactionStatus.failed ≠ status) (relayerId : RelayerId) (chainNonce : ℕ)
    (reason : String) (now : DateTime) (entry : TransactionId × List TransactionHash) :
    Db.Avoids status (Db.repairAbsentOne relayerId chainNonce reason now db entry) x := by
  rcases Db.repairAbsentOne_cases relayerId chainNonce reason now db entry with hsame | hlogged
  · rw [hsame]
    exact hx
  · rw [hlogged]
    exact hx.update fun _ _ _ _ => hfailed

/-- An attempt is recorded in the row of a transaction that the writer holds. -/
theorem avoids_attempted {db' : Db} {relayerId : RelayerId} {t : Transaction}
    {hash : TransactionHash} {gas : GasPriceResult} {blobGas : Option BlobGasPriceResult}
    {legacy : Bool} {now : DateTime} (hx : Db.Avoids status db x)
    (howned : t.id = x → t.status ≠ status)
    (h : db.transactionBroadcastAttempt relayerId t hash gas blobGas legacy now = some db') :
    Db.Avoids status db' x := by
  obtain ⟨hrows, -⟩ := Db.transactionBroadcastAttempt_spec h
  intro r' hr' hid
  rcases hrows r' hr' with ⟨hr, -⟩ | ⟨r, hrid, rfl⟩
  · exact hx r' hr hid
  · exact howned (hrid.symm.trans hid)

end Statements

/-- A live status that the transaction has in no row, it gets from a writer that holds it so, or,
in the mempool, by one of these statements. -/
theorem Wrote.avoids {w : Writer} {store store' : Db × Broadcasts} {x : TransactionId}
    {status : TransactionStatus} (hlive : status = .pending ∨ status = .inmempool)
    (howned : ∀ t, w.owned t → t.id = x → t.status ≠ status) (h : Wrote w store store')
    (hx : Db.Avoids status store.1 x) :
    Db.Avoids status store'.1 x ∨ (status = .inmempool ∧ Advances w x store store') := by
  have hdone {s : TransactionStatus} (hpending : s ≠ .pending) (hinmempool : s ≠ .inmempool) :
      s ≠ status := by
    rintro rfl
    exact hlive.elim hpending hinmempool
  have hfailed : TransactionStatus.failed ≠ status := hdone (fun h => nomatch h) (fun h => nomatch h)
  cases h with
  | @saved _ _ _ relayerId t ht hstatus h =>
    left
    unfold Db.saveTransaction at h
    obtain ⟨inserted, hinsert, rfl⟩ := Option.map_eq_some_iff.mp h
    apply hx.insert hinsert
    intro hid
    exact howned t ht hid
  | rejected relayerId reason now hstatus h =>
    left
    unfold Db.transactionFailedOnSend at h
    obtain ⟨inserted, hinsert, rfl⟩ := Option.map_eq_some_iff.mp h
    apply hx.insert hinsert
    intro _ hsame
    exact hfailed (hstatus.symm.trans hsame)
  | @attempted _ _ _ relayerId t _ _ legacy now ht _ h =>
    exact .inl (avoids_attempted hx (howned t ht) h)
  | @sent db b t signed sent legacy now hsigned hb haccepted =>
    rcases avoids_transactionSent hx sent.id sent.hash sent.sentWithGas sent.sentWithBlobGas legacy
      now with hkept | ⟨rfl, hstatus⟩
    · exact .inl hkept
    · exact .inr ⟨hstatus, .sent legacy now hsigned hb haccepted⟩
  | @landed db b id a gas legacy now ha hgas hfound =>
    rcases avoids_transactionSent hx id a.hash gas a.sentWithBlobGas legacy now with
      hkept | ⟨rfl, hstatus⟩
    · exact .inl hkept
    · exact .inr ⟨hstatus, .landed legacy now ha hfound⟩
  | @recovered db db' b relayerId id a gas legacy now ha hgas hfound h =>
    rcases avoids_recoverLanded hx h with hkept | ⟨rfl, hstatus⟩
    · exact .inl hkept
    · exact .inr ⟨hstatus, .recovered relayerId legacy now ha hfound h⟩
  | failed | mined | confirmed | expired =>
    left
    exact hx.update fun _ _ _ _ => hdone (fun h => nomatch h) (fun h => nomatch h)
  | moved id nonce =>
    left
    exact hx.update fun r hr _ hid => hx r hr hid
  | @updated _ _ t now ht =>
    left
    exact hx.update fun r _ hrid hid => howned t ht (hrid.symm.trans hid)
  | poisonedRepaired relayerId => exact .inl (avoids_repairPoisoned hx hfailed relayerId)
  | absentRepaired relayerId chainNonce reason now entry =>
    exact .inl (avoids_repairAbsentOne hx hfailed relayerId chainNonce reason now entry)

/-- A row that is no longer pending does not become pending unless its writer holds the
transaction as pending. -/
theorem Wrote.notPending {w : Writer} {store store' : Db × Broadcasts} {x : TransactionId}
    (howned : ∀ t, w.owned t → t.id = x → t.status ≠ .pending) (h : Wrote w store store')
    (hx : store.1.NotPending x) : store'.1.NotPending x := by
  rcases h.avoids (.inl rfl) howned hx with hkept | ⟨hinmempool, -⟩
  · exact hkept
  · cases hinmempool

theorem History.notPending {w : Writer} {store store' : Db × Broadcasts} {x : TransactionId}
    (howned : ∀ t, w.owned t → t.id = x → t.status ≠ .pending) (h : History w store store')
    (hx : store.1.NotPending x) : store'.1.NotPending x := by
  induction h with
  | refl => exact hx
  | tail _ hwrote ih => exact hwrote.notPending howned ih

end Rrelayer
