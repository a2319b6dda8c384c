import Rrelayer.MemoryCopies
import Rrelayer.SignedPayloads
import Rrelayer.StartupGaps

/-! Broadcast evidence: an attempt is recorded with its price before its bytes leave the process,
and the record stays. `made` says which attempts were signed at which price. -/
namespace Rrelayer

/-- Attempts as they were signed: the transaction, the envelope and its price. -/
abbrev Made := TransactionId → SignedTransaction → GasPriceResult →
  Option BlobGasPriceResult → Prop

/-- A log entry that records the attempt at the price, as far as the price columns can hold it. -/
structure Row.Records (a : Row) (x : TransactionId) (hash : TransactionHash)
    (gas : GasPriceResult) (blobGas : Option BlobGasPriceResult) : Prop where
  id : a.id = x
  hash : a.knownTransactionHash = some hash
  sent : a.sentAt.isSome
  gas : a.sentWithGas = gas.stored
  blobGas : a.sentWithBlobGas = blobGas.bind BlobGasPriceResult.stored

namespace Db

/-- The first entry of the hash records a price the attempt was made at. -/
def Priced (made : Made) (db : Db) (x : TransactionId) (hash : TransactionHash) : Prop :=
  ∃ gas blobGas, made x hash gas blobGas ∧
    ∃ before a after, db.audit = before ++ a :: after ∧ a.Records x hash gas blobGas ∧
      ∀ b ∈ before, b.id = x → b.knownTransactionHash = some hash → b.sentAt.isSome = false

def AuditPriced (made : Made) (db : Db) : Prop := ∀ x hash, db.Recorded x hash → Priced made db x hash

variable {made : Made} {db db' : Db} {x : TransactionId} {hash : TransactionHash}

theorem Priced.of_append {new : List Row} (h : Priced made db x hash)
    (happend : db'.audit = db.audit ++ new) : Priced made db' x hash := by
  obtain ⟨gas, blobGas, hmade, before, a, after, haudit, hrecords, hfirst⟩ := h
  refine ⟨gas, blobGas, hmade, before, a, after ++ new, ?_, hrecords, hfirst⟩
  rw [happend, haudit, List.append_assoc, List.cons_append]

/-- New entries that show recorded hashes only. -/
theorem AuditPriced.append {new : List Row} (h : AuditPriced made db)
    (happend : db'.audit = db.audit ++ new)
    (hnew : ∀ a ∈ new, ∀ hash ∈ a.knownTransactionHash, db.Recorded a.id hash) :
    AuditPriced made db' := by
  rintro x hash ⟨a, ha, rfl, hhash, hsent⟩
  rw [happend] at ha
  have hrecorded : db.Recorded a.id hash := by
    rcases List.mem_append.mp ha with ha | ha
    · exact ⟨a, ha, rfl, hhash, hsent⟩
    · exact hnew a ha hash hhash
  exact (h a.id hash hrecorded).of_append happend

end Db

/-- The database records what it shows and what has been broadcast, at a price of the attempt. -/
structure Evidenced (made : Made) (store : Db × Broadcasts) : Prop where
  audit : Db.AuditPriced made store.1
  rows : store.1.RowsRecorded
  broadcasts : ∀ b ∈ store.2, store.1.Recorded b.1 b.2

section Statements

variable {made : Made} {db db' : Db} {b : Broadcasts}

/-- A statement that rewrites and logs rows with hashes that are recorded already. -/
theorem Evidenced.updateLog {y : TransactionId} {f snapshot : Row → Row}
    (h : Evidenced made (db, b)) (hid : ∀ r, (f r).id = r.id)
    (hsnapshot : ∀ r, (snapshot r).id = r.id)
    (hf : ∀ r ∈ db.rows, r.id = y → ∀ hash ∈ (f r).knownTransactionHash, db.Recorded y hash)
    (hlogged : ∀ r ∈ db.rows, r.id = y → ∀ hash ∈ (snapshot (f r)).knownTransactionHash,
      db.Recorded y hash) : Evidenced made ((db.update y f).log y snapshot, b) := by
  constructor
  · have happend : ((db.update y f).log y snapshot).audit =
        db.audit ++ ((db.update y f).rows.filter (·.id == y)).map snapshot := rfl
    apply h.audit.append happend
    intro a ha hash hhash
    obtain ⟨r, hr, hry, rfl⟩ := Db.mem_updateLog ha
    rw [hsnapshot, hid, hry]
    exact hlogged r hr hry hash hhash
  · intro r' hr' hash hhash
    obtain ⟨r, hr, ⟨hry, rfl⟩ | ⟨-, rfl⟩⟩ := Db.mem_update hr'
    · rw [hid, hry]
      exact (hf r hr hry hash hhash).of_append rfl
    · exact (h.rows r' hr hash hhash).of_append rfl
  · intro p hp
    exact (h.broadcasts p hp).of_append rfl

/-- A statement that writes one recorded hash into the row and its snapshot. -/
theorem Evidenced.updateLog_shown {y : TransactionId} {f snapshot : Row → Row}
    {shown : TransactionHash} (h : Evidenced made (db, b)) (hrecorded : db.Recorded y shown)
    (hid : ∀ r, (f r).id = r.id) (hsnapshot : ∀ r, (snapshot r).id = r.id)
    (hf : ∀ r, (f r).knownTransactionHash = some shown)
    (hlogged : ∀ r, (snapshot (f r)).knownTransactionHash = some shown) :
    Evidenced made ((db.update y f).log y snapshot, b) := by
  apply h.updateLog hid hsnapshot
  · intro r _ _ hash hhash
    rw [hf] at hhash
    cases hhash
    exact hrecorded
  · intro r _ _ hash hhash
    rw [hlogged] at hhash
    cases hhash
    exact hrecorded

/-- A statement that leaves the hash of the row as it is. -/
theorem Evidenced.updateLog_kept {y : TransactionId} {f snapshot : Row → Row}
    (h : Evidenced made (db, b)) (hid : ∀ r, (f r).id = r.id)
    (hsnapshot : ∀ r, (snapshot r).id = r.id)
    (hf : ∀ r, (f r).knownTransactionHash = r.knownTransactionHash)
    (hlogged : ∀ r, (snapshot (f r)).knownTransactionHash = r.knownTransactionHash) :
    Evidenced made ((db.update y f).log y snapshot, b) := by
  apply h.updateLog hid hsnapshot
  · rintro r hr rfl hash hhash
    rw [hf] at hhash
    exact h.rows r hr hash hhash
  · rintro r hr rfl hash hhash
    rw [hlogged] at hhash
    exact h.rows r hr hash hhash

theorem Evidenced.transactionSent {id : TransactionId} {hash : TransactionHash}
    {gas : GasPriceResult} {blobGas : Option BlobGasPriceResult} {legacy : Bool} {now : DateTime}
    (h : Evidenced made (db, b)) (hrecorded : db.Recorded id hash) :
    Evidenced made (db.transactionSent id hash gas blobGas legacy now, b) := by
  apply h.updateLog_shown hrecorded
  · intro r
    rfl
  · intro r
    rfl
  · intro r
    rfl
  · intro r
    rfl

/-- An inserted row that shows recorded hashes only. -/
theorem Evidenced.insertLog {r : Row} (h : Evidenced made (db, b)) (hinsert : db.insert r = some db')
    (hr : ∀ hash ∈ r.knownTransactionHash, db.Recorded r.id hash) :
    Evidenced made ({ db' with audit := db'.audit ++ [r] }, b) := by
  have haudit := Db.insert_audit hinsert
  have happend : ({ db' with audit := db'.audit ++ [r] } : Db).audit = db.audit ++ [r] :=
    congrArg (· ++ [r]) haudit
  constructor
  · apply h.audit.append happend
    intro a ha hash hhash
    rw [List.mem_singleton.mp ha] at hhash ⊢
    exact hr hash hhash
  · intro r' hr' hash hhash
    have hrows : db'.rows = db.rows ++ [r] := by
      unfold Db.insert at hinsert
      split at hinsert
      · cases hinsert
      · cases hinsert
        rfl
    have hr' : r' ∈ db'.rows := hr'
    rw [hrows] at hr'
    rcases List.mem_append.mp hr' with hr' | hr'
    · exact (h.rows r' hr' hash hhash).of_append happend
    · rw [List.mem_singleton.mp hr'] at hhash ⊢
      exact (hr hash hhash).of_append happend
  · intro p hp
    exact (h.broadcasts p hp).of_append happend

/-- The repair of poisoned rows keeps their hashes, and logs them with these. -/
theorem Evidenced.poisonedRepaired (h : Evidenced made (db, b)) (relayerId : RelayerId) :
    Evidenced made (db.repairPoisonedPendingTransactionsForRelayer relayerId, b) := by
  constructor
  · apply h.audit.append rfl
    intro a ha hash hhash
    obtain ⟨r, hr, rfl⟩ := List.mem_map.mp ha
    exact h.rows r (List.mem_filter.mp hr).1 hash hhash
  · intro r' hr' hash hhash
    obtain ⟨r, hr, rfl⟩ := List.mem_map.mp hr'
    have hrow : (if Db.poisoned relayerId r = true then { r with
        status := .failed, failedReason := r.failedReason.or (some Db.poisonedReason) }
        else r).knownTransactionHash = r.knownTransactionHash ∧
        (if Db.poisoned relayerId r = true then { r with
        status := .failed, failedReason := r.failedReason.or (some Db.poisonedReason) }
        else r).id = r.id := by
      split
      · exact ⟨rfl, rfl⟩
      · exact ⟨rfl, rfl⟩
    rw [hrow.1] at hhash
    rw [hrow.2]
    exact (h.rows r hr hash hhash).of_append rfl
  · intro p hp
    exact (h.broadcasts p hp).of_append rfl

/-- The statement in front of a broadcast records the attempt at its price. -/
theorem Evidenced.attempted {relayerId : RelayerId} {t : Transaction} {signed : SignedTransaction}
    {gas : GasPriceResult} {blobGas : Option BlobGasPriceResult} {legacy : Bool} {now : DateTime}
    (h : Evidenced made (db, b)) (hmade : made t.id signed gas blobGas)
    (hattempt : db.transactionBroadcastAttempt relayerId t signed gas blobGas legacy now =
      some db') : Evidenced made (db', b ++ [(t.id, signed)]) := by
  have hrecorded := Db.transactionBroadcastAttempt_recorded hattempt
  obtain ⟨hrows, new, hnew, hne, hall⟩ := Db.transactionBroadcastAttempt_spec hattempt
  have hentry : ∀ a ∈ new, a.Records t.id signed gas blobGas := by
    intro a ha
    obtain ⟨r, hid, rfl⟩ := hall a ha
    exact ⟨hid, rfl, rfl, rfl, rfl⟩
  constructor
  · rintro x hash hx
    by_cases hbefore : db.Recorded x hash
    · exact (h.audit x hash hbefore).of_append hnew
    · -- The hash is new, so its first entry is the one written now.
      obtain ⟨a, ha, hid, hhash, hsent⟩ := hx
      rw [hnew] at ha
      rcases List.mem_append.mp ha with ha | ha
      · exact absurd ⟨a, ha, hid, hhash, hsent⟩ hbefore
      · have hrecords := hentry a ha
        obtain rfl : t.id = x := hrecords.id.symm.trans hid
        obtain rfl : signed = hash := Option.some.inj (hrecords.hash.symm.trans hhash)
        obtain ⟨first, rest, rfl⟩ := List.exists_cons_of_ne_nil hne
        refine ⟨gas, blobGas, hmade, db.audit, first, rest, hnew,
          hentry first (List.mem_cons_self ..), ?_⟩
        intro c hc hcid hchash
        by_contra hcsent
        exact hbefore ⟨c, hc, hcid, hchash, eq_true_of_ne_false hcsent⟩
  · intro r' hr' hash hhash
    rcases hrows r' hr' with ⟨hr, -⟩ | ⟨r, hid, rfl⟩
    · exact (h.rows r' hr hash hhash).of_append hnew
    · cases hhash
      show db'.Recorded r.id signed
      rw [hid]
      exact hrecorded
  · intro p hp
    rcases List.mem_append.mp hp with hp | hp
    · exact (h.broadcasts p hp).of_append hnew
    · rw [List.mem_singleton.mp hp]
      exact hrecorded

/-- What an operation may know when it writes: its copies show recorded hashes, its payloads are
signed at the price they are recorded with, and a receipt is one of the hash it was asked for. -/
structure Writer.Reliable (w : Writer) (made : Made) (db : Db) : Prop where
  owned : ∀ t, w.owned t → db.Attempted t
  signs : ∀ t signed sent, w.signs t signed sent →
    sent.id = t.id ∧ sent.hash = signed ∧ made t.id signed sent.sentWithGas sent.sentWithBlobGas
  answers : ∀ hash receipt, w.answers hash receipt → receipt.transactionHash = hash

theorem Wrote.evidenced {w : Writer} {store store' : Db × Broadcasts} (h : Wrote w store store')
    (hw : w.Reliable made store.1) (he : Evidenced made store) : Evidenced made store' := by
  cases h with
  | @saved _ _ _ relayerId t howned hstatus h =>
    unfold Db.saveTransaction at h
    obtain ⟨inserted, hinsert, rfl⟩ := Option.map_eq_some_iff.mp h
    exact he.insertLog hinsert (hw.owned t howned)
  | rejected relayerId reason now hstatus h =>
    unfold Db.transactionFailedOnSend at h
    obtain ⟨inserted, hinsert, rfl⟩ := Option.map_eq_some_iff.mp h
    apply he.insertLog hinsert
    intro hash hhash
    cases hhash
  | @attempted _ _ _ relayerId t signed sent legacy now howned hsigned h =>
    obtain ⟨-, hhash, hmade⟩ := hw.signs t signed sent hsigned
    rw [hhash] at h
    exact he.attempted hmade h
  | @sent db _ t signed sent legacy now hsigned hb haccepted =>
    obtain ⟨hid, hhash, -⟩ := hw.signs t signed sent hsigned
    have hrecorded : db.Recorded sent.id sent.hash := by
      rw [hid, hhash]
      exact he.broadcasts _ hb
    exact he.transactionSent hrecorded
  | @landed _ _ id a gas legacy now ha hgas _ =>
    exact he.transactionSent (Db.recorded_of_mem he.rows ha)
  | @recovered _ _ _ relayerId id a gas legacy now ha hgas _ h =>
    have hrecorded := Db.recorded_of_mem he.rows ha
    rw [Db.recoverLanded_true h]
    apply he.updateLog_shown hrecorded
    · intro r
      rfl
    · intro r
      rfl
    · intro r
      rfl
    · intro r
      rfl
  | failed id | confirmed id | moved id | expired id =>
    apply he.updateLog_kept
    · intro r
      rfl
    · intro r
      rfl
    · intro r
      rfl
    · intro r
      rfl
  | @mined _ _ t u hash receipt now ht hu hid hhash hreceipt =>
    obtain ⟨v, hv, hvid, hvhash⟩ := ht
    have hreceived := hw.answers hash receipt hreceipt
    apply he.updateLog (by intro; rfl) (by intro; rfl)
    · intro r _ _ hash' hshown
      cases hshown
      rw [hreceived, ← hid]
      exact hw.owned u hu hash hhash
    · intro r _ _ hash' hshown
      rw [← hvid]
      exact hw.owned v hv hash' (hvhash.trans hshown)
  | @updated _ _ t now howned =>
    apply he.updateLog (by intro; rfl) (by intro; rfl)
    · intro r _ _
      exact hw.owned t howned
    · intro r _ _
      exact hw.owned t howned
  | poisonedRepaired relayerId => exact he.poisonedRepaired relayerId
  | absentRepaired relayerId chainNonce reason now entry =>
    rcases Db.repairAbsentOne_cases relayerId chainNonce reason now _ entry with hsame | hlogged
    · rw [hsame]
      exact he
    · rw [hlogged]
      apply he.updateLog_kept
      · intro r
        rfl
      · intro r
        rfl
      · intro r
        rfl
      · intro r
        rfl

theorem Writer.Reliable.mono {w : Writer} {new : List Row} (h : w.Reliable made db)
    (happend : db'.audit = db.audit ++ new) : w.Reliable made db' := by
  obtain ⟨howned, hsigns, hanswers⟩ := h
  constructor
  · intro t ht hash hhash
    exact (howned t ht hash hhash).of_append happend
  · exact hsigns
  · exact hanswers

theorem History.evidenced {w : Writer} {store store' : Db × Broadcasts} (h : History w store store')
    (hw : w.Reliable made store.1) (he : Evidenced made store) : Evidenced made store' := by
  induction h with
  | refl => exact he
  | tail hbefore hwrote ih =>
    obtain ⟨new, hnew⟩ := History.audit hbefore
    exact hwrote.evidenced (hw.mono hnew) ih

end Statements

/-- No statement writes an id twice. -/
theorem Wrote.primaryKey {w : Writer} {store store' : Db × Broadcasts} (h : Wrote w store store')
    (hkey : store.1.PrimaryKey) : store'.1.PrimaryKey := by
  have hframe : store.1.Within (fun _ _ => True) store'.1 → store'.1.PrimaryKey :=
    fun hwithin => hwithin.primaryKey hkey
  cases h with
  | saved relayerId _ _ h => exact hframe (Db.saveTransaction_within trivial h)
  | rejected relayerId reason now _ h => exact hframe (Db.transactionFailedOnSend_within trivial h)
  | attempted relayerId legacy now _ _ h =>
    exact hframe (Db.transactionBroadcastAttempt_within trivial h)
  | sent | landed => exact hframe (Db.transactionSent_within (n := 0) trivial)
  | @recovered db db' _ relayerId id a gas legacy now _ _ _ h =>
    have hwithin : db.Within (fun _ _ => True) (db.recoverLandedTransactionAttempt relayerId id
        a.hash gas a.sentWithBlobGas legacy now).2 := Db.recoverLanded_within (n := 0) trivial
    rw [h] at hwithin
    exact hframe hwithin
  | failed => exact hframe (Db.updateTransactionFailed_within (n := 0) trivial)
  | mined => exact hframe (Db.transactionMined_within trivial)
  | confirmed => exact hframe (Db.transactionConfirmed_within (n := 0) trivial)
  | moved => exact hframe (Db.transactionUpdateNonce_within trivial)
  | expired => exact hframe (Db.transactionExpired_within (n := 0) trivial)
  | updated => exact hframe (Db.transactionUpdate_within trivial)
  | poisonedRepaired relayerId => exact (Db.repairPoisoned_sameIds _ relayerId).primaryKey hkey
  | absentRepaired relayerId chainNonce reason now entry =>
    rcases Db.repairAbsentOne_cases relayerId chainNonce reason now _ entry with hsame | hlogged
    · dsimp only
      rw [hsame]
      exact hkey
    · dsimp only
      rw [hlogged]
      exact (Db.update_sameIds _ _ (by intro; rfl)).primaryKey hkey

theorem History.primaryKey {w : Writer} {store store' : Db × Broadcasts}
    (h : History w store store') (hkey : store.1.PrimaryKey) : store'.1.PrimaryKey := by
  induction h with
  | refl => exact hkey
  | tail _ hwrote ih => exact hwrote.primaryKey ih

section Advance

variable {w : Writer} {store store' : Db × Broadcasts} {x : TransactionId}
  (howned : ∀ t, w.owned t → t.id = x → t.status ≠ .inmempool)
include howned

theorem Wrote.advance (h : Wrote w store store') (hx : Db.Avoids .inmempool store.1 x) :
    Db.Avoids .inmempool store'.1 x ∨ Advances w x store store' :=
  (h.avoids (.inr rfl) howned hx).imp_right And.right

/-- A transaction that gets in the mempool got there by one of these statements. -/
theorem History.advance (h : History w store store') (hx : Db.Avoids .inmempool store.1 x)
    (hx' : ¬ Db.Avoids .inmempool store'.1 x) :
    ∃ before after, History w store before ∧ Advances w x before after ∧ History w after store' := by
  induction h with
  | refl => exact absurd hx hx'
  | @tail middle store' hbefore hwrote ih =>
    by_cases hmiddle : Db.Avoids .inmempool middle.1 x
    · rcases hwrote.advance howned hmiddle with havoids | hadvances
      · exact absurd havoids hx'
      · exact ⟨middle, store', hbefore, hadvances, .refl⟩
    · obtain ⟨before, after, hfirst, hadvances, hrest⟩ := ih hmiddle
      exact ⟨before, after, hfirst, hadvances, hrest.tail hwrote⟩

end Advance

end Rrelayer
