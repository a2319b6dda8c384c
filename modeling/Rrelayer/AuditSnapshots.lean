import Rrelayer.AuditLog
import Rrelayer.LandedAttempts
import Rrelayer.StartupRows

/-! What each statement copies to the audit log, against the row it wrote. A snapshot lists its
columns by hand, and those it leaves out are `NULL` in the log. -/
namespace Rrelayer

/-- The transaction becomes one without effect. The log leaves out what the failed statement
does. -/
def Db.updateTransactionNoop (db : Db) (id : TransactionId) (toAddress : EvmAddress)
    (speed : TransactionSpeed) (gasLimit : ℕ) : Db :=
  let write (r : Row) : Row :=
    { r with
      toAddress := toAddress
      value := 0
      data := []
      blobs := none
      gasLimit := some gasLimit
      speed := speed
      isNoop := toAddress == r.fromAddress }
  (db.update id write).log id fun r =>
    { r.dropLinks.dropPrices with
      blockHash := none, minedAtBlockNumber := none, expiredAt := none }

/-- A write of one transaction. -/
inductive RowWrite where
  | save (relayerId : RelayerId) (t : Transaction)
  | broadcastAttempt (relayerId : RelayerId) (t : Transaction) (hash : TransactionHash)
      (gas : GasPriceResult) (blobGas : Option BlobGasPriceResult) (legacy : Bool)
  | sent (id : TransactionId) (hash : TransactionHash) (gas : GasPriceResult)
      (blobGas : Option BlobGasPriceResult) (legacy : Bool)
  | recover (relayerId : RelayerId) (id : TransactionId) (hash : TransactionHash)
      (gas : GasPriceResult) (blobGas : Option BlobGasPriceResult) (legacy : Bool)
  | update (t : Transaction)
  | updateNonce (id : TransactionId) (nonce : ℕ)
  | noop (id : TransactionId) (toAddress : EvmAddress) (speed : TransactionSpeed) (gasLimit : ℕ)
  | failed (id : TransactionId) (reason : String)
  | failedOnSend (relayerId : RelayerId) (t : Transaction) (reason : String)
  | mined (t : Transaction) (receipt : Receipt)
  | confirmed (id : TransactionId)
  | expired (id : TransactionId)
  deriving DecidableEq, Repr

/-- The transaction that is written. -/
def RowWrite.id : RowWrite → TransactionId
  | .save _ t | .broadcastAttempt _ t _ _ _ _ | .update t | .failedOnSend _ t _ | .mined t _ => t.id
  | .sent id _ _ _ _ | .recover _ id _ _ _ _ | .updateNonce id _ | .noop id _ _ _
  | .failed id _ | .confirmed id | .expired id => id

namespace Db

/-- The database after the write; absent where it is refused or finds no row. -/
def write (db : Db) (now : DateTime) : RowWrite → Option Db
  | .save relayerId t => db.saveTransaction relayerId t
  | .broadcastAttempt relayerId t hash gas blobGas legacy =>
      db.transactionBroadcastAttempt relayerId t hash gas blobGas legacy now
  | .sent id hash gas blobGas legacy =>
      optionIf (db.row id).isSome (db.transactionSent id hash gas blobGas legacy now)
  | .recover relayerId id hash gas blobGas legacy =>
      let recovered := db.recoverLandedTransactionAttempt relayerId id hash gas blobGas legacy now
      optionIf recovered.1 recovered.2
  | .update t => optionIf (db.row t.id).isSome (db.transactionUpdate t now)
  | .updateNonce id nonce => optionIf (db.row id).isSome (db.transactionUpdateNonce id nonce)
  | .noop id toAddress speed gasLimit =>
      optionIf (db.row id).isSome (db.updateTransactionNoop id toAddress speed gasLimit)
  | .failed id reason => optionIf (db.row id).isSome (db.updateTransactionFailed id reason now)
  | .failedOnSend relayerId t reason => db.transactionFailedOnSend relayerId t reason now
  | .mined t receipt => optionIf (db.row t.id).isSome (db.transactionMined t receipt now)
  | .confirmed id => optionIf (db.row id).isSome (db.transactionConfirmed id now)
  | .expired id => optionIf (db.row id).isSome (db.transactionExpired id now)

/-- The newest audit row of the transaction is its live row. -/
def FaithfulAt (db : Db) (id : TransactionId) : Prop :=
  (db.audit.filter (·.id == id)).getLast? = db.row id

end Db

namespace Row

variable (r : Row)

def Unlinked : Prop := r.cancelledByTransactionId = none ∧ r.requestDigest = none
def Unpriced : Prop := r.sentWithGas = none ∧ r.sentWithBlobGas = none
def Unmined : Prop := r.blockHash = none ∧ r.minedAtBlockNumber = none

end Row

/-- The columns the snapshot leaves out are `NULL` in the row it is taken of, and the hash of a
mined transaction is the one its receipt names. -/
def RowWrite.KeepsColumns (db : Db) : RowWrite → Prop
  | .save _ _ | .failedOnSend _ _ _ => True
  | .broadcastAttempt _ t _ _ _ _ => ∀ r, db.row t.id = some r → r.requestDigest = none
  | .sent id _ _ _ _ => ∀ r, db.row id = some r → r.Unlinked ∧ r.Unmined ∧ r.expiredAt = none
  | .recover _ id _ _ _ _ => ∀ r, db.row id = some r → r.requestDigest = none
  | .update t => ∀ r, db.row t.id = some r →
      t.cancelledByTransactionId = none ∧ r.requestDigest = none
  | .updateNonce id _ | .confirmed id =>
      ∀ r, db.row id = some r → r.Unlinked ∧ r.Unpriced ∧ r.expiredAt = none
  | .noop id _ _ _ | .failed id _ =>
      ∀ r, db.row id = some r → r.Unlinked ∧ r.Unpriced ∧ r.Unmined ∧ r.expiredAt = none
  | .mined t receipt => ∀ r, db.row t.id = some r →
      (r.Unlinked ∧ r.Unpriced ∧ r.expiredAt = none) ∧
        t.knownTransactionHash = some receipt.transactionHash
  | .expired id => ∀ r, db.row id = some r → r.Unlinked ∧ r.Unpriced

section Snapshots

variable (r : Row)

theorem Row.dropDigest_eq_iff : { r with requestDigest := none } = r ↔ r.requestDigest = none := by
  constructor
  · intro h
    exact (congrArg (·.requestDigest) h).symm
  · intro h
    cases r
    simpa using h.symm

theorem Row.dropLinks_eq_iff : r.dropLinks = r ↔ r.Unlinked := by
  obtain ⟨⟨⟩, _, _, _, _, _⟩ := r
  simp [dropLinks, Unlinked, eq_comm]

theorem Row.dropLinksBlock_eq_iff :
    { r.dropLinks with blockHash := none, minedAtBlockNumber := none, expiredAt := none } = r ↔
      r.Unlinked ∧ r.Unmined ∧ r.expiredAt = none := by
  obtain ⟨⟨⟩, _, _, _, _, _⟩ := r
  simp [dropLinks, Unlinked, Unmined, eq_comm]
  tauto

theorem Row.dropPriced_eq_iff : r.dropLinks.dropPrices = r ↔ r.Unlinked ∧ r.Unpriced := by
  obtain ⟨⟨⟩, _, _, _, _, _⟩ := r
  simp [dropLinks, dropPrices, Unlinked, Unpriced, eq_comm]
  tauto

theorem Row.dropPricedExpiry_eq_iff :
    { r.dropLinks.dropPrices with expiredAt := none } = r ↔
      r.Unlinked ∧ r.Unpriced ∧ r.expiredAt = none := by
  obtain ⟨⟨⟩, _, _, _, _, _⟩ := r
  simp [dropLinks, dropPrices, Unlinked, Unpriced, eq_comm]
  tauto

theorem Row.dropPricedBlock_eq_iff :
    { r.dropLinks.dropPrices with
      blockHash := none, minedAtBlockNumber := none, expiredAt := none } = r ↔
      r.Unlinked ∧ r.Unpriced ∧ r.Unmined ∧ r.expiredAt = none := by
  obtain ⟨⟨⟩, _, _, _, _, _⟩ := r
  simp [dropLinks, dropPrices, Unlinked, Unpriced, Unmined, eq_comm]
  tauto

theorem Row.dropPricedHash_eq_iff (hash : Option TransactionHash) :
    { r.dropLinks.dropPrices with knownTransactionHash := hash, expiredAt := none } = r ↔
      (r.Unlinked ∧ r.Unpriced ∧ r.expiredAt = none) ∧ hash = r.knownTransactionHash := by
  obtain ⟨⟨⟩, _, _, _, _, _⟩ := r
  simp [dropLinks, dropPrices, Unlinked, Unpriced, eq_comm]
  tauto

end Snapshots

namespace Db

variable {db db' : Db} {id : TransactionId} {r : Row}

/-- With one row for each id, the filter on an id is the row. -/
theorem filter_of_row (hkey : db.PrimaryKey) (h : db.row id = some r) :
    db.rows.filter (·.id == id) = [r] := by
  obtain ⟨rows, audit⟩ := db
  change (rows.map (·.id)).Nodup at hkey
  change rows.find? (·.id == id) = some r at h
  show rows.filter (·.id == id) = [r]
  induction rows with
  | nil => cases h
  | cons first rows ih =>
    obtain ⟨hfresh, hkey⟩ := List.nodup_cons.mp hkey
    by_cases hid : first.id = id
    · have hrest : rows.filter (·.id == id) = [] := by
        apply List.filter_eq_nil_iff.mpr
        intro other hother hsame
        apply hfresh
        have heq : other.id = id := by simpa using hsame
        exact List.mem_map.mpr ⟨other, hother, heq.trans hid.symm⟩
      rw [List.find?_cons_of_pos (by simpa using hid)] at h
      rw [List.filter_cons_of_pos (by simpa using hid), hrest, Option.some.inj h]
    · rw [List.find?_cons_of_neg (by simpa using hid)] at h
      rw [List.filter_cons_of_neg (by simpa using hid)]
      exact ih hkey h

theorem faithfulAt_append {audit : List Row} {a : Row} (haudit : db.audit = audit ++ [a])
    (hid : a.id = id) (hrow : db.row id = some r) : db.FaithfulAt id ↔ a = r := by
  have hnewest : (db.audit.filter (·.id == id)).getLast? = some a := by
    rw [haudit, List.filter_append]
    simp [hid]
  unfold FaithfulAt
  rw [hnewest, hrow, Option.some.injEq]

/-- A statement on one row and its snapshot: the log is faithful when the snapshot changes nothing
of the row as written. -/
theorem faithfulAt_updateLog {f g : Row → Row} (hkey : db.PrimaryKey) (hf : ∀ r, (f r).id = r.id)
    (hg : ∀ r, (g r).id = r.id) (hrow : db.row id = some r) :
    ((db.update id f).log id g).FaithfulAt id ↔ g (f r) = f r := by
  have hwritten : (db.update id f).row id = some (f r) := row_update_self db hf hrow
  have hkeys : (db.update id f).PrimaryKey :=
    (update_within (P := fun _ _ => True) (n := 0) trivial hf fun _ => .inr trivial).primaryKey
      hkey
  have haudit : ((db.update id f).log id g).audit = db.audit ++ [g (f r)] := by
    unfold log
    rw [filter_of_row hkeys hwritten]
    rfl
  exact faithfulAt_append haudit (by rw [hg, hf, row_id hrow]) hwritten

theorem insert_row {inserted : Db} (h : db.insert r = some inserted) :
    inserted.row r.id = some r := by
  unfold insert at h
  split at h
  · cases h
  · rename_i hfree
    cases h
    have hnone : db.row r.id = none := by
      simp only [Bool.or_eq_true, not_or, Bool.not_eq_true, Option.isSome_eq_false_iff,
        Option.isNone_iff_eq_none] at hfree
      exact hfree.1
    unfold row at hnone ⊢
    dsimp only
    rw [List.find?_append, hnone]
    simp

/-- An insert that logs the row it inserts. -/
theorem faithfulAt_insert {inserted : Db} (h : db.insert r = some inserted) :
    ({ inserted with audit := inserted.audit ++ [r] } : Db).FaithfulAt r.id := by
  have hinserted := insert_row h
  have hrow : ({ inserted with audit := inserted.audit ++ [r] } : Db).row r.id = some r :=
    hinserted
  exact (faithfulAt_append rfl rfl hrow).mpr rfl

/-- An insert followed by a snapshot of the new row. -/
theorem faithfulAt_insertLog {inserted : Db} {g : Row → Row} (hkey : db.PrimaryKey)
    (hg : ∀ r, (g r).id = r.id) (h : db.insert r = some inserted) :
    (inserted.log r.id g).FaithfulAt r.id ↔ g r = r := by
  have hkeys : inserted.PrimaryKey :=
    (insert_within (P := fun _ _ => True) h trivial).primaryKey hkey
  have haudit : (inserted.log r.id g).audit = inserted.audit ++ [g r] := by
    unfold log
    rw [filter_of_row hkeys (insert_row h)]
    rfl
  have hinserted := insert_row h
  have hrow : (inserted.log r.id g).row r.id = some r := hinserted
  exact faithfulAt_append haudit (hg r) hrow

theorem optionIf_eq_some {α : Type} {condition : Bool} {value result : α}
    (h : optionIf condition value = some result) : condition = true ∧ value = result := by
  unfold optionIf at h
  split at h
  · exact ⟨‹_›, Option.some.inj h⟩
  · cases h

/-- The statements that update a row that is there. -/
theorem faithfulAt_written {f g : Row → Row} {keeps : Row → Prop} (hkey : db.PrimaryKey)
    (hf : ∀ r, (f r).id = r.id) (hg : ∀ r, (g r).id = r.id)
    (hkeeps : ∀ r, g (f r) = f r ↔ keeps r) (hrow : (db.row id).isSome = true) :
    ((db.update id f).log id g).FaithfulAt id ↔ ∀ r, db.row id = some r → keeps r := by
  obtain ⟨r, hrow⟩ := Option.isSome_iff_exists.mp hrow
  rw [faithfulAt_updateLog hkey hf hg hrow, hkeeps, hrow]
  constructor
  · intro hr other hother
    exact Option.some.inj hother ▸ hr
  · intro hall
    exact hall r rfl

theorem faithfulAt_found {f g : Row → Row} {keeps : Row → Prop} (hkey : db.PrimaryKey)
    (h : optionIf (db.row id).isSome ((db.update id f).log id g) = some db')
    (hf : ∀ r, (f r).id = r.id) (hg : ∀ r, (g r).id = r.id)
    (hkeeps : ∀ r, g (f r) = f r ↔ keeps r) :
    db'.FaithfulAt id ↔ ∀ r, db.row id = some r → keeps r := by
  obtain ⟨hrow, rfl⟩ := optionIf_eq_some h
  exact faithfulAt_written hkey hf hg hkeeps hrow

theorem faithfulAt_broadcastAttempt {relayerId : RelayerId} {t : Transaction}
    {hash : TransactionHash} {gas : GasPriceResult} {blobGas : Option BlobGasPriceResult}
    {legacy : Bool} {now : DateTime} (hkey : db.PrimaryKey)
    (h : db.transactionBroadcastAttempt relayerId t hash gas blobGas legacy now = some db') :
    db'.FaithfulAt t.id ↔ ∀ r, db.row t.id = some r → r.requestDigest = none := by
  unfold transactionBroadcastAttempt at h
  dsimp only at h
  rcases Option.eq_none_or_eq_some (db.row t.id) with hrow | ⟨r, hrow⟩
  · rw [hrow] at h
    obtain ⟨inserted, hinsert, rfl⟩ := Option.map_eq_some_iff.mp h
    -- A new row starts without a digest.
    have hnew : (inserted.log t.id fun r => { r with requestDigest := none }).FaithfulAt t.id :=
      (faithfulAt_insertLog (g := fun r => { r with requestDigest := none }) hkey
        (fun _ => rfl) hinsert).mpr rfl
    apply iff_of_true hnew
    intro r hr
    rw [hrow] at hr
    cases hr
  · rw [hrow] at h
    cases h
    refine faithfulAt_written hkey ?_ ?_ ?_ (by rw [hrow]; rfl)
    · intro r
      rfl
    · intro r
      rfl
    · intro r
      exact (r.withAttempt relayerId t hash gas blobGas legacy now).dropDigest_eq_iff

theorem faithfulAt_recover {relayerId : RelayerId} {hash : TransactionHash} {gas : GasPriceResult}
    {blobGas : Option BlobGasPriceResult} {legacy : Bool} {now : DateTime} (hkey : db.PrimaryKey)
    (h : db.write now (.recover relayerId id hash gas blobGas legacy) = some db') :
    db'.FaithfulAt id ↔ ∀ r, db.row id = some r → r.requestDigest = none := by
  obtain ⟨hrecovered, rfl⟩ := optionIf_eq_some h
  revert hrecovered
  unfold recoverLandedTransactionAttempt
  rcases Option.eq_none_or_eq_some (db.row id) with hrow | ⟨r, hrow⟩
  · rw [hrow]
    intro hfalse
    cases hfalse
  · have hsome : (db.row id).isSome = true := by
      rw [hrow]
      rfl
    have hwritten (f : Row → Row) (hf : ∀ r, (f r).id = r.id)
        (hdigest : ∀ r, (f r).requestDigest = r.requestDigest) :
        ((db.update id f).log id fun r => { r with requestDigest := none }).FaithfulAt id ↔
          ∀ r, db.row id = some r → r.requestDigest = none := by
      refine faithfulAt_written hkey hf ?_ ?_ hsome
      · intro r
        rfl
      · intro r
        rw [← hdigest]
        exact Row.dropDigest_eq_iff _
    dsimp only
    split
    · rename_i other hother
      split
      · intro _
        exact hwritten _ (fun _ => rfl) fun _ => rfl
      · intro hfalse
        cases hfalse
    · intro hfalse
      cases hfalse

end Db

/-- The newest audit row is the live row exactly when the columns the snapshot leaves out are
`NULL` there. -/
theorem RowWrite.audit_faithful_iff (db : Db) (hkey : db.PrimaryKey) (now : DateTime)
    (w : RowWrite) (db' : Db) (h : db.write now w = some db') :
    db'.FaithfulAt w.id ↔ w.KeepsColumns db := by
  cases w with
  | save relayerId t =>
    obtain ⟨inserted, hinsert, rfl⟩ := Option.map_eq_some_iff.mp h
    exact iff_of_true (Db.faithfulAt_insert hinsert) trivial
  | failedOnSend relayerId t reason =>
    obtain ⟨inserted, hinsert, rfl⟩ := Option.map_eq_some_iff.mp h
    exact iff_of_true (Db.faithfulAt_insert hinsert) trivial
  | broadcastAttempt relayerId t hash gas blobGas legacy =>
    exact Db.faithfulAt_broadcastAttempt hkey h
  | recover relayerId id hash gas blobGas legacy => exact Db.faithfulAt_recover hkey h
  | sent id hash gas blobGas legacy =>
    exact Db.faithfulAt_found hkey h (fun _ => rfl) (fun _ => rfl) fun _ =>
      Row.dropLinksBlock_eq_iff _
  | update t =>
    exact Db.faithfulAt_found hkey h (fun _ => rfl) (fun _ => rfl) fun _ =>
      Row.dropLinks_eq_iff _
  | updateNonce id nonce =>
    exact Db.faithfulAt_found hkey h (fun _ => rfl) (fun _ => rfl) fun _ =>
      Row.dropPricedExpiry_eq_iff _
  | noop id toAddress speed gasLimit =>
    exact Db.faithfulAt_found hkey h (fun _ => rfl) (fun _ => rfl) fun _ =>
      Row.dropPricedBlock_eq_iff _
  | failed id reason =>
    exact Db.faithfulAt_found hkey h (fun _ => rfl) (fun _ => rfl) fun _ =>
      Row.dropPricedBlock_eq_iff _
  | mined t receipt =>
    exact Db.faithfulAt_found hkey h (fun _ => rfl) (fun _ => rfl) fun _ =>
      Row.dropPricedHash_eq_iff _ t.knownTransactionHash
  | confirmed id =>
    exact Db.faithfulAt_found hkey h (fun _ => rfl) (fun _ => rfl) fun _ =>
      Row.dropPricedExpiry_eq_iff _
  | expired id =>
    exact Db.faithfulAt_found hkey h (fun _ => rfl) (fun _ => rfl) fun _ =>
      Row.dropPriced_eq_iff _

/-- A payment without competitor. -/
def auditedPayment : Transaction where
  id := 1
  relayerId := 1
  toAddress := 5
  fromAddress := 7
  value := 3
  data := []
  nonce := 4
  chainId := 1
  gasLimit := none
  status := .pending
  blobs := none
  knownTransactionHash := none
  queuedAt := 0
  expiresAt := 100
  sentAt := none
  confirmedAt := none
  sentWithGas := none
  sentWithBlobGas := none
  minedAt := none
  minedAtBlockNumber := none
  speed := .fast
  sentWithMaxPriorityFeePerGas := none
  sentWithMaxFeePerGas := none
  isNoop := false
  externalId := none
  cancelledByTransactionId := none
  failedReason := none

def auditedHash : TransactionHash where
  transaction := {
    chainId := 1
    nonce := 4
    gasLimit := 21000
    toAddress := 5
    value := 3
    input := []
    fees := .eip1559 2 30 }
  signature := 7

/-- A row without digest and links, which the sent statement logs as it is. -/
theorem RowWrite.audit_faithful_sent :
    let db : Db := ⟨[Row.blank auditedPayment], []⟩
    let w : RowWrite := .sent 1 auditedHash ⟨2, 30, none, none⟩ none false
    ∃ db', db.write 50 w = some db' ∧ db'.FaithfulAt w.id := by
  intro db w
  refine ⟨_, rfl, ?_⟩
  refine (audit_faithful_iff db (by decide) 50 w _ rfl).mpr ?_
  intro r hr
  obtain rfl : Row.blank auditedPayment = r := Option.some.inj hr
  exact ⟨⟨rfl, rfl⟩, ⟨rfl, rfl⟩, rfl⟩

/-- A transaction that was saved with its digest is sent, and the log has no digest. -/
theorem RowWrite.audit_faithful_fails :
    ¬ ∀ (db : Db), db.PrimaryKey → ∀ (now : DateTime) (w : RowWrite) (db' : Db),
      db.write now w = some db' → db'.FaithfulAt w.id := by
  intro h
  have hsaved := h ((Db.empty.saveTransaction 1 auditedPayment).getD Db.empty) (by decide) 50
    (.sent 1 auditedHash ⟨2, 30, none, none⟩ none false) _ rfl
  revert hsaved
  unfold Db.FaithfulAt
  decide

end Rrelayer
