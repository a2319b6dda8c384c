import Rrelayer.Database

/-! The rows of one relayer in a database shared by many. Ids are drawn so that no two relayers ever
draw the same one: `owner` is the relayer an id belongs to. Every statement of a relayer does to its
own rows what it would do in a database of its own, and leaves the others alone. -/
namespace Rrelayer

variable {owner : TransactionId → RelayerId} {relayerId : RelayerId}

namespace Db

/-- What the table and the log hold of one relayer. -/
def ofRelayer (owner : TransactionId → RelayerId) (relayerId : RelayerId) (db : Db) : Db where
  rows := db.rows.filter fun r => owner r.id == relayerId
  audit := db.audit.filter fun r => owner r.id == relayerId

/-- The relayer a row names is the one its id belongs to. -/
def Owned (owner : TransactionId → RelayerId) (db : Db) : Prop :=
  ∀ r ∈ db.rows, r.relayerId = owner r.id

/-- A change made by one relayer: the rows keep naming their owners, and nothing of the other relayers
changes. -/
structure OwnChange (owner : TransactionId → RelayerId) (relayerId : RelayerId) (db db' : Db) :
    Prop where
  owned : db'.Owned owner
  others : ∀ other, other ≠ relayerId → db'.ofRelayer owner other = db.ofRelayer owner other

variable {db db' db'' : Db} {x : TransactionId}

theorem OwnChange.refl (h : db.Owned owner) : db.OwnChange owner relayerId db := ⟨h, fun _ _ => rfl⟩

theorem OwnChange.trans (h : db.OwnChange owner relayerId db')
    (h' : db'.OwnChange owner relayerId db'') : db.OwnChange owner relayerId db'' :=
  ⟨h'.owned, fun other hne => (h'.others other hne).trans (h.others other hne)⟩

section Selections

/-- A filter that only lets rows of the relayer pass does not see the others. -/
theorem filter_own {rows : List Row} {p : Row → Bool}
    (hp : ∀ r ∈ rows, p r = true → owner r.id = relayerId) :
    (rows.filter fun r => owner r.id == relayerId).filter p = rows.filter p := by
  rw [List.filter_filter]
  apply List.filter_congr
  intro r hr
  by_cases h : p r = true
  · simp [h, hp r hr h]
  · simp [h]

theorem find?_own {rows : List Row} {p : Row → Bool}
    (hp : ∀ r ∈ rows, p r = true → owner r.id = relayerId) :
    (rows.filter fun r => owner r.id == relayerId).find? p = rows.find? p := by
  rw [← List.head?_filter, ← List.head?_filter, filter_own hp]

theorem any_own {rows : List Row} {p : Row → Bool}
    (hp : ∀ r ∈ rows, p r = true → owner r.id = relayerId) :
    (rows.filter fun r => owner r.id == relayerId).any p = rows.any p := by
  rw [Bool.eq_iff_iff, List.any_eq_true, List.any_eq_true]
  constructor
  · rintro ⟨r, hr, h⟩
    exact ⟨r, (List.mem_filter.mp hr).1, h⟩
  · rintro ⟨r, hr, h⟩
    exact ⟨r, List.mem_filter.mpr ⟨hr, by simpa using hp r hr h⟩, h⟩

theorem own_of_id (hx : owner x = relayerId) {r : Row} (h : (r.id == x) = true) :
    owner r.id = relayerId := by
  rw [beq_iff_eq] at h
  rw [h, hx]

theorem row_ofRelayer (hx : owner x = relayerId) :
    (db.ofRelayer owner relayerId).row x = db.row x :=
  find?_own fun _ _ h => own_of_id hx h

/-- The row of a name that is the relayer's. -/
theorem own_of_relayerId (hdb : db.Owned owner) {r : Row} (hr : r ∈ db.rows)
    (h : (r.relayerId == relayerId) = true) : owner r.id = relayerId := by
  rw [beq_iff_eq] at h
  rw [← hdb r hr, h]

theorem externalIdTaken_ofRelayer (hdb : db.Owned owner) (externalId : Option String) :
    (db.ofRelayer owner relayerId).externalIdTaken relayerId externalId =
      db.externalIdTaken relayerId externalId := by
  unfold externalIdTaken ofRelayer
  dsimp only
  rw [any_own]
  intro r hr h
  rw [Bool.and_eq_true] at h
  exact own_of_relayerId hdb hr h.1

theorem attempts_ofRelayer (hx : owner x = relayerId) :
    (db.ofRelayer owner relayerId).getRecordedTransactionAttempts x =
      db.getRecordedTransactionAttempts x := by
  unfold getRecordedTransactionAttempts ofRelayer
  dsimp only
  rw [filter_own fun _ _ h => own_of_id hx h, filter_own fun _ _ h => own_of_id hx h]

theorem byStatus_ofRelayer (hdb : db.Owned owner) (status : TransactionStatus) :
    (db.ofRelayer owner relayerId).getTransactionsByStatusForRelayer relayerId status =
      db.getTransactionsByStatusForRelayer relayerId status := by
  unfold getTransactionsByStatusForRelayer ofRelayer
  dsimp only
  rw [filter_own]
  intro r hr h
  rw [Bool.and_eq_true] at h
  exact own_of_relayerId hdb hr h.1

theorem evidence_ofRelayer (hdb : db.Owned owner) :
    (db.ofRelayer owner relayerId).getPendingTransactionsWithAttemptEvidenceForRelayer relayerId =
      db.getPendingTransactionsWithAttemptEvidenceForRelayer relayerId := by
  unfold getPendingTransactionsWithAttemptEvidenceForRelayer ofRelayer
  dsimp only
  rw [filter_own]
  intro r hr h
  simp only [hasAttemptEvidence, Bool.and_eq_true] at h
  exact own_of_relayerId hdb hr h.1.1.1.1

end Selections

section Statements

/-- A rewrite that keeps the ids is the same rewrite of what belongs to a relayer. -/
theorem filter_map_own {rows : List Row} {g : Row → Row} (hg : ∀ r, (g r).id = r.id) :
    (rows.map g).filter (fun r => owner r.id == relayerId) =
      (rows.filter fun r => owner r.id == relayerId).map g := by
  rw [List.filter_map]
  congr 1
  apply List.filter_congr
  intro r _
  simp [hg r]

theorem ite_id {f : Row → Row} (hf : ∀ r, (f r).id = r.id) (p : Row → Bool) (r : Row) :
    (if p r then f r else r).id = r.id := by
  split
  · exact hf r
  · rfl

theorem update_ofRelayer {f : Row → Row} (hf : ∀ r, (f r).id = r.id) :
    (db.update x f).ofRelayer owner relayerId = (db.ofRelayer owner relayerId).update x f := by
  unfold update ofRelayer
  dsimp only
  rw [filter_map_own fun r => ite_id hf (·.id == x) r]

theorem log_ofRelayer {snapshot : Row → Row} (hid : ∀ r, (snapshot r).id = r.id) :
    (db.log x snapshot).ofRelayer owner relayerId =
      (db.ofRelayer owner relayerId).log x snapshot := by
  unfold log ofRelayer
  dsimp only
  rw [List.filter_append, filter_map_own hid, List.filter_filter, List.filter_filter]
  congr 3
  apply List.filter_congr
  intro r _
  exact Bool.and_comm _ _

/-- An update of a row of somebody else does nothing to what belongs to a relayer. -/
theorem update_other {f : Row → Row} (hf : ∀ r, (f r).id = r.id) (hx : owner x ≠ relayerId) :
    (db.update x f).ofRelayer owner relayerId = db.ofRelayer owner relayerId := by
  rw [update_ofRelayer hf]
  unfold update ofRelayer
  congr 1
  conv_rhs => rw [← List.map_id (db.rows.filter fun r => owner r.id == relayerId)]
  apply List.map_congr_left
  intro r hr
  have hown : owner r.id = relayerId := by simpa using (List.mem_filter.mp hr).2
  have hne : (r.id == x) = false := by
    rw [beq_eq_false_iff_ne]
    rintro rfl
    exact hx hown
  rw [hne]
  rfl

theorem log_other {snapshot : Row → Row} (hid : ∀ r, (snapshot r).id = r.id)
    (hx : owner x ≠ relayerId) :
    (db.log x snapshot).ofRelayer owner relayerId = db.ofRelayer owner relayerId := by
  rw [log_ofRelayer hid]
  unfold log ofRelayer
  have hnone : (db.rows.filter fun r => owner r.id == relayerId).filter (fun r => r.id == x) =
      [] := by
    rw [List.filter_filter, List.filter_eq_nil_iff]
    intro r _ h
    rw [Bool.and_eq_true, beq_iff_eq, beq_iff_eq] at h
    exact hx (h.1 ▸ h.2)
  dsimp only
  rw [hnone, List.map_nil, List.append_nil]

/-- The shape of every statement on one row. -/
theorem updateLog_change (hdb : db.Owned owner) (hx : owner x = relayerId) {f snapshot : Row → Row}
    (hf : ∀ r, (f r).id = r.id)
    (hrelayer : ∀ r, r.relayerId = relayerId → (f r).relayerId = relayerId)
    (hsnapshot : ∀ r, (snapshot r).id = r.id) :
    db.OwnChange owner relayerId ((db.update x f).log x snapshot) where
  owned r' hr' := by
    obtain ⟨r, hr, rfl⟩ := List.mem_map.mp hr'
    by_cases hsame : (r.id == x) = true
    · rw [if_pos hsame, hf r, own_of_id hx hsame]
      exact hrelayer r ((hdb r hr).trans (own_of_id hx hsame))
    · rw [if_neg hsame]
      exact hdb r hr
  others other hne := by
    have hother : owner x ≠ other := fun h => hne (h.symm.trans hx)
    rw [log_other hsnapshot hother, update_other hf hother]

theorem updateLog_ofRelayer {f snapshot : Row → Row} (hf : ∀ r, (f r).id = r.id)
    (hsnapshot : ∀ r, (snapshot r).id = r.id) :
    ((db.ofRelayer owner relayerId).update x f).log x snapshot =
      ((db.update x f).log x snapshot).ofRelayer owner relayerId := by
  rw [log_ofRelayer hsnapshot, update_ofRelayer hf]

section RewriteWhere

variable {p : Row → Bool} {f g : Row → Row}

/-- A rewrite of a selection of rows, logged, when the selection is the relayer's. -/
theorem rewriteWhere_ofRelayer (hp : ∀ r ∈ db.rows, p r = true → owner r.id = relayerId)
    (hf : ∀ r, (f r).id = r.id) (hg : ∀ r, (g r).id = r.id) :
    (⟨(db.ofRelayer owner relayerId).rows.map fun r => if p r then f r else r,
      (db.ofRelayer owner relayerId).audit ++
        ((db.ofRelayer owner relayerId).rows.filter p).map g⟩ : Db) =
      (⟨db.rows.map fun r => if p r then f r else r,
        db.audit ++ (db.rows.filter p).map g⟩ : Db).ofRelayer owner relayerId := by
  have hkept : ((db.rows.filter p).filter fun r => owner r.id == relayerId) = db.rows.filter p := by
    rw [List.filter_eq_self]
    intro r hr
    obtain ⟨hr, hpr⟩ := List.mem_filter.mp hr
    simpa using hp r hr hpr
  unfold ofRelayer
  dsimp only
  rw [filter_own hp, filter_map_own (ite_id hf p), List.filter_append, filter_map_own hg, hkept]

/-- Nobody else sees it. -/
theorem rewriteWhere_other (hp : ∀ r ∈ db.rows, p r = true → owner r.id ≠ relayerId)
    (hf : ∀ r, (f r).id = r.id) (hg : ∀ r, (g r).id = r.id) :
    (⟨db.rows.map fun r => if p r then f r else r,
      db.audit ++ (db.rows.filter p).map g⟩ : Db).ofRelayer owner relayerId =
      db.ofRelayer owner relayerId := by
  have hnone : ((db.rows.filter p).filter fun r => owner r.id == relayerId) = [] := by
    rw [List.filter_eq_nil_iff]
    intro r hr h
    obtain ⟨hr, hpr⟩ := List.mem_filter.mp hr
    exact hp r hr hpr (by simpa using h)
  have hsame : ((db.rows.filter fun r => owner r.id == relayerId).map fun r =>
      if p r then f r else r) = db.rows.filter fun r => owner r.id == relayerId := by
    conv_rhs => rw [← List.map_id (db.rows.filter fun r => owner r.id == relayerId)]
    apply List.map_congr_left
    intro r hr
    obtain ⟨hr, hown⟩ := List.mem_filter.mp hr
    have hnot : ¬ p r = true := fun h => hp r hr h (by simpa using hown)
    rw [if_neg hnot]
    rfl
  unfold ofRelayer
  dsimp only
  rw [filter_map_own (ite_id hf p), hsame, List.filter_append, filter_map_own hg, hnone,
    List.map_nil, List.append_nil]

end RewriteWhere

theorem insert_ofRelayer (hdb : db.Owned owner) {r : Row} (hid : owner r.id = relayerId)
    (hrelayer : r.relayerId = relayerId) :
    (db.ofRelayer owner relayerId).insert r = (db.insert r).map (ofRelayer owner relayerId) := by
  unfold insert
  rw [row_ofRelayer hid, hrelayer, externalIdTaken_ofRelayer hdb]
  split
  · rfl
  · simp [ofRelayer, hid]

/-- An insert and what is written after it. -/
theorem insertThen_ofRelayer (hdb : db.Owned owner) {r : Row} (hid : owner r.id = relayerId)
    (hrelayer : r.relayerId = relayerId) {g : Db → Db}
    (hg : ∀ db : Db, g (db.ofRelayer owner relayerId) = (g db).ofRelayer owner relayerId) :
    ((db.ofRelayer owner relayerId).insert r).map g =
      ((db.insert r).map g).map (ofRelayer owner relayerId) := by
  rw [insert_ofRelayer hdb hid hrelayer, Option.map_map, Option.map_map]
  congr 1
  funext db'
  exact hg db'

theorem insert_change (hdb : db.Owned owner) {r : Row} (hid : owner r.id = relayerId)
    (hrelayer : r.relayerId = relayerId) (h : db.insert r = some db') :
    db.OwnChange owner relayerId db' := by
  unfold insert at h
  split at h
  · cases h
  · cases h
    constructor
    · intro r' hr'
      rcases List.mem_append.mp hr' with hr' | hr'
      · exact hdb r' hr'
      · rw [List.mem_singleton.mp hr', hrelayer, hid]
    · intro other hne
      have hother : (owner r.id == other) = false := by
        rw [beq_eq_false_iff_ne]
        exact fun h => hne (h.symm.trans hid)
      simp [ofRelayer, hother]

/-- A log entry of a new row. -/
theorem append_audit_ofRelayer {r : Row} (hid : owner r.id = relayerId) :
    ({ db with audit := db.audit ++ [r] } : Db).ofRelayer owner relayerId =
      { db.ofRelayer owner relayerId with
        audit := (db.ofRelayer owner relayerId).audit ++ [r] } := by
  simp [ofRelayer, hid]

theorem append_audit_change (hdb : db.Owned owner) {r : Row} (hid : owner r.id = relayerId) :
    db.OwnChange owner relayerId { db with audit := db.audit ++ [r] } := by
  refine ⟨hdb, fun other hne => ?_⟩
  have hother : (owner r.id == other) = false := by
    rw [beq_eq_false_iff_ne]
    exact fun h => hne (h.symm.trans hid)
  simp [ofRelayer, hother]

end Statements

section Own

variable {t : Transaction}

theorem transactionSent_ofRelayer (db : Db) (x : TransactionId) (hash : TransactionHash)
    (gas : GasPriceResult) (blobGas : Option BlobGasPriceResult) (legacy : Bool) (now : DateTime) :
    (db.ofRelayer owner relayerId).transactionSent x hash gas blobGas legacy now =
      (db.transactionSent x hash gas blobGas legacy now).ofRelayer owner relayerId :=
  updateLog_ofRelayer (fun _ => rfl) fun _ => rfl

theorem transactionSent_change (hdb : db.Owned owner) (hx : owner x = relayerId)
    (hash : TransactionHash) (gas : GasPriceResult) (blobGas : Option BlobGasPriceResult)
    (legacy : Bool) (now : DateTime) : db.OwnChange owner relayerId
      (db.transactionSent x hash gas blobGas legacy now) :=
  updateLog_change hdb hx (fun _ => rfl) (fun _ h => h) fun _ => rfl

theorem updateTransactionFailed_ofRelayer (db : Db) (x : TransactionId) (reason : String)
    (now : DateTime) : (db.ofRelayer owner relayerId).updateTransactionFailed x reason now =
      (db.updateTransactionFailed x reason now).ofRelayer owner relayerId :=
  updateLog_ofRelayer (fun _ => rfl) fun _ => rfl

theorem updateTransactionFailed_change (hdb : db.Owned owner) (hx : owner x = relayerId)
    (reason : String) (now : DateTime) : db.OwnChange owner relayerId
      (db.updateTransactionFailed x reason now) :=
  updateLog_change hdb hx (fun _ => rfl) (fun _ h => h) fun _ => rfl

theorem transactionMined_ofRelayer (db : Db) (t : Transaction) (receipt : Receipt)
    (now : DateTime) : (db.ofRelayer owner relayerId).transactionMined t receipt now =
      (db.transactionMined t receipt now).ofRelayer owner relayerId :=
  updateLog_ofRelayer (fun _ => rfl) fun _ => rfl

theorem transactionMined_change (hdb : db.Owned owner) (ht : owner t.id = relayerId)
    (receipt : Receipt) (now : DateTime) : db.OwnChange owner relayerId
      (db.transactionMined t receipt now) :=
  updateLog_change hdb ht (fun _ => rfl) (fun _ h => h) fun _ => rfl

theorem transactionConfirmed_ofRelayer (db : Db) (x : TransactionId) (now : DateTime) :
    (db.ofRelayer owner relayerId).transactionConfirmed x now =
      (db.transactionConfirmed x now).ofRelayer owner relayerId :=
  updateLog_ofRelayer (fun _ => rfl) fun _ => rfl

theorem transactionConfirmed_change (hdb : db.Owned owner) (hx : owner x = relayerId)
    (now : DateTime) : db.OwnChange owner relayerId (db.transactionConfirmed x now) :=
  updateLog_change hdb hx (fun _ => rfl) (fun _ h => h) fun _ => rfl

theorem transactionUpdateNonce_ofRelayer (db : Db) (x : TransactionId) (nonce : ℕ) :
    (db.ofRelayer owner relayerId).transactionUpdateNonce x nonce =
      (db.transactionUpdateNonce x nonce).ofRelayer owner relayerId :=
  updateLog_ofRelayer (fun _ => rfl) fun _ => rfl

theorem transactionUpdateNonce_change (hdb : db.Owned owner) (hx : owner x = relayerId)
    (nonce : ℕ) : db.OwnChange owner relayerId (db.transactionUpdateNonce x nonce) :=
  updateLog_change hdb hx (fun _ => rfl) (fun _ h => h) fun _ => rfl

theorem transactionExpired_ofRelayer (db : Db) (x : TransactionId) (now : DateTime) :
    (db.ofRelayer owner relayerId).transactionExpired x now =
      (db.transactionExpired x now).ofRelayer owner relayerId :=
  updateLog_ofRelayer (fun _ => rfl) fun _ => rfl

theorem transactionExpired_change (hdb : db.Owned owner) (hx : owner x = relayerId)
    (now : DateTime) : db.OwnChange owner relayerId (db.transactionExpired x now) :=
  updateLog_change hdb hx (fun _ => rfl) (fun _ h => h) fun _ => rfl

theorem transactionUpdate_ofRelayer (db : Db) (t : Transaction) (now : DateTime) :
    (db.ofRelayer owner relayerId).transactionUpdate t now =
      (db.transactionUpdate t now).ofRelayer owner relayerId :=
  updateLog_ofRelayer (fun _ => rfl) fun _ => rfl

/-- The one statement that writes the relayer of a row anew. -/
theorem transactionUpdate_change (hdb : db.Owned owner) (ht : owner t.id = relayerId)
    (hrelayer : t.relayerId = relayerId) (now : DateTime) :
    db.OwnChange owner relayerId (db.transactionUpdate t now) :=
  updateLog_change hdb ht (fun _ => rfl) (fun _ _ => hrelayer) fun _ => rfl

theorem transactionBroadcastAttempt_ofRelayer (hdb : db.Owned owner) (ht : owner t.id = relayerId)
    (hash : TransactionHash) (gas : GasPriceResult) (blobGas : Option BlobGasPriceResult)
    (legacy : Bool) (now : DateTime) :
    (db.ofRelayer owner relayerId).transactionBroadcastAttempt relayerId t hash gas blobGas legacy
        now =
      (db.transactionBroadcastAttempt relayerId t hash gas blobGas legacy now).map
        (ofRelayer owner relayerId) := by
  unfold transactionBroadcastAttempt
  dsimp only
  rw [row_ofRelayer ht]
  split
  · exact congrArg some (updateLog_ofRelayer (fun _ => rfl) fun _ => rfl)
  · apply insertThen_ofRelayer hdb ht rfl
    intro db'
    symm
    exact log_ofRelayer fun _ => rfl

theorem transactionBroadcastAttempt_change (hdb : db.Owned owner) (ht : owner t.id = relayerId)
    {hash : TransactionHash} {gas : GasPriceResult} {blobGas : Option BlobGasPriceResult}
    {legacy : Bool} {now : DateTime}
    (h : db.transactionBroadcastAttempt relayerId t hash gas blobGas legacy now = some db') :
    db.OwnChange owner relayerId db' := by
  unfold transactionBroadcastAttempt at h
  dsimp only at h
  split at h
  · cases h
    exact updateLog_change hdb ht (fun _ => rfl) (fun _ _ => rfl) fun _ => rfl
  · obtain ⟨db₁, hinsert, rfl⟩ := Option.map_eq_some_iff.mp h
    have hchange := insert_change hdb ht rfl hinsert
    refine hchange.trans ⟨hchange.owned, fun other hne => ?_⟩
    exact log_other (fun _ => rfl) fun h => hne (h.symm.trans ht)

theorem saveTransaction_ofRelayer (hdb : db.Owned owner) (ht : owner t.id = relayerId) :
    (db.ofRelayer owner relayerId).saveTransaction relayerId t =
      (db.saveTransaction relayerId t).map (ofRelayer owner relayerId) := by
  unfold saveTransaction
  apply insertThen_ofRelayer hdb ht rfl
  intro db'
  rw [append_audit_ofRelayer ht]

theorem saveTransaction_change (hdb : db.Owned owner) (ht : owner t.id = relayerId)
    (h : db.saveTransaction relayerId t = some db') : db.OwnChange owner relayerId db' := by
  obtain ⟨db₁, hinsert, rfl⟩ := Option.map_eq_some_iff.mp h
  have hchange := insert_change hdb ht rfl hinsert
  exact hchange.trans (append_audit_change hchange.owned ht)

theorem transactionFailedOnSend_ofRelayer (hdb : db.Owned owner) (ht : owner t.id = relayerId)
    (reason : String) (now : DateTime) :
    (db.ofRelayer owner relayerId).transactionFailedOnSend relayerId t reason now =
      (db.transactionFailedOnSend relayerId t reason now).map (ofRelayer owner relayerId) := by
  unfold transactionFailedOnSend
  apply insertThen_ofRelayer hdb ht rfl
  intro db'
  rw [append_audit_ofRelayer ht]

theorem transactionFailedOnSend_change (hdb : db.Owned owner) (ht : owner t.id = relayerId)
    {reason : String} {now : DateTime}
    (h : db.transactionFailedOnSend relayerId t reason now = some db') :
    db.OwnChange owner relayerId db' := by
  obtain ⟨db₁, hinsert, rfl⟩ := Option.map_eq_some_iff.mp h
  have hchange := insert_change hdb ht rfl hinsert
  exact hchange.trans (append_audit_change hchange.owned ht)

theorem recoverLanded_ofRelayer (hx : owner x = relayerId) (hash : TransactionHash)
    (gas : GasPriceResult) (blobGas : Option BlobGasPriceResult) (legacy : Bool) (now : DateTime) :
    (db.ofRelayer owner relayerId).recoverLandedTransactionAttempt relayerId x hash gas blobGas
        legacy now =
      ((db.recoverLandedTransactionAttempt relayerId x hash gas blobGas legacy now).1,
        (db.recoverLandedTransactionAttempt relayerId x hash gas blobGas legacy now).2.ofRelayer
          owner relayerId) := by
  have hrecorded : ((db.ofRelayer owner relayerId).audit.any fun a =>
      a.id == x && a.knownTransactionHash == some hash && a.sentAt.isSome) =
        db.audit.any fun a => a.id == x && a.knownTransactionHash == some hash && a.sentAt.isSome := by
    apply any_own
    intro r _ h
    simp only [Bool.and_eq_true] at h
    exact own_of_id hx h.1.1
  unfold recoverLandedTransactionAttempt
  dsimp only
  rw [row_ofRelayer hx, hrecorded]
  split
  · split
    · exact Prod.ext rfl (updateLog_ofRelayer (fun _ => rfl) fun _ => rfl)
    · rfl
  · rfl

theorem recoverLanded_change (hdb : db.Owned owner) (hx : owner x = relayerId)
    {hash : TransactionHash} {gas : GasPriceResult} {blobGas : Option BlobGasPriceResult}
    {legacy : Bool} {now : DateTime} : db.OwnChange owner relayerId
      (db.recoverLandedTransactionAttempt relayerId x hash gas blobGas legacy now).2 := by
  unfold recoverLandedTransactionAttempt
  dsimp only
  split
  · split
    · exact updateLog_change hdb hx (fun _ => rfl) (fun _ h => h) fun _ => rfl
    · exact .refl hdb
  · exact .refl hdb

theorem poisoned_own (hdb : db.Owned owner) {r : Row} (hr : r ∈ db.rows)
    (h : poisoned relayerId r = true) : owner r.id = relayerId := by
  simp only [poisoned, Bool.and_eq_true] at h
  exact own_of_relayerId hdb hr h.1.1.1.1

theorem repairPoisoned_ofRelayer (hdb : db.Owned owner) :
    (db.ofRelayer owner relayerId).repairPoisonedPendingTransactionsForRelayer relayerId =
      (db.repairPoisonedPendingTransactionsForRelayer relayerId).ofRelayer owner relayerId :=
  rewriteWhere_ofRelayer (fun _ hr h => poisoned_own hdb hr h) (fun _ => rfl) fun _ => rfl

theorem repairPoisoned_change (hdb : db.Owned owner) : db.OwnChange owner relayerId
    (db.repairPoisonedPendingTransactionsForRelayer relayerId) where
  owned r' hr' := by
    obtain ⟨r, hr, rfl⟩ := List.mem_map.mp hr'
    split
    · exact hdb r hr
    · exact hdb r hr
  others other hne := by
    refine rewriteWhere_other (fun r hr h hother => hne ?_) (fun _ => rfl) fun _ => rfl
    exact hother.symm.trans (poisoned_own hdb hr h)

theorem repairAbsentOne_ofRelayer {entry : TransactionId × List TransactionHash}
    (hx : owner entry.1 = relayerId) (chainNonce : ℕ) (reason : String) (now : DateTime) :
    repairAbsentOne relayerId chainNonce reason now (db.ofRelayer owner relayerId) entry =
      (repairAbsentOne relayerId chainNonce reason now db entry).ofRelayer owner relayerId := by
  unfold repairAbsentOne
  dsimp only
  rw [row_ofRelayer hx]
  split
  · rename_i r hrow
    have hid : r.id = entry.1 := by simpa using List.find?_some hrow
    have hguard : absentGuard (db.ofRelayer owner relayerId) relayerId chainNonce entry.2 r =
        absentGuard db relayerId chainNonce entry.2 r := by
      have hall : ((db.ofRelayer owner relayerId).audit.all fun a =>
          !(a.id == r.id && a.sentAt.isSome && a.knownTransactionHash.any (!entry.2.contains ·))) =
          db.audit.all fun a =>
            !(a.id == r.id && a.sentAt.isSome && a.knownTransactionHash.any (!entry.2.contains ·)) := by
        rw [List.all_eq_not_any_not, List.all_eq_not_any_not]
        congr 1
        apply any_own
        intro a _ h
        simp only [Bool.not_not, Bool.and_eq_true] at h
        exact own_of_id (hid ▸ hx) h.1.1
      unfold absentGuard
      rw [hall]
    rw [hguard]
    split
    · exact updateLog_ofRelayer (fun _ => rfl) fun _ => rfl
    · rfl
  · rfl

theorem repairAbsentOne_change (hdb : db.Owned owner)
    {entry : TransactionId × List TransactionHash} (hx : owner entry.1 = relayerId)
    (chainNonce : ℕ) (reason : String) (now : DateTime) : db.OwnChange owner relayerId
      (repairAbsentOne relayerId chainNonce reason now db entry) := by
  unfold repairAbsentOne
  dsimp only
  split
  · split
    · exact updateLog_change hdb hx (fun _ => rfl) (fun _ h => h) fun _ => rfl
    · exact .refl hdb
  · exact .refl hdb

theorem repairAbsent_ofRelayer {absent : List (TransactionId × List TransactionHash)}
    (habsent : ∀ entry ∈ absent, owner entry.1 = relayerId) (chainNonce : ℕ) (reason : String)
    (now : DateTime) (db : Db) :
    (db.ofRelayer owner relayerId).repairAbsentPendingTransactionsForRelayer relayerId chainNonce
        absent reason now =
      (db.repairAbsentPendingTransactionsForRelayer relayerId chainNonce absent reason now).ofRelayer
        owner relayerId := by
  unfold repairAbsentPendingTransactionsForRelayer
  induction absent generalizing db with
  | nil => rfl
  | cons entry absent ih =>
    rw [List.foldl_cons, List.foldl_cons, repairAbsentOne_ofRelayer (habsent entry (by simp))]
    exact ih (fun e he => habsent e (List.mem_cons_of_mem _ he)) _

theorem repairAbsent_change {absent : List (TransactionId × List TransactionHash)}
    (habsent : ∀ entry ∈ absent, owner entry.1 = relayerId) (hdb : db.Owned owner)
    (chainNonce : ℕ) (reason : String) (now : DateTime) : db.OwnChange owner relayerId
      (db.repairAbsentPendingTransactionsForRelayer relayerId chainNonce absent reason now) := by
  unfold repairAbsentPendingTransactionsForRelayer
  induction absent generalizing db with
  | nil => exact .refl hdb
  | cons entry absent ih =>
    have hfirst := repairAbsentOne_change hdb (habsent entry (by simp)) chainNonce reason now
    exact hfirst.trans (ih (fun e he => habsent e (List.mem_cons_of_mem _ he)) hfirst.owned)

end Own

end Db
end Rrelayer
