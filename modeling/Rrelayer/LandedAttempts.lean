import Rrelayer.PendingReassignment

/-! Which attempt a recovery records. Both recoveries take the first recorded attempt that some
provider knows, which need not be the one that is included. -/
namespace Rrelayer

namespace Db

theorem row_id {db : Db} {x : TransactionId} {r : Row} (h : db.row x = some r) : r.id = x := by
  simpa using List.find?_some h

/-- A statement on one row changes that row and no other. -/
theorem row_update (db : Db) (y : TransactionId) {f : Row → Row} (hid : ∀ r, (f r).id = r.id)
    (x : TransactionId) :
    (db.update y f).row x = (db.row x).map fun r => if r.id == y then f r else r := by
  unfold row update
  rw [List.find?_map]
  congr 1
  refine congrArg (fun p => db.rows.find? p) (funext fun r => ?_)
  show ((if r.id == y then f r else r).id == x) = (r.id == x)
  split
  · rw [hid]
  · rfl

theorem row_log (db : Db) (y : TransactionId) (g : Row → Row) (x : TransactionId) :
    (db.log y g).row x = db.row x := rfl

theorem row_update_self (db : Db) {x : TransactionId} {f : Row → Row} (hid : ∀ r, (f r).id = r.id)
    {r : Row} (h : db.row x = some r) : (db.update x f).row x = some (f r) := by
  rw [row_update db x hid, h]
  simp [row_id h]

/-- The row of `id` records the attempt as the one in the mempool. -/
def RowAdopts (db : Db) (id : TransactionId) (a : RecordedTransactionAttempt) : Prop :=
  ∀ r ∈ db.row id, r.status = .inmempool ∧ r.knownTransactionHash = some a.hash ∧
    r.sentWithGas = a.sentWithGas.bind GasPriceResult.stored

theorem transactionSent_adopts {db : Db} {id : TransactionId} {a : RecordedTransactionAttempt}
    {gas : GasPriceResult} {legacy : Bool} {now : DateTime} (hgas : a.sentWithGas = some gas) :
    (db.transactionSent id a.hash gas a.sentWithBlobGas legacy now).RowAdopts id a := by
  intro r hr
  unfold transactionSent at hr
  rw [row_log, row_update] at hr
  · obtain ⟨r₀, hr₀, rfl⟩ := Option.map_eq_some_iff.mp hr
    rw [if_pos (by simpa using row_id hr₀), hgas]
    exact ⟨rfl, rfl, rfl⟩
  · intro r
    rfl

/-- A served recovery found a pending, unfailed row; a refused one leaves everything alone. -/
theorem recoverLanded_spec (db : Db) (relayerId : RelayerId) (id : TransactionId)
    {a : RecordedTransactionAttempt} {gas : GasPriceResult} (legacy : Bool) (now : DateTime)
    (hgas : a.sentWithGas = some gas) :
    db.recoverLandedTransactionAttempt relayerId id a.hash gas a.sentWithBlobGas legacy now =
        (false, db) ∨
      ∃ db' r r', db.recoverLandedTransactionAttempt relayerId id a.hash gas a.sentWithBlobGas
          legacy now = (true, db') ∧ db.row id = some r ∧ r.status = .pending ∧
        r.failedAt = none ∧ db'.row id = some r' ∧ db'.RowAdopts id a := by
  unfold recoverLandedTransactionAttempt
  dsimp only
  split
  · rename_i r hr
    split
    · rename_i hguard
      simp only [Bool.and_eq_true, beq_iff_eq, Option.isNone_iff_eq_none] at hguard
      obtain ⟨⟨⟨-, hstatus⟩, hfailed⟩, -⟩ := hguard
      refine .inr ⟨_, r, _, rfl, hr, hstatus, hfailed, row_update_self db (by intro; rfl) hr, ?_⟩
      intro r' hr'
      rw [row_log, row_update_self db _ hr] at hr'
      · obtain rfl := Option.some.inj hr'
        rw [hgas]
        exact ⟨rfl, rfl, rfl⟩
      · intro r
        rfl
    · exact .inl rfl
  · exact .inl rfl

end Db

/-- Some provider knows the transaction. -/
def Known (clients : List RpcClient) (hash : TransactionHash) : Prop :=
  ∃ c ∈ clients, c.getTransactionByHash hash = .ok true

/-- The first recorded attempt that some provider knows, in the order of the record. -/
def firstKnown (clients : List RpcClient) (attempts : List RecordedTransactionAttempt) :
    Option RecordedTransactionAttempt :=
  attempts.find? fun a => isKnown (transactionExistsAcrossClients clients a.hash)

/-- Every lookup is answered, by a provider that knows the attempt or by all that do not. -/
def Answered (clients : List RpcClient) (attempts : List RecordedTransactionAttempt) : Prop :=
  ∀ a ∈ attempts, ∃ r, transactionExistsAcrossClients clients a.hash = .ok r

theorem findLandedAttempt_some {clients : List RpcClient}
    {attempts : List RecordedTransactionAttempt} {a : RecordedTransactionAttempt} :
    findLandedAttempt clients attempts = .ok (some a) ↔
      Answered clients attempts ∧ firstKnown clients attempts = some a := findLandedLoop_found

/-- A found attempt is recorded and known to a provider. -/
theorem landed_found {clients : List RpcClient} {attempts : List RecordedTransactionAttempt}
    {a : RecordedTransactionAttempt} (h : findLandedAttempt clients attempts = .ok (some a)) :
    a ∈ attempts ∧ Known clients a.hash := by
  have hfirst := (findLandedAttempt_some.mp h).2
  have hfound := @List.find?_some _
    (fun b : RecordedTransactionAttempt =>
      isKnown (transactionExistsAcrossClients clients b.hash)) a attempts hfirst
  refine ⟨List.mem_of_find?_eq_some hfirst, transactionExists_true.mp ?_⟩
  unfold isKnown at hfound
  split at hfound
  · rename_i found hlookup
    rw [hlookup, hfound]
  · cases hfound

/-- A search that some attempt cannot miss fails at a lookup or finds the first known attempt. -/
theorem findLandedAttempt_known {clients : List RpcClient}
    {attempts : List RecordedTransactionAttempt} (h : ∃ a ∈ attempts, Known clients a.hash) :
    (∃ e, findLandedAttempt clients attempts = .error e ∧
        ∀ a, Answered clients attempts → firstKnown clients attempts ≠ some a) ∨
      ∃ a, findLandedAttempt clients attempts = .ok (some a) ∧ Answered clients attempts ∧
        firstKnown clients attempts = some a := by
  rcases hfind : findLandedAttempt clients attempts with e | _ | a
  · refine .inl ⟨e, rfl, ?_⟩
    intro a hanswered hfirst
    rw [findLandedAttempt_some.mpr ⟨hanswered, hfirst⟩] at hfind
    cases hfind
  · obtain ⟨a, ha, hknown⟩ := h
    have hfalse := findLandedLoop_none.mp hfind a ha
    rw [transactionExists_true.mpr hknown] at hfalse
    cases hfalse
  · exact .inr ⟨a, rfl, findLandedAttempt_some.mp hfind⟩

namespace Locked

section Pending

variable {l l₁ : Locked} {env : PendingEnv} {t head : Transaction} {ts : List Transaction}

/-- The pass over `l` sends its head and the node refuses it over its nonce; `t` is the working
copy and `l₁` the queue after the send. -/
def RefusedSend (l : Locked) (env : PendingEnv) (t : Transaction) (l₁ : Locked) (error : String) :
    Prop :=
  ∃ head, l.pendingHead env = some head ∧
    l.send env.send (l.pendingCopy env head) = (t, l₁, .error (.transactionSendError error)) ∧
      errorClass error = .nonceConflict

theorem RefusedSend.processSinglePending {error : String} (h : RefusedSend l env t l₁ error) :
    (l.processSinglePending env).1 = (l₁.pendingNonceConflict env t error).1 ∧
      ∃ head ts, l₁.queue.pendingTransactions = head :: ts ∧ t.id = head.id := by
  obtain ⟨head, hhead, hsend, hclass⟩ := h
  unfold pendingHead at hhead
  split at hhead
  · cases hhead
  · rename_i hheld
    have hheld : l.queue.relayer.paused = false ∧ env.guard = true := by simpa using hheld
    obtain ⟨ts, hpending⟩ := TransactionsQueue.getNextPending_some hhead
    have hspec := send_spec l env.send (l.pendingCopy env head)
    rw [hsend] at hspec
    refine ⟨?_, head, ts, ?_, hspec.id.trans (pendingCopy_slot l env head).1⟩
    · unfold Locked.processSinglePending
      simp only [hheld.1, hheld.2, hhead, hsend, Bool.not_true, Bool.false_eq_true, if_false]
      unfold pendingFailed
      dsimp only
      rw [hclass]
    · have hqueue : l₁.queue = l.queue := hspec.queue
      rw [hqueue]
      exact hpending

/-- The queue has moved `t` to the mempool under the attempt, and the row says so. -/
def Adopts (l : Locked) (t : Transaction) (a : RecordedTransactionAttempt) : Prop :=
  (∃ c ∈ l.queue.inmempoolTransactions.getLast?, c.original.id = t.id ∧
    c.original.knownTransactionHash = some a.hash ∧ c.original.sentWithGas = a.sentWithGas) ∧
  l.db.RowAdopts t.id a

theorem moveSent_adopts {a : RecordedTransactionAttempt} {gas : GasPriceResult}
    {result : ProcessResult ProcessPendingStatus}
    (hpending : l.queue.pendingTransactions = head :: ts) (hid : t.id = head.id)
    (hgas : a.sentWithGas = some gas) (hrow : l.db.RowAdopts t.id a) :
    (l.moveSent env t (attemptSent t a gas) result).1.Adopts t a ∧
      (l.moveSent env t (attemptSent t a gas) result).1.queue.pendingTransactions = ts := by
  have hmove : l.queue.movePendingToInmempool t (attemptSent t a gas) env.nowMoved =
      .ok { l.queue with
        pendingTransactions := ts
        inmempoolTransactions := l.queue.inmempoolTransactions ++
          [.new (TransactionsQueue.sentTransaction t (attemptSent t a gas) env.nowMoved)] } := by
    simp [TransactionsQueue.movePendingToInmempool, hpending, attemptSent, hid]
  unfold moveSent
  rw [hmove]
  exact ⟨⟨⟨_, List.getLast?_concat, rfl, rfl, hgas.symm⟩, hrow⟩, rfl⟩

/-- The recovery of a refused send writes the attempt: the record is read, every lookup is
answered, the attempt is the first known one, and nothing stops the recovery. -/
structure WritesAttempt (l : Locked) (env : PendingEnv) (id : TransactionId)
    (a : RecordedTransactionAttempt) : Prop where
  loaded : env.loadAttempts = true
  answered : Rrelayer.Answered env.clients (l.db.getRecordedTransactionAttempts id)
  first : firstKnown env.clients (l.db.getRecordedTransactionAttempts id) = some a
  adopts : l.adoptsAttempt env id a = true

/-- A recovery that some provider's answer triggers either changes nothing or adopts the first
known attempt. -/
theorem pendingNonceConflict_known {error : String}
    (hpending : l.queue.pendingTransactions = head :: ts) (hid : t.id = head.id)
    (hknown : ∃ a ∈ l.db.getRecordedTransactionAttempts t.id, Known env.clients a.hash) :
    ((l.pendingNonceConflict env t error).1 = l ∧ ∀ a, ¬ l.WritesAttempt env t.id a) ∨
      ∃ a, l.WritesAttempt env t.id a ∧ (l.pendingNonceConflict env t error).1.Adopts t a ∧
        (l.pendingNonceConflict env t error).1.queue.pendingTransactions = ts := by
  have hnonempty : (l.db.getRecordedTransactionAttempts t.id).isEmpty = false := by
    obtain ⟨a, ha, -⟩ := hknown
    exact List.isEmpty_eq_false_iff.mpr (List.ne_nil_of_mem ha)
  unfold pendingNonceConflict
  dsimp only
  by_cases hload : env.loadAttempts = true
  · simp only [hload, hnonempty, Bool.not_true, Bool.false_eq_true, if_false]
    rcases findLandedAttempt_known hknown with
      ⟨e, hfind, hnone⟩ | ⟨a, hfind, hanswered, hfirst⟩
    · rw [hfind]
      exact .inl ⟨rfl, fun a ha => hnone a ha.answered ha.first⟩
    · rw [hfind]
      have hkept (hnot : l.adoptsAttempt env t.id a ≠ true) :
          ∀ b, ¬ l.WritesAttempt env t.id b := by
        intro b hb
        obtain rfl := Option.some.inj (hfirst.symm.trans hb.first)
        exact hnot hb.adopts
      dsimp only
      rcases hgas : a.sentWithGas with _ | gas
      · refine .inl ⟨rfl, hkept ?_⟩
        simp [adoptsAttempt, hgas]
      · dsimp only
        rcases hreceipt : env.getReceipt a.hash with e | _ | receipt
        · refine .inl ⟨rfl, hkept ?_⟩
          simp [adoptsAttempt, hgas, hreceipt]
        · dsimp only
          unfold recoverPendingLandedAttempt
          by_cases hwrite : env.write = true
          · simp only [hwrite, if_true]
            rcases l.db.recoverLanded_spec l.queue.relayer.id t.id l.queue.isLegacyTransactions
              env.nowWrite hgas with hrefused | ⟨db', r, r', hserved, -, -, -, -, hrow⟩
            · rw [hrefused]
              refine .inl ⟨rfl, hkept ?_⟩
              simp [adoptsAttempt, hgas, hreceipt, hrefused]
            · rw [hserved]
              refine .inr ⟨a, ⟨hload, hanswered, hfirst, ?_⟩, ?_⟩
              · simp [adoptsAttempt, hgas, hreceipt, hserved, hwrite]
              · exact moveSent_adopts (l := { l with db := db' }) hpending hid hgas hrow
          · refine .inl ⟨by simp [hwrite], hkept ?_⟩
            simp [adoptsAttempt, hgas, hreceipt, hwrite]
        · dsimp only
          unfold resolvePendingTransactionMined
          by_cases hwrite : env.write = true
          · simp only [hwrite, if_true]
            refine .inr ⟨a, ⟨hload, hanswered, hfirst, ?_⟩, ?_⟩
            · simp [adoptsAttempt, hgas, hreceipt, hwrite]
            · exact moveSent_adopts (l := { l with db := _ }) hpending hid hgas
                (Db.transactionSent_adopts hgas)
          · refine .inl ⟨by simp [hwrite], hkept ?_⟩
            simp [adoptsAttempt, hgas, hreceipt, hwrite]
  · refine .inl ⟨by simp [hload], fun a ha => ?_⟩
    exact hload ha.loaded

theorem Adopts.hash_eq {a b : RecordedTransactionAttempt} (ha : l.Adopts t a) (hb : l.Adopts t b) :
    a.hash = b.hash := by
  obtain ⟨⟨c, hc, -, hash, -⟩, -⟩ := ha
  obtain ⟨⟨d, hd, -, hash', -⟩, -⟩ := hb
  obtain rfl := Option.some.inj (hc.symm.trans hd)
  exact Option.some.inj (hash.symm.trans hash')

/-- A pending recovery that is sure to find some attempt leaves the transaction alone or adopts an
included attempt exactly when the attempt it writes, if any, is included. -/
theorem pendingRecovery_included_iff {error : String} (chain : Chain)
    (h : RefusedSend l env t l₁ error)
    (hknown : ∃ a ∈ l₁.db.getRecordedTransactionAttempts t.id, Known env.clients a.hash) :
    ((l.processSinglePending env).1 = l₁ ∨
        ∃ a ∈ l₁.db.getRecordedTransactionAttempts t.id, a.hash ∈ chain.entries ∧
          (l.processSinglePending env).1.Adopts t a) ↔
      ∀ a, l₁.WritesAttempt env t.id a → a.hash ∈ chain.entries := by
  obtain ⟨hpass, head, ts, hpending, hid⟩ := h.processSinglePending
  rw [hpass]
  rcases pendingNonceConflict_known hpending hid hknown with
    ⟨hsame, hnone⟩ | ⟨a, hwrites, hadopts, hmoved⟩
  · exact ⟨fun _ a ha => absurd ha (hnone a), fun _ => .inl hsame⟩
  · constructor
    · intro hproperty b hb
      obtain rfl := Option.some.inj (hwrites.first.symm.trans hb.first)
      rcases hproperty with hsame | ⟨c, -, hincluded, hc⟩
      · rw [hsame, hpending] at hmoved
        exact absurd hmoved (List.cons_ne_self _ _)
      · rw [hadopts.hash_eq hc]
        exact hincluded
    · intro hall
      exact .inr ⟨a, List.mem_of_find?_eq_some hwrites.first, hall a hwrites, hadopts⟩

end Pending

end Locked
section Startup

variable {relayer : Relayer} {env : StartupEnv} {db : Db} {t : Transaction}

/-- Whether the startup repair writes the landed attempt it found. -/
def repairAdopts (relayer : Relayer) (env : StartupEnv) (db : Db) (id : TransactionId)
    (a : RecordedTransactionAttempt) : Bool :=
  match a.sentWithGas with
  | none => false
  | some gas => env.recoverLanded id && (db.recoverLandedTransactionAttempt relayer.id id a.hash gas
      a.sentWithBlobGas (!relayer.eip1559Enabled) env.nowRepair).1

/-- The startup repair of a candidate writes the attempt. -/
structure RepairWritesAttempt (relayer : Relayer) (env : StartupEnv) (db : Db)
    (id : TransactionId) (a : RecordedTransactionAttempt) : Prop where
  loaded : env.loadAttempts id = true
  answered : Answered env.clients (db.getRecordedTransactionAttempts id)
  first : firstKnown env.clients (db.getRecordedTransactionAttempts id) = some a
  adopts : repairAdopts relayer env db id a = true

theorem repairCandidate_known (chainNonce : ℕ)
    (hknown : ∃ a ∈ db.getRecordedTransactionAttempts t.id, Known env.clients a.hash) :
    ((repairCandidate relayer env chainNonce db t).1 = db ∧
        ∀ a, ¬ RepairWritesAttempt relayer env db t.id a) ∨
      ∃ a r r', RepairWritesAttempt relayer env db t.id a ∧ db.row t.id = some r ∧
        r.status = .pending ∧ (repairCandidate relayer env chainNonce db t).1.row t.id = some r' ∧
          (repairCandidate relayer env chainNonce db t).1.RowAdopts t.id a := by
  have hnonempty : (db.getRecordedTransactionAttempts t.id).isEmpty = false := by
    obtain ⟨a, ha, -⟩ := hknown
    exact List.isEmpty_eq_false_iff.mpr (List.ne_nil_of_mem ha)
  unfold repairCandidate
  by_cases hload : env.loadAttempts t.id = true
  · simp only [hload, hnonempty, Bool.not_true, Bool.false_eq_true, if_false]
    rcases findLandedAttempt_known hknown with
      ⟨e, hfind, hnone⟩ | ⟨a, hfind, hanswered, hfirst⟩
    · rw [hfind]
      exact .inl ⟨rfl, fun a ha => hnone a ha.answered ha.first⟩
    · rw [hfind]
      have hkept (hnot : repairAdopts relayer env db t.id a ≠ true) :
          ∀ b, ¬ RepairWritesAttempt relayer env db t.id b := by
        intro b hb
        obtain rfl := Option.some.inj (hfirst.symm.trans hb.first)
        exact hnot hb.adopts
      dsimp only
      rcases hgas : a.sentWithGas with _ | gas
      · refine .inl ⟨rfl, hkept ?_⟩
        simp [repairAdopts, hgas]
      · dsimp only
        by_cases hserve : env.recoverLanded t.id = true
        · simp only [hserve, Bool.not_true, Bool.false_eq_true, if_false]
          rcases db.recoverLanded_spec relayer.id t.id (!relayer.eip1559Enabled) env.nowRepair
            hgas with hrefused | ⟨db', r, r', hserved, hr, hstatus, -, hr', hrow⟩
          · rw [hrefused]
            refine .inl ⟨rfl, hkept ?_⟩
            simp [repairAdopts, hgas, hrefused]
          · rw [hserved]
            refine .inr ⟨a, r, r', ⟨hload, hanswered, hfirst, ?_⟩, hr, hstatus, hr', hrow⟩
            simp [repairAdopts, hgas, hserved, hserve]
        · refine .inl ⟨by simp [hserve], hkept ?_⟩
          simp [repairAdopts, hgas, hserve]
  · refine .inl ⟨by simp [hload], fun a ha => ?_⟩
    exact hload ha.loaded

/-- The same for the startup repair of a candidate. -/
theorem startupRecovery_included_iff (chain : Chain) (chainNonce : ℕ)
    (hknown : ∃ a ∈ db.getRecordedTransactionAttempts t.id, Known env.clients a.hash) :
    ((repairCandidate relayer env chainNonce db t).1 = db ∨
        ∃ a ∈ db.getRecordedTransactionAttempts t.id, a.hash ∈ chain.entries ∧
          (repairCandidate relayer env chainNonce db t).1.RowAdopts t.id a) ↔
      ∀ a, RepairWritesAttempt relayer env db t.id a → a.hash ∈ chain.entries := by
  rcases repairCandidate_known chainNonce hknown with
    ⟨hsame, hnone⟩ | ⟨a, r, r', hwrites, hr, hstatus, hr', hadopts⟩
  · exact ⟨fun _ a ha => absurd ha (hnone a), fun _ => .inl hsame⟩
  · constructor
    · intro hproperty b hb
      obtain rfl := Option.some.inj (hwrites.first.symm.trans hb.first)
      obtain ⟨hstatus', hash, -⟩ := hadopts r' hr'
      rcases hproperty with hsame | ⟨c, -, hincluded, hc⟩
      · rw [hsame, hr] at hr'
        rw [← Option.some.inj hr', hstatus] at hstatus'
        cases hstatus'
      · rw [Option.some.inj (hash.symm.trans (hc r' hr').2.1)]
        exact hincluded
    · intro hall
      exact .inr ⟨a, List.mem_of_find?_eq_some hwrites.first, hall a hwrites, hadopts⟩

end Startup

/-- Recovery adopts an included attempt or none exactly when the first known attempt is included,
or the recovery ends before it writes. Both recoveries are meant. -/
theorem recovery_adopts_included_iff (chain : Chain) :
    (∀ l env t l₁ error, Locked.RefusedSend l env t l₁ error →
      (∃ a ∈ l₁.db.getRecordedTransactionAttempts t.id, Known env.clients a.hash) →
        (((l.processSinglePending env).1 = l₁ ∨
          ∃ a ∈ l₁.db.getRecordedTransactionAttempts t.id, a.hash ∈ chain.entries ∧
            (l.processSinglePending env).1.Adopts t a) ↔
          ∀ a, l₁.WritesAttempt env t.id a → a.hash ∈ chain.entries)) ∧
    ∀ relayer env db t chainNonce,
      (∃ a ∈ db.getRecordedTransactionAttempts t.id, Known env.clients a.hash) →
        (((repairCandidate relayer env chainNonce db t).1 = db ∨
          ∃ a ∈ db.getRecordedTransactionAttempts t.id, a.hash ∈ chain.entries ∧
            (repairCandidate relayer env chainNonce db t).1.RowAdopts t.id a) ↔
          ∀ a, RepairWritesAttempt relayer env db t.id a → a.hash ∈ chain.entries) :=
  ⟨fun _ _ _ _ _ h hknown => Locked.pendingRecovery_included_iff chain h hknown,
    fun _ _ _ _ chainNonce hknown => startupRecovery_included_iff chain chainNonce hknown⟩

/-- A pass whose send is priced at the given fees. -/
def pendingAt (priorityFee maxFee : ℕ) (broadcast : Except String Unit) (client : RpcClient)
    (included : List SignedTransaction) : PendingEnv :=
  { servedPending broadcast client included with
    send := { servedSend broadcast with
      gasOracle := fun _ => some ⟨priorityFee, maxFee, none, none⟩ } }

/-- Two attempts whose answers were lost, the second of which is included. -/
def lostAnswersRun : List Event :=
  [.add (servedAdd 0) (payment 0 5),
    .processPending (pendingAt 1 10 (.error "timeout") (servedClient [] 0) []),
    .processPending (pendingAt 2 20 (.error "timeout") (servedClient [] 0) []),
    .included (paymentEnvelope 0 5 2 20)]

/-- The refused third send: a provider still has the first attempt in its mempool. -/
def thirdSend : PendingEnv :=
  pendingAt 3 30 nonceTooLow (servedClient [paymentEnvelope 0 5 1 10, paymentEnvelope 0 5 2 20] 1)
    [paymentEnvelope 0 5 2 20]

theorem recovery_adopts_included_fails :
    ¬ ∀ (chain : Chain) l env t l₁ error, Locked.RefusedSend l env t l₁ error →
      (∃ a ∈ l₁.db.getRecordedTransactionAttempts t.id, a.hash ∈ chain.entries ∧
        Known env.clients a.hash) →
      (l.processSinglePending env).1 = l₁ ∨
        ∃ a ∈ l₁.db.getRecordedTransactionAttempts t.id, a.hash ∈ chain.entries ∧
          (l.processSinglePending env).1.Adopts t a := by
  intro hadopts
  have hrun : ∃ l ∈ (freshRelayer.run lostAnswersRun).lock, ∃ head ∈ l.pendingHead thirdSend,
      (l.send thirdSend.send (l.pendingCopy thirdSend head)).2.2 =
        .error (.transactionSendError "nonce too low") ∧
      (∃ a ∈ (l.send thirdSend.send (l.pendingCopy thirdSend head)).2.1.db.getRecordedTransactionAttempts
        (l.send thirdSend.send (l.pendingCopy thirdSend head)).1.id,
        a.hash ∈ (freshRelayer.run lostAnswersRun).chain.entries ∧
          a.hash = paymentEnvelope 0 5 2 20) ∧
      (l.processSinglePending thirdSend).1.queue.pendingTransactions = [] ∧
      (l.send thirdSend.send (l.pendingCopy thirdSend head)).2.1.queue.pendingTransactions ≠ [] ∧
      ∃ c ∈ (l.processSinglePending thirdSend).1.queue.inmempoolTransactions.getLast?,
        ∃ hash ∈ c.original.knownTransactionHash,
          hash ∉ (freshRelayer.run lostAnswersRun).chain.entries := by
    decide +kernel
  obtain ⟨l, -, head, hhead, hsend, ⟨mined, hmined, hincluded, hash⟩, hmoved, hwaiting, c, hc, k, hk,
    hexcluded⟩ := hrun
  have hrefused : Locked.RefusedSend l thirdSend _ _ "nonce too low" :=
    ⟨head, hhead, Prod.ext rfl (Prod.ext rfl hsend), by decide +kernel⟩
  have hknown : Known thirdSend.clients mined.hash :=
    ⟨_, List.mem_singleton_self _, by rw [hash]; decide +kernel⟩
  rcases hadopts _ l thirdSend _ _ _ hrefused ⟨mined, hmined, hincluded, hknown⟩ with
    hsame | ⟨a, -, haincluded, ⟨d, hd, -, hdhash, -⟩, -⟩
  · rw [hsame] at hmoved
    exact hwaiting hmoved
  · obtain rfl := Option.some.inj (hc.symm.trans hd)
    obtain rfl := Option.some.inj (hk.symm.trans hdhash)
    exact hexcluded haincluded

end Rrelayer
