import Rrelayer.InmempoolEffect
import Rrelayer.LandedAttempts
import Rrelayer.System

/-! The end of a race between an original and its competitor: which statuses the two get, in the
result and in their rows. -/
namespace Rrelayer

def Db.rowStatus (db : Db) (id : TransactionId) : Option TransactionStatus :=
  (db.row id).map (·.status)

section Rows

variable {db : Db} {f g : Row → Row} {status : TransactionStatus}

/-- A statement that sets the status of one row. -/
theorem Db.rowStatus_update (y : TransactionId) (hid : ∀ r, (f r).id = r.id)
    (hstatus : ∀ r, (f r).status = status) (x : TransactionId) :
    ((db.update y f).log y g).rowStatus x =
      if x = y then (db.rowStatus x).map fun _ => status else db.rowStatus x := by
  unfold Db.rowStatus
  rw [Db.row_log, Db.row_update db y hid]
  cases hrow : db.row x with
  | none => simp
  | some r =>
      have hrid := Db.row_id hrow
      by_cases hxy : x = y
      · simp [hxy, hrid.trans hxy, hstatus]
      · simp [hxy, hrid]

theorem Db.rowStatus_transactionMined (t : Transaction) (receipt : Receipt) (now : DateTime)
    (x : TransactionId) :
    (db.transactionMined t receipt now).rowStatus x =
      if x = t.id then (db.rowStatus x).map fun _ => .mined else db.rowStatus x :=
  Db.rowStatus_update t.id (by intro; rfl) (by intro; rfl) x

theorem Db.rowStatus_transactionExpired (y : TransactionId) (now : DateTime) (x : TransactionId) :
    (db.transactionExpired y now).rowStatus x =
      if x = y then (db.rowStatus x).map fun _ => .expired else db.rowStatus x :=
  Db.rowStatus_update y (by intro; rfl) (by intro; rfl) x

theorem Db.rowStatus_updateTransactionFailed (y : TransactionId) (reason : String) (now : DateTime)
    (x : TransactionId) :
    (db.updateTransactionFailed y reason now).rowStatus x =
      if x = y then (db.rowStatus x).map fun _ => .failed else db.rowStatus x :=
  Db.rowStatus_update y (by intro; rfl) (by intro; rfl) x

theorem Db.rowStatus_transactionUpdate (t : Transaction) (now : DateTime) (x : TransactionId) :
    (db.transactionUpdate t now).rowStatus x =
      if x = t.id then (db.rowStatus x).map fun _ => t.status else db.rowStatus x :=
  Db.rowStatus_update t.id (by intro; rfl) (by intro; rfl) x

end Rows

/-- The statuses of a transaction that was included. -/
def TransactionStatus.Included (s : TransactionStatus) : Prop :=
  s = .mined ∨ s = .expired ∨ s = .failed

/-- The statuses of a transaction whose nonce another one took. -/
def TransactionStatus.Lost (s : TransactionStatus) : Prop :=
  s = .dropped ∨ s = .cancelled ∨ s = .replaced

namespace Locked

theorem beatenOriginal_id (a : EvmAddress) (original competitor : Transaction)
    (type : CompetitionType) :
    (TransactionsQueue.beatenOriginal a original competitor type).id = original.id := by
  cases type <;> rfl

theorem beatenOriginal_lost (a : EvmAddress) (original competitor : Transaction)
    (type : CompetitionType) :
    (TransactionsQueue.beatenOriginal a original competitor type).status.Lost := by
  cases type with
  | cancel => exact .inr (.inl rfl)
  | replace => exact .inr (.inr rfl)

/-- The outcome of a race that its competitor won: the receipt gives its status, the kind of race the
original's. -/
structure CompetitorWins (l : Locked) (original competitor : Transaction) (type : CompetitionType)
    (receipt : Receipt) (r : CompetitionResolutionResult) (queue : TransactionsQueue) : Prop where
  winner : r.winner.id = competitor.id
  status : r.winner.status = r.winnerStatus
  receiptStatus : r.winnerStatus = TransactionsQueue.receiptStatus receipt
  loser : r.loser = some (TransactionsQueue.beatenOriginal l.queue.relayer.address original
    competitor type)
  tracked : r.winnerStatus = .mined → r.winner ∈ queue.minedTransactions

/-- An included competitor is made the winner. -/
theorem moveInmempoolToMining_competitor {l : Locked} {original competitor : Transaction}
    {type : CompetitionType} {rest : List CompetitiveTransaction}
    (hfront : l.queue.inmempoolTransactions = ⟨original, some (competitor, type)⟩ :: rest)
    (hdistinct : original.id ≠ competitor.id) (receipt : Receipt) (now : DateTime) :
    ∃ r queue, l.queue.moveInmempoolToMining competitor.id receipt now = .ok (r, queue) ∧
      l.CompetitorWins original competitor type receipt r queue := by
  have hother : (original.id == competitor.id) = false := by simpa using hdistinct
  unfold TransactionsQueue.moveInmempoolToMining TransactionsQueue.resolveCompetition
  rw [hfront]
  simp only [hother, Bool.false_eq_true, if_false, beq_self_eq_true, if_true]
  refine ⟨_, _, rfl, ?_⟩
  constructor
  · rfl
  · rfl
  · rfl
  · rfl
  · intro hmined
    have hmined : TransactionsQueue.receiptStatus receipt = .mined := hmined
    simp [hmined, TransactionsQueue.insertMined]

/-- The front entry of the in-mempool queue, with a competitor; both are in the mempool, in
memory and in their rows. -/
structure Race (l : Locked) where
  original : Transaction
  competitor : Transaction
  competitionType : CompetitionType
  rest : List CompetitiveTransaction
  front : l.queue.inmempoolTransactions = ⟨original, some (competitor, competitionType)⟩ :: rest
  distinct : original.id ≠ competitor.id
  waiting : competitor.status = .inmempool
  originalRow : l.db.rowStatus original.id = some .inmempool
  competitorRow : l.db.rowStatus competitor.id = some .inmempool

namespace Race

variable {l : Locked} (race : Race l)

/-- One of the two. -/
def side (original : Bool) : Transaction :=
  if original then race.original else race.competitor

/-- Both transactions of the race have the status their outcome implies, in the result of the
move and in their rows. -/
structure Settled (originalIncluded : Bool) (receipt : Receipt)
    (resolution : CompetitionResolutionResult) (l' : Locked) : Prop where
  winner : resolution.winner.id = (race.side originalIncluded).id
  winnerStatus : resolution.winner.status = resolution.winnerStatus
  included : resolution.winnerStatus.Included
  reverted : receipt.status = false → resolution.winnerStatus = .failed
  winnerRow : l'.db.rowStatus (race.side originalIncluded).id = some resolution.winnerStatus
  loser : ∃ loser, resolution.loser = some loser ∧
    loser.id = (race.side !originalIncluded).id ∧ loser.status.Lost ∧
    l'.db.rowStatus loser.id = some loser.status

/-- An included original: the competitor is handed back as it was. -/
theorem moveInmempoolToMining_original (receipt : Receipt) (now : DateTime) :
    ∃ r queue, l.queue.moveInmempoolToMining race.original.id receipt now = .ok (r, queue) ∧
      r.loser = some race.competitor := by
  simp [TransactionsQueue.moveInmempoolToMining, race.front, TransactionsQueue.resolveCompetition]

end Race

section Save

variable {l : Locked} {env : InmempoolEnv} {receipt : Receipt} {r : CompetitionResolutionResult}

/-- After the move only the two writes of the resolution are left. -/
theorem resolveInmempool_db {t : Transaction} {resolution : CompetitionResolutionResult}
    {queue : TransactionsQueue}
    (h : l.queue.moveInmempoolToMining t.id receipt env.now = .ok (resolution, queue)) :
    (l.resolveInmempool env t receipt).1.db =
      ({ l with queue := queue }.saveResolution env receipt resolution).1.db := by
  unfold resolveInmempool
  rw [h]

theorem saveResolution_mined {loser : Transaction} (hmined : r.winnerStatus = .mined)
    (hloser : r.loser = some loser) (hwrite : env.write = true)
    (hsecond : env.writeLoser = true) :
    (l.saveResolution env receipt r).1.db =
      (l.db.transactionMined r.winner receipt env.nowWrite).transactionUpdate loser
        env.nowWrite := by
  unfold saveResolution
  rw [hmined, hloser]
  simp [hwrite, hsecond]

/-- The loser's row is written only next to a winner that was mined. -/
theorem saveResolution_rowStatus_ne (l : Locked) (env : InmempoolEnv) (receipt : Receipt)
    (r : CompetitionResolutionResult) {x : TransactionId}
    (h : ¬ (r.winnerStatus = .mined ∧ env.write = true ∧ env.writeLoser = true))
    (hx : x ≠ r.winner.id) :
    (l.saveResolution env receipt r).1.db.rowStatus x = l.db.rowStatus x := by
  unfold saveResolution
  split
  · rename_i hmined
    cases hwrite : env.write with
    | false => rfl
    | true =>
        have hsecond : env.writeLoser = false := by
          by_contra hserved
          exact h ⟨hmined, hwrite, by simpa using hserved⟩
        cases r.loser with
        | none => exact (Db.rowStatus_transactionMined ..).trans (if_neg hx)
        | some loser =>
            simp only [hsecond, Bool.not_true, Bool.not_false, Bool.false_eq_true, if_false,
              if_true]
            exact (Db.rowStatus_transactionMined ..).trans (if_neg hx)
  · cases env.write with
    | false => rfl
    | true => exact (Db.rowStatus_transactionExpired ..).trans (if_neg hx)
  · cases env.write with
    | false => rfl
    | true => exact (Db.rowStatus_updateTransactionFailed ..).trans (if_neg hx)
  · rfl

section CompetitorWins

variable {original competitor : Transaction} {type : CompetitionType} {queue : TransactionsQueue}
  (hwins : l.CompetitorWins original competitor type receipt r queue)
  (hdistinct : original.id ≠ competitor.id)
include hwins hdistinct

/-- Whatever the database serves: the original's row is left alone, or says the original lost. -/
theorem saveResolution_originalRow {status : TransactionStatus}
    (h : ({ l with queue := queue }.saveResolution env receipt r).1.db.rowStatus original.id =
      some status) :
    status.Lost ∨ l.db.rowStatus original.id = some status := by
  have hid := beatenOriginal_id l.queue.relayer.address original competitor type
  have hother : original.id ≠ r.winner.id := by
    rw [hwins.winner]
    exact hdistinct
  by_cases hwritten : r.winnerStatus = .mined ∧ env.write = true ∧ env.writeLoser = true
  · obtain ⟨hmined, hwrite, hsecond⟩ := hwritten
    rw [saveResolution_mined hmined hwins.loser hwrite hsecond, Db.rowStatus_transactionUpdate,
      if_pos hid.symm] at h
    obtain ⟨-, -, hstatus⟩ := Option.map_eq_some_iff.mp h
    left
    rw [← hstatus]
    exact beatenOriginal_lost _ _ _ _
  · right
    rw [saveResolution_rowStatus_ne { l with queue := queue } env receipt r hwritten hother] at h
    exact h

/-- Served writes report the race, with the receipt's status in the competitor's row. -/
theorem saveResolution_served (hwrite : env.write = true) (hsecond : env.writeLoser = true) :
    ({ l with queue := queue }.saveResolution env receipt r).2 = .ok ⟨.success, 10⟩ ∧
      ({ l with queue := queue }.saveResolution env receipt r).1.db.rowStatus competitor.id =
        (l.db.rowStatus competitor.id).map fun _ => r.winnerStatus := by
  have hid := beatenOriginal_id l.queue.relayer.address original competitor type
  have hstatus := hwins.receiptStatus
  unfold TransactionsQueue.receiptStatus at hstatus
  split at hstatus
  · constructor
    · unfold saveResolution
      rw [hstatus, hwins.loser]
      simp [hwrite, hsecond]
    · rw [saveResolution_mined hstatus hwins.loser hwrite hsecond, Db.rowStatus_transactionUpdate,
        hid, if_neg (Ne.symm hdistinct), Db.rowStatus_transactionMined, if_pos hwins.winner.symm,
        hstatus]
  · unfold saveResolution
    rw [hstatus]
    simp only [hwrite, Bool.not_true, Bool.false_eq_true, if_false]
    constructor
    · trivial
    · rw [Db.rowStatus_updateTransactionFailed, if_pos hwins.winner.symm]

end CompetitorWins

end Save

theorem not_lost_inmempool : ¬ TransactionStatus.inmempool.Lost := by
  rintro (h | h | h) <;> cases h

/-- Both transactions of a race get their status exactly when the competitor is the one that was
included, it did not revert, and both writes are served. A competitor that lost keeps its status,
and a winner that failed is the only one written. -/
theorem race_settled_iff (l : Locked) (race : Race l) (env : InmempoolEnv) (receipt : Receipt)
    (originalIncluded : Bool) :
    ∃ resolution queue, l.queue.moveInmempoolToMining (race.side originalIncluded).id receipt
        env.now = .ok (resolution, queue) ∧
      (race.Settled originalIncluded receipt resolution
          (l.resolveInmempool env (race.side originalIncluded) receipt).1 ↔
        originalIncluded = false ∧ receipt.status = true ∧ env.write = true ∧
          env.writeLoser = true) := by
  cases originalIncluded with
  | true =>
      obtain ⟨r, queue, hmove, hcompetitor⟩ :=
        race.moveInmempoolToMining_original receipt env.now
      refine ⟨r, queue, hmove, ?_⟩
      constructor
      · intro h
        obtain ⟨loser, hloser, -, hlost, -⟩ := h.loser
        obtain rfl := Option.some.inj (hcompetitor.symm.trans hloser)
        rw [race.waiting] at hlost
        exact absurd hlost not_lost_inmempool
      · rintro ⟨himpossible, -⟩
        cases himpossible
  | false =>
      obtain ⟨r, queue, hmove, hwinner, hstatus, hreceiptStatus, hbeaten, -⟩ :=
        moveInmempoolToMining_competitor race.front race.distinct receipt env.now
      refine ⟨r, queue, hmove, ?_⟩
      have hdb : (l.resolveInmempool env (race.side false) receipt).1.db =
          ({ l with queue := queue }.saveResolution env receipt r).1.db :=
        resolveInmempool_db hmove
      have hid := beatenOriginal_id l.queue.relayer.address race.original race.competitor
        race.competitionType
      have hother : race.original.id ≠ r.winner.id := by
        rw [hwinner]
        exact race.distinct
      constructor
      · intro h
        obtain ⟨loser, hloser, -, hlost, hrow⟩ := h.loser
        obtain rfl := Option.some.inj (hbeaten.symm.trans hloser)
        -- a loser's row that was left alone still says INMEMPOOL
        have hwritten : r.winnerStatus = .mined ∧ env.write = true ∧ env.writeLoser = true := by
          by_contra hnot
          have hsame := saveResolution_rowStatus_ne { l with queue := queue } env receipt r hnot
            hother
          rw [hdb, hid, hsame] at hrow
          have hwaiting := Option.some.inj (race.originalRow.symm.trans hrow)
          rw [← hwaiting] at hlost
          exact not_lost_inmempool hlost
        obtain ⟨hmined, hwrite, hsecond⟩ := hwritten
        refine ⟨rfl, ?_, hwrite, hsecond⟩
        cases hreceipt : receipt.status with
        | true => rfl
        | false =>
            rw [hreceiptStatus] at hmined
            simp [TransactionsQueue.receiptStatus, hreceipt] at hmined
      · rintro ⟨-, hreceipt, hwrite, hsecond⟩
        have hmined : r.winnerStatus = .mined := by
          rw [hreceiptStatus]
          simp [TransactionsQueue.receiptStatus, hreceipt]
        rw [saveResolution_mined hmined hbeaten hwrite hsecond] at hdb
        constructor
        · exact hwinner
        · exact hstatus
        · exact .inl hmined
        · intro hreverted
          rw [hreceipt] at hreverted
          cases hreverted
        · show (l.resolveInmempool env (race.side false) receipt).1.db.rowStatus
            race.competitor.id = some r.winnerStatus
          rw [hdb, Db.rowStatus_transactionUpdate, hid, if_neg (Ne.symm race.distinct),
            Db.rowStatus_transactionMined, if_pos hwinner.symm]
          show Option.map _ (l.db.rowStatus race.competitor.id) = _
          rw [race.competitorRow, hmined]
          rfl
        · refine ⟨_, hbeaten, hid, beatenOriginal_lost _ _ _ _, ?_⟩
          rw [hdb, Db.rowStatus_transactionUpdate, if_pos rfl, hid, Db.rowStatus_transactionMined,
            if_neg hother]
          show Option.map _ (l.db.rowStatus race.original.id) = _
          rw [race.originalRow]
          rfl

/-- A payment in the mempool with a cancel racing it. -/
def racingPayment : TransactionsQueues := freshRelayer.run [
  .add (servedAdd 0) (payment 1 5),
  .processPending (servedPending (.ok ()) (servedClient [] 0) []),
  .cancel (servedCompete 2 (.ok ()) (servedClient [] 0)) 1]

def cancelledLocked : Locked :=
  ⟨racingPayment.queue.getD freshQueue, some 1000, racingPayment.db, racingPayment.broadcasts⟩

def cancelledOriginal : Transaction :=
  (cancelledLocked.queue.inmempoolTransactions.map (·.original)).headD
    (cancelledLocked.admittedTransaction (servedAdd 0) (payment 1 5) 0)

def racingCancel : Transaction :=
  (cancelledLocked.queue.inmempoolTransactions.filterMap fun c => c.competitive.map (·.1)).headD
    cancelledOriginal

def cancelledRace : Race cancelledLocked where
  original := cancelledOriginal
  competitor := racingCancel
  competitionType := .cancel
  rest := []
  front := by decide +kernel
  distinct := by decide +kernel
  waiting := by decide +kernel
  originalRow := by decide +kernel
  competitorRow := by decide +kernel

def servedPoll : InmempoolEnv := servedInmempool [] (.ok ()) (servedClient [] 0) []

def revertedReceipt : Receipt := ⟨false, paymentEnvelope 0 0 1 12, 21000, none, none⟩

/-- The cancel is included but reverts: the payment's row says INMEMPOOL for good. -/
theorem race_settled_fails : ¬ ∀ (l : Locked) (race : Race l) env receipt originalIncluded,
    ∃ resolution queue, l.queue.moveInmempoolToMining (race.side originalIncluded).id receipt
        env.now = .ok (resolution, queue) ∧
      race.Settled originalIncluded receipt resolution
        (l.resolveInmempool env (race.side originalIncluded) receipt).1 := by
  intro h
  obtain ⟨r, queue, hmove, hsettled⟩ := h cancelledLocked cancelledRace servedPoll revertedReceipt
    false
  obtain ⟨loser, -, hid, hlost, hrow⟩ := hsettled.loser
  rw [hid] at hrow
  have hleft : (cancelledLocked.resolveInmempool servedPoll (cancelledRace.side false)
      revertedReceipt).1.db.rowStatus (cancelledRace.side true).id = some .inmempool := by
    decide +kernel
  rw [Bool.not_false, hleft] at hrow
  rw [← Option.some.inj hrow] at hlost
  exact not_lost_inmempool hlost

end Locked
end Rrelayer
