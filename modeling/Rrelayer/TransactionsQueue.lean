import Rrelayer.SendTransaction
import Rrelayer.NonceManager
import Mathlib.Data.List.Sort

/-! One relayer's queue in memory: pending transactions by nonce, in-mempool entries in the order
they were sent, and mined transactions waiting for confirmations. -/
namespace Rrelayer

inductive CompetitionType where
  | cancel | replace
  deriving DecidableEq, Repr

/-- An in-mempool transaction and the cancel or replace transaction racing it. -/
structure CompetitiveTransaction where
  original : Transaction
  competitive : Option (Transaction × CompetitionType)
  deriving DecidableEq, Repr

namespace CompetitiveTransaction

def new (original : Transaction) : CompetitiveTransaction := ⟨original, none⟩

def addCompetitor (c : CompetitiveTransaction) (competitor : Transaction)
    (competitionType : CompetitionType) : CompetitiveTransaction where
  original := { c.original with cancelledByTransactionId := some competitor.id }
  competitive := some (competitor, competitionType)

/-- The competitor if there is one: it is what should win. -/
def getActiveTransaction (c : CompetitiveTransaction) : Transaction :=
  match c.competitive with
  | some (competitor, _) => competitor
  | none => c.original

def getTransactionById (c : CompetitiveTransaction) (id : TransactionId) : Option Transaction :=
  if c.original.id == id then some c.original
  else match c.competitive with
    | some (competitor, _) => if competitor.id == id then some competitor else none
    | none => none

/-- The entry after the transaction found by `get_transaction_by_id_mut` is changed. -/
def updateTransactionById (c : CompetitiveTransaction) (id : TransactionId)
    (f : Transaction → Transaction) : CompetitiveTransaction :=
  if c.original.id == id then { c with original := f c.original }
  else match c.competitive with
    | some (competitor, type) =>
        if competitor.id == id then { c with competitive := some (f competitor, type) } else c
    | none => c

/-- The original and its competitor. -/
def transactions (c : CompetitiveTransaction) : List Transaction :=
  c.original :: (c.competitive.map (·.1)).toList

end CompetitiveTransaction

structure GasBumpBlockConfig where
  slow : ℕ
  medium : ℕ
  fast : ℕ
  superFast : ℕ
  deriving DecidableEq, Repr

def GasBumpBlockConfig.blocksToWaitBeforeBump (c : GasBumpBlockConfig) : TransactionSpeed → ℕ
  | .slow => c.slow
  | .medium => c.medium
  | .fast => c.fast
  | .super => c.superFast

structure TransactionsQueue extends SendConfig where
  pendingTransactions : List Transaction
  inmempoolTransactions : List CompetitiveTransaction
  minedTransactions : List Transaction
  nonceManager : NonceManager
  blocksEvery : ℕ
  confirmations : ℕ
  supportsBlobs : Bool
  gasBumpConfig : GasBumpBlockConfig

inductive MovePendingTransactionToInmempoolError where
  | transactionNotFound (relayerId : RelayerId) (relayerAddress : EvmAddress)
      (sent : TransactionSentWithRelayer)
  | transactionIdDoesNotMatch (relayerId : RelayerId) (relayerAddress : EvmAddress)
      (sent : TransactionSentWithRelayer) (queued : Transaction)
  deriving DecidableEq, Repr

inductive MoveInmempoolTransactionToMinedError where
  | transactionNotFound (relayerId : RelayerId) (relayerAddress : EvmAddress)
      (id : TransactionId)
  | transactionIdDoesNotMatch (relayerId : RelayerId) (relayerAddress : EvmAddress)
      (id : TransactionId) (original : Transaction)
  deriving DecidableEq, Repr

/-- How the race of an in-mempool entry ended. -/
structure CompetitionResolutionResult where
  winner : Transaction
  winnerStatus : TransactionStatus
  loser : Option Transaction
  deriving DecidableEq, Repr

inductive EditableTransaction where
  | pending (transaction : Transaction)
  | inmempool (transaction : Transaction)
  deriving DecidableEq, Repr

/-- The list with its first element that meets `p` changed, as `iter_mut().find(p)` does. -/
def updateFirst {α : Type} (p : α → Bool) (f : α → α) : List α → List α
  | [] => []
  | a :: as => if p a then f a :: as else a :: updateFirst p f as

@[simp] theorem updateFirst_cons_pos {α : Type} {p : α → Bool} {f : α → α} {a : α} {as : List α}
    (h : p a = true) : updateFirst p f (a :: as) = f a :: as := by
  simp [updateFirst, h]

/-- At most one element changes, and it met `p`. -/
theorem updateFirst_split {α : Type} (p : α → Bool) (f : α → α) (as : List α) :
    (∃ before a after, as = before ++ a :: after ∧ p a = true ∧
      updateFirst p f as = before ++ f a :: after) ∨ updateFirst p f as = as := by
  induction as with
  | nil => exact .inr rfl
  | cons a as ih =>
    by_cases hp : p a = true
    · exact .inl ⟨[], a, as, rfl, hp, updateFirst_cons_pos hp⟩
    · have hcons : updateFirst p f (a :: as) = a :: updateFirst p f as := by
        simp [updateFirst, hp]
      rcases ih with ⟨before, b, after, rfl, hb, hu⟩ | hu
      · exact .inl ⟨a :: before, b, after, rfl, hb, by rw [hcons, hu]; rfl⟩
      · exact .inr (by rw [hcons, hu])

theorem mem_updateFirst {α : Type} {p : α → Bool} {f : α → α} {as : List α} {b : α}
    (h : b ∈ updateFirst p f as) : b ∈ as ∨ ∃ a ∈ as, p a = true ∧ b = f a := by
  rcases updateFirst_split p f as with ⟨before, a, after, rfl, hp, hu⟩ | hu
  · rw [hu] at h
    rcases List.mem_append.mp h with hb | hb
    · exact .inl (List.mem_append_left _ hb)
    · rcases List.mem_cons.mp hb with rfl | hb
      · exact .inr ⟨a, List.mem_append_right _ (List.mem_cons_self ..), hp, rfl⟩
      · exact .inl (List.mem_append_right _ (List.mem_cons_of_mem _ hb))
  · rw [hu] at h
    exact .inl h

namespace TransactionsQueue

/-- `sort_by_key`, which is stable. -/
def sortPendingTransactions (transactions : List Transaction) : List Transaction :=
  transactions.insertionSort fun a b => a.nonce ≤ b.nonce

/-- The thresholds are 64-bit products. -/
def shouldBumpGas (q : TransactionsQueue) (msBetweenTimes : ℕ) (speed : TransactionSpeed) : Bool :=
  msBetweenTimes > q.blocksEvery * q.gasBumpConfig.blocksToWaitBeforeBump speed % 2 ^ 64

/-- `as u64` of a signed number of milliseconds. -/
def asU64 (ms : ℤ) : ℕ := (ms % 2 ^ 64).toNat

def inConfirmedRange (q : TransactionsQueue) (elapsed : ℕ) : Bool :=
  elapsed > q.blocksEvery * q.confirmations % 2 ^ 64

/-- Inserted before the first transaction with a larger nonce. -/
def addPendingTransaction (q : TransactionsQueue) (t : Transaction) : TransactionsQueue :=
  { q with pendingTransactions :=
      q.pendingTransactions.orderedInsert (fun a b => a.nonce < b.nonce) t }

def getNextPendingTransaction (q : TransactionsQueue) : Option Transaction :=
  q.pendingTransactions.head?

def getEditableTransactionById (q : TransactionsQueue) (id : TransactionId) :
    Option EditableTransaction :=
  match q.pendingTransactions.find? (·.id == id) with
  | some t => some (.pending t)
  | none => (q.inmempoolTransactions.find? (·.original.id == id)).map (.inmempool ·.original)

/-- The transaction as sent with the given record. -/
def sentTransaction (t : Transaction) (sent : TransactionSentWithRelayer) (now : DateTime) :
    Transaction :=
  { t.exposeAttempt sent now with status := .inmempool }

def movePendingToInmempool (q : TransactionsQueue) (t : Transaction)
    (sent : TransactionSentWithRelayer) (now : DateTime) :
    Except MovePendingTransactionToInmempoolError TransactionsQueue :=
  match q.pendingTransactions with
  | [] => .error (.transactionNotFound q.relayer.id q.relayer.address sent)
  | queued :: rest =>
      if queued.id == sent.id && t.id == sent.id then
        .ok { q with
          pendingTransactions := rest
          inmempoolTransactions :=
            q.inmempoolTransactions ++ [.new (sentTransaction t sent now)] }
      else .error (.transactionIdDoesNotMatch q.relayer.id q.relayer.address sent queued)

/-- Only the head is moved, and only under its own id. -/
theorem movePendingToInmempool_ok {q q' : TransactionsQueue} {t : Transaction}
    {sent : TransactionSentWithRelayer} {now : DateTime}
    (h : q.movePendingToInmempool t sent now = .ok q') :
    ∃ head rest, q.pendingTransactions = head :: rest ∧ head.id = sent.id ∧ t.id = sent.id ∧
      q' = { q with
        pendingTransactions := rest
        inmempoolTransactions :=
          q.inmempoolTransactions ++ [.new (sentTransaction t sent now)] } := by
  unfold movePendingToInmempool at h
  split at h
  · cases h
  · rename_i head rest hlist
    split at h
    · rename_i hids
      simp only [Bool.and_eq_true, beq_iff_eq] at hids
      cases h
      exact ⟨head, rest, hlist, hids.1, hids.2, rfl⟩
    · cases h

def updatePendingTransaction (q : TransactionsQueue) (updated : Transaction) :
    TransactionsQueue :=
  { q with pendingTransactions :=
      updateFirst (·.id == updated.id) (fun _ => updated) q.pendingTransactions }

/-- Only the front entry can get a competitor. -/
def addCompetitorToInmempoolTransaction (q : TransactionsQueue) (originalId : TransactionId)
    (competitor : Transaction) (competitionType : CompetitionType) :
    SendResult TransactionsQueue :=
  match q.inmempoolTransactions with
  | front :: rest =>
      if front.original.id == originalId then
        .ok { q with
          inmempoolTransactions := front.addCompetitor competitor competitionType :: rest }
      else .error .noTransactionInQueue
  | [] => .error .noTransactionInQueue

theorem addCompetitor_front {q : TransactionsQueue} {front : CompetitiveTransaction}
    {rest : List CompetitiveTransaction} {originalId : TransactionId} (competitor : Transaction)
    (competitionType : CompetitionType) (hfront : q.inmempoolTransactions = front :: rest)
    (hid : front.original.id = originalId) :
    q.addCompetitorToInmempoolTransaction originalId competitor competitionType =
      .ok { q with
        inmempoolTransactions := front.addCompetitor competitor competitionType :: rest } := by
  unfold addCompetitorToInmempoolTransaction
  rw [hfront]
  dsimp only
  rw [if_pos (by simpa using hid)]

/-- A competitor that gets attached is attached to the front. -/
theorem addCompetitor_ok {q q' : TransactionsQueue} {originalId : TransactionId}
    {competitor : Transaction} {competitionType : CompetitionType}
    (h : q.addCompetitorToInmempoolTransaction originalId competitor competitionType = .ok q') :
    ∃ front rest, q.inmempoolTransactions = front :: rest ∧ front.original.id = originalId ∧
      q' = { q with
        inmempoolTransactions := front.addCompetitor competitor competitionType :: rest } := by
  unfold addCompetitorToInmempoolTransaction at h
  split at h
  · rename_i front rest hlist
    split at h
    · rename_i hid
      cases h
      exact ⟨front, rest, hlist, by simpa using hid, rfl⟩
    · cases h
  · cases h

def getNextInmempoolTransaction (q : TransactionsQueue) : Option Transaction :=
  q.inmempoolTransactions.head?.map (·.getActiveTransaction)

/-- A change of the transaction with this id in the front entry. -/
def updateFrontById (q : TransactionsQueue) (id : TransactionId)
    (f : Transaction → Transaction) : TransactionsQueue :=
  match q.inmempoolTransactions with
  | front :: rest => { q with inmempoolTransactions := front.updateTransactionById id f :: rest }
  | [] => q

def updateInmempoolTransactionGas (q : TransactionsQueue) (sent : TransactionSentWithRelayer)
    (now : DateTime) : TransactionsQueue :=
  q.updateFrontById sent.id fun t => t.exposeAttempt sent now

def updateInmempoolTransactionNoop (q : TransactionsQueue) (id : TransactionId)
    (sent : TransactionSentWithRelayer) (now : DateTime) : TransactionsQueue :=
  q.updateFrontById id fun t =>
    { transactionToNoop q.relayer.address t with
      knownTransactionHash := some sent.hash, sentAt := some now }

/-- A value-free self-send without data. `is_noop` alone also holds of a user's self-send. -/
def noopPayloadShape (t : Transaction) : Bool := t.isNoop && t.value == 0 && t.data.isEmpty

def receiptStatus (receipt : Receipt) : TransactionStatus :=
  if receipt.status then .mined else .failed

/-- The status of an original that won: a mined no-op that replaced a rejected payload is
surfaced as failed, one that replaced an expired payload as expired. -/
def originalWinnerStatus (c : CompetitiveTransaction) (receipt : Receipt) (now : DateTime) :
    TransactionStatus :=
  if receipt.status && noopPayloadShape c.original && c.original.failedReason.isSome then .failed
  else if receipt.status && noopPayloadShape c.original && c.competitive.isNone &&
      hasExpired c.original now then .expired
  else receiptStatus receipt

/-- The original that lost against a competitor of the given kind. -/
def beatenOriginal (relayAddress : EvmAddress) (original competitor : Transaction) :
    CompetitionType → Transaction
  | .cancel =>
      { original with
        status := .cancelled
        isNoop := true
        toAddress := relayAddress
        value := 0
        data := []
        cancelledByTransactionId := some competitor.id }
  | .replace => { original with status := .replaced }

/-- The race as decided by the receipt of the transaction with this id. A competitor that
lost keeps the status it had. -/
def resolveCompetition (relayAddress : EvmAddress) (c : CompetitiveTransaction)
    (id : TransactionId) (receipt : Receipt) (now : DateTime) :
    Option CompetitionResolutionResult :=
  if c.original.id == id then
    let status := originalWinnerStatus c receipt now
    some ⟨{ c.original with
        status := status, minedAt := some now, cancelledByTransactionId := none },
      status, c.competitive.map (·.1)⟩
  else match c.competitive with
    | some (competitor, type) =>
        if competitor.id == id then
          some ⟨{ competitor with status := receiptStatus receipt, minedAt := some now },
            receiptStatus receipt, some (beatenOriginal relayAddress c.original competitor type)⟩
        else none
    | none => none

/-- `HashMap::insert`. -/
def insertMined (mined : List Transaction) (t : Transaction) : List Transaction :=
  mined.filter (·.id != t.id) ++ [t]

def moveInmempoolToMining (q : TransactionsQueue) (id : TransactionId) (receipt : Receipt)
    (now : DateTime) :
    Except MoveInmempoolTransactionToMinedError
      (CompetitionResolutionResult × TransactionsQueue) :=
  match q.inmempoolTransactions with
  | [] => .error (.transactionNotFound q.relayer.id q.relayer.address id)
  | front :: rest =>
      match resolveCompetition q.relayer.address front id receipt now with
      | none => .error (.transactionIdDoesNotMatch q.relayer.id q.relayer.address id front.original)
      | some resolution =>
          .ok (resolution, { q with
            inmempoolTransactions := rest
            minedTransactions :=
              if resolution.winner.status == .mined then
                insertMined q.minedTransactions resolution.winner
              else q.minedTransactions })

/-- A hash map's first entry in its own order; `pick` says which that is. -/
def getNextMinedTransaction (q : TransactionsQueue) (pick : ℕ) : Option Transaction :=
  q.minedTransactions[pick % q.minedTransactions.length]?

def moveMiningToConfirmed (q : TransactionsQueue) (id : TransactionId) : TransactionsQueue :=
  { q with minedTransactions := q.minedTransactions.filter (·.id != id) }

def updatePendingTransactionNonce (q : TransactionsQueue) (id : TransactionId) (newNonce : ℕ) :
    TransactionsQueue :=
  if q.pendingTransactions.any (·.id == id) then
    { q with
      pendingTransactions := sortPendingTransactions
        (updateFirst (·.id == id) (fun t => { t with nonce := newNonce }) q.pendingTransactions) }
  else q

/-- The first entry that contains the transaction is changed, wherever it stands. -/
def updateInmempoolTransactionNonce (q : TransactionsQueue) (id : TransactionId)
    (newNonce : ℕ) : TransactionsQueue :=
  { q with
    inmempoolTransactions :=
      updateFirst (fun c => (c.getTransactionById id).isSome)
        (fun c => c.updateTransactionById id fun t => { t with nonce := newNonce })
        q.inmempoolTransactions }

/-- The transactions that wait for a nonce to be consumed. -/
def liveTransactions (q : TransactionsQueue) : List Transaction :=
  q.pendingTransactions ++ q.inmempoolTransactions.flatMap (·.transactions)

end TransactionsQueue
end Rrelayer
