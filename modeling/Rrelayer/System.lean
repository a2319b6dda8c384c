import Rrelayer.ProcessPending
import Rrelayer.ProcessInmempool
import Rrelayer.ProcessMined
import Rrelayer.Admission
import Rrelayer.Compete
import Rrelayer.Startup
import Rrelayer.Lib.Ledger
import Rrelayer.Lib.Machine

/-! The system over time: the relayer's process and database, what it has broadcast, and the
account's transactions on chain. Every operation, restart and inclusion is an event. -/
namespace Rrelayer

/-- The account's included transactions; the one at position `n` has nonce `n`. -/
abbrev Chain := Ledger SignedTransaction SignedTransaction.nonce

structure TransactionsQueues where
  relayer : Relayer
  queue : Option TransactionsQueue
  blockTimeMs : Option ℕ
  db : Db
  broadcasts : Broadcasts
  chain : Chain

/-- A restart is a crash at any point followed by a startup: an operation that crashed is one
whose remaining outside calls fail. -/
inductive Event where
  | add (env : AdmissionEnv) (toSend : TransactionToSend)
  | cancel (env : CompeteEnv) (id : TransactionId)
  | replace (env : CompeteEnv) (request : RelayTransactionRequest) (id : TransactionId)
  | processPending (env : PendingEnv)
  | processInmempool (env : InmempoolEnv)
  | processMined (env : MinedEnv)
  | restart (env : StartupEnv)
  | included (signed : SignedTransaction)

def Event.isRestart : Event → Bool
  | .restart _ => true
  | _ => false

namespace TransactionsQueues

/-- The relayer's queue as an operation locks it. -/
def lock (s : TransactionsQueues) : Option Locked :=
  s.queue.map fun queue => ⟨queue, s.blockTimeMs, s.db, s.broadcasts⟩

def unlock (s : TransactionsQueues) (l : Locked) : TransactionsQueues :=
  { s with queue := some l.queue, db := l.db, broadcasts := l.broadcasts }

/-- An operation on the locked queue; without a queue it only reports an error. -/
def locked {ρ : Type} (s : TransactionsQueues) (operation : Locked → Locked × ρ) :
    TransactionsQueues :=
  match s.lock with
  | none => s
  | some l => s.unlock (operation l).1

section Lock

variable {s : TransactionsQueues} {ρ : Type} (operation : Locked → Locked × ρ)

theorem locked_of_none (h : s.lock = none) : s.locked operation = s := by
  unfold locked
  rw [h]

theorem locked_of_some {l : Locked} (h : s.lock = some l) :
    s.locked operation = s.unlock (operation l).1 := by
  unfold locked
  rw [h]

end Lock

def startup (s : TransactionsQueues) (env : StartupEnv) : TransactionsQueues :=
  let (db, queue) := startupTransactionsQueues s.relayer env s.db
  { s with
    db := db
    queue := queue
    blockTimeMs := queue.map (·.blocksEvery) }

/-- The next transaction of the account; any other envelope is not includable. -/
def includeSigned (s : TransactionsQueues) (signed : SignedTransaction) : TransactionsQueues :=
  if h : signed.nonce = s.chain.length then { s with chain := s.chain.push signed h } else s

section Included

variable (s : TransactionsQueues) (signed : SignedTransaction)

@[simp] theorem includeSigned_queue : (s.includeSigned signed).queue = s.queue := by
  unfold includeSigned
  split <;> rfl

@[simp] theorem includeSigned_db : (s.includeSigned signed).db = s.db := by
  unfold includeSigned
  split <;> rfl

@[simp] theorem includeSigned_broadcasts :
    (s.includeSigned signed).broadcasts = s.broadcasts := by
  unfold includeSigned
  split <;> rfl

@[simp] theorem includeSigned_lock : (s.includeSigned signed).lock = s.lock := by
  unfold includeSigned
  split <;> rfl

end Included

def step (s : TransactionsQueues) : Event → TransactionsQueues
  | .add env toSend => s.locked (·.addTransaction env toSend)
  | .cancel env id => s.locked (·.cancelTransaction env id)
  | .replace env request id => s.locked (·.replaceTransaction env request id)
  | .processPending env => s.locked (·.processSinglePending env)
  | .processInmempool env => s.locked (·.processSingleInmempool env)
  | .processMined env => s.locked (·.processSingleMined env)
  | .restart env => s.startup env
  | .included signed => s.includeSigned signed

abbrev run (s : TransactionsQueues) (es : List Event) : TransactionsQueues :=
  EventMachine.run step s es

end TransactionsQueues

/-! An outside that serves its calls, for runs on given inputs. -/

/-- A node that knows the given transactions and reports the given account nonce. -/
def servedClient (known : List SignedTransaction) (nonce : ℕ) : RpcClient where
  getTransactionByHash hash := .ok (decide (hash ∈ known))
  getTransactionCount := .ok nonce

/-- Receipts of exactly the given transactions. -/
def servedReceipts (included : List SignedTransaction) :
    TransactionHash → Except String (Option Receipt) := fun hash =>
  .ok (if hash ∈ included then some ⟨true, hash, 21000, none, none⟩ else none)

def servedGas : GasOracle := fun _ => some ⟨1, 10, none, none⟩

def servedSend (broadcast : Except String Unit) : SendEnv where
  gasOracle := servedGas
  blobOracle _ := none
  getSafeNonce _ := .ok 0
  encodeSafe _ _ := .ok []
  buildSidecar _ := .ok []
  estimateGas _ := .ok 21000
  getBlockGasLimit := .ok 30000000
  sign _ := .ok 0
  nowBeforeSigning := 0
  nowAfterSigning := 0
  nowSent := 0
  persistAttempt := true
  broadcast _ := broadcast
  markSent := true

def servedAdd (nonce : ℕ) : AdmissionEnv where
  read := true
  now := 0
  expiresAt := 1000000
  clients := [servedClient [] nonce]
  estimationClients := [servedClient [] nonce]
  gasOracle := servedGas
  blobOracle _ := none
  send := servedSend (.ok ())
  getBalance := .ok (10 ^ 18)
  describe _ := ""
  write := true
  readAfterRace := true
  nowFailed := 0

def servedPending (broadcast : Except String Unit) (client : RpcClient)
    (included : List SignedTransaction) : PendingEnv where
  guard := true
  now := 0
  send := servedSend broadcast
  loadAttempts := true
  clients := [client]
  getReceipt := servedReceipts included
  write := true
  nowWrite := 0
  nowMoved := 0

/-- A pass long after the last send, so that a transaction without receipt is bumped. -/
def servedInmempool (polled : List SignedTransaction) (broadcast : Except String Unit)
    (client : RpcClient) (included : List SignedTransaction) : InmempoolEnv where
  guard := true
  pollReceipt := servedReceipts polled
  now := 100000
  capOracle := servedGas
  capBlobOracle _ := none
  send := servedSend broadcast
  conflictReceipt := servedReceipts included
  clients := [client]
  write := true
  writeLoser := true
  nowWrite := 0

def servedCompete (newId : TransactionId) (broadcast : Except String Unit) (client : RpcClient) :
    CompeteEnv where
  guard := true
  newId := newId
  now := 0
  expiresAt := 1000000
  send := servedSend broadcast
  clients := [client]
  write := true
  nowWrite := 0

def servedStartup (client : RpcClient) : StartupEnv where
  providerFound := true
  safeProxies := []
  maxGasPriceMultiplier := 4
  blocksEvery := 1000
  confirmations := 12
  supportsBlobs := false
  gasBumpConfig := ⟨10, 5, 4, 2⟩
  repairPoisoned := true
  clients := [client]
  loadCandidates := true
  loadAttempts _ := true
  recoverLanded _ := true
  repairAbsent := true
  nowRepair := 0
  repopulate := true
  startupClients := [client]

def freshQueue : TransactionsQueue where
  relayer := ⟨0, 1, 7, none, false, true⟩
  safeProxies := []
  maxGasPriceMultiplier := 4
  pendingTransactions := []
  inmempoolTransactions := []
  minedTransactions := []
  nonceManager := ⟨0⟩
  blocksEvery := 1000
  confirmations := 12
  supportsBlobs := false
  gasBumpConfig := ⟨10, 5, 4, 2⟩

/-- A relayer that has just come up and has nothing to do. -/
def freshRelayer : TransactionsQueues where
  relayer := freshQueue.relayer
  queue := some freshQueue
  blockTimeMs := some 1000
  db := .empty
  broadcasts := []
  chain := .empty

/-- A payment of the given amount. -/
def payment (id : TransactionId) (value : TransactionValue) : TransactionToSend :=
  ⟨id, 9, value, [], .fast, none, none⟩

/-- The envelope a payment is signed as at these fees. -/
def paymentEnvelope (nonce value priorityFee maxFee : ℕ) : SignedTransaction :=
  ⟨⟨1, nonce, 25200, 9, value, [], .eip1559 priorityFee maxFee⟩, 0⟩

def nonceTooLow : Except String Unit := .error "nonce too low"

end Rrelayer
