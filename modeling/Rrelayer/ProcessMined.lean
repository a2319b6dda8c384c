import Rrelayer.TransactionsQueues

/-! One pass over a mined transaction that waits for its confirmations. -/
namespace Rrelayer

inductive ProcessMinedStatus where
  | success | notConfirmedYet | noMinedTransactions
  deriving DecidableEq, Repr

inductive ProcessMinedTransactionError where
  | relayerTransactionsQueueNotFound (relayerId : RelayerId)
  | transactionConfirmedNotSaveToDatabase (relayerId : RelayerId) (relayerAddress : EvmAddress)
      (transaction : Transaction)
  | noMinedAt (relayerId : RelayerId) (relayerAddress : EvmAddress) (transaction : Transaction)
  | couldNotGetTransactionReceipt (relayerId : RelayerId) (relayerAddress : EvmAddress)
      (transaction : Transaction) (error : String)
  deriving DecidableEq, Repr

abbrev MinedResult := Except ProcessMinedTransactionError (ProcessResult ProcessMinedStatus)

/-- What a mined pass asks of the outside; `pick` is the hash map's choice of an entry. -/
structure MinedEnv where
  guard : Bool
  pick : ℕ
  now : DateTime
  getReceipt : TransactionHash → Except String (Option Receipt)
  write : Bool
  nowWrite : DateTime

namespace Locked

def noReceipt : String := "No receipt"
def transactionHashNotFound : String := "Transaction hash not found"

def confirmMined (l : Locked) (env : MinedEnv) (t : Transaction) : Locked × MinedResult :=
  let receiptError (e : String) : Locked × MinedResult :=
    (l, .error (.couldNotGetTransactionReceipt l.queue.relayer.id l.queue.relayer.address t e))
  match t.knownTransactionHash with
  | none => receiptError transactionHashNotFound
  | some hash =>
      match env.getReceipt hash with
      | .error e => receiptError e
      | .ok none => receiptError noReceipt
      | .ok (some _) =>
          if env.write then
            ({ l with
              db := l.db.transactionConfirmed t.id env.nowWrite
              queue := l.queue.moveMiningToConfirmed t.id },
              .ok ⟨.success, 10⟩)
          else (l, .error (.transactionConfirmedNotSaveToDatabase l.queue.relayer.id
              l.queue.relayer.address t))

def processSingleMined (l : Locked) (env : MinedEnv) : Locked × MinedResult :=
  match l.queue.getNextMinedTransaction env.pick with
  | none => (l, .ok (.other .noMinedTransactions none))
  | some t =>
      if !env.guard then (l, .error (.relayerTransactionsQueueNotFound l.queue.relayer.id))
      else match t.minedAt with
        | none => (l, .error (.noMinedAt l.queue.relayer.id l.queue.relayer.address t))
        | some minedAt =>
            if l.queue.inConfirmedRange (TransactionsQueue.asU64 (env.now - minedAt)) then
              l.confirmMined env t
            else (l, .ok (.other .notConfirmedYet none))

/-- A mined pass leaves the relayer as it is or confirms the transaction the map yields. -/
theorem processSingleMined_cases (l : Locked) (env : MinedEnv) :
    (l.processSingleMined env).1 = l ∨
    ∃ t, l.queue.getNextMinedTransaction env.pick = some t ∧
      (l.processSingleMined env).1 = { l with
        db := l.db.transactionConfirmed t.id env.nowWrite
        queue := l.queue.moveMiningToConfirmed t.id } := by
  unfold processSingleMined
  rcases hnext : l.queue.getNextMinedTransaction env.pick with _ | t
  · exact .inl rfl
  · dsimp only
    split
    · exact .inl rfl
    · split
      · exact .inl rfl
      · split
        · unfold confirmMined
          dsimp only
          split
          · exact .inl rfl
          · split
            · exact .inl rfl
            · exact .inl rfl
            · split
              · exact .inr ⟨t, rfl, rfl⟩
              · exact .inl rfl
        · exact .inl rfl

end Locked
end Rrelayer
