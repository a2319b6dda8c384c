import Rrelayer.Transaction
import Mathlib.Data.List.Basic

/-! Queries over all configured RPC clients, and the search for a landed attempt. -/
namespace Rrelayer

/-- The answers one RPC client gives during a pass: whether it knows a transaction, mined or
in its mempool, and the account's pending nonce. -/
structure RpcClient where
  getTransactionByHash : TransactionHash → Except String Bool
  getTransactionCount : Except String ℕ

def noRpcProviders : String := "no RPC providers configured"

/-- The loop of `transaction_exists_across_clients`; the first error is kept. -/
def transactionExistsLoop (hash : TransactionHash) :
    List RpcClient → Option String → Except String Bool
  | [], none => .ok false
  | [], some e => .error e
  | c :: cs, firstError =>
      match c.getTransactionByHash hash with
      | .ok true => .ok true
      | .ok false => transactionExistsLoop hash cs firstError
      | .error e => transactionExistsLoop hash cs (firstError.or (some e))

/-- Known when any client knows it, absent only when every client says so. -/
def transactionExistsAcrossClients (clients : List RpcClient) (hash : TransactionHash) :
    Except String Bool :=
  if clients.isEmpty then .error noRpcProviders else transactionExistsLoop hash clients none

/-- The loop of `pending_nonce_across_clients`. -/
def pendingNonceLoop : List RpcClient → Option ℕ → Option String → Except String ℕ
  | [], _, some e => .error e
  | [], some n, none => .ok n
  | [], none, none => .error noRpcProviders
  | c :: cs, maxNonce, firstError =>
      match c.getTransactionCount with
      | .ok n => pendingNonceLoop cs (some (maxNonce.elim n fun m => max m n)) firstError
      | .error e => pendingNonceLoop cs maxNonce (firstError.or (some e))

def pendingNonceAcrossClients (clients : List RpcClient) : Except String ℕ :=
  if clients.isEmpty then .error noRpcProviders else pendingNonceLoop clients none none

structure RecordedTransactionAttempt where
  hash : TransactionHash
  sentWithGas : Option GasPriceResult
  sentWithBlobGas : Option BlobGasPriceResult
  deriving DecidableEq, Repr

/-- The loop of `find_landed_attempt`: every attempt is looked up, the first known one kept. -/
def findLandedLoop (transactionExists : TransactionHash → Except String Bool) :
    List RecordedTransactionAttempt → Option RecordedTransactionAttempt →
      Except String (Option RecordedTransactionAttempt)
  | [], landed => .ok landed
  | a :: as, landed =>
      match transactionExists a.hash with
      | .error e => .error e
      | .ok found => findLandedLoop transactionExists as
          (if found && landed.isNone then some a else landed)

def findLandedAttempt (clients : List RpcClient) (attempts : List RecordedTransactionAttempt) :
    Except String (Option RecordedTransactionAttempt) :=
  findLandedLoop (transactionExistsAcrossClients clients) attempts none

section Lookups

variable {clients : List RpcClient} {hash : TransactionHash}

theorem transactionExistsLoop_true {err : Option String} :
    transactionExistsLoop hash clients err = .ok true ↔
      ∃ c ∈ clients, c.getTransactionByHash hash = .ok true := by
  induction clients generalizing err with
  | nil => cases err <;> simp [transactionExistsLoop]
  | cons c cs ih =>
    rw [transactionExistsLoop]
    split <;> simp_all

theorem transactionExistsLoop_false {err : Option String} :
    transactionExistsLoop hash clients err = .ok false ↔
      err = none ∧ ∀ c ∈ clients, c.getTransactionByHash hash = .ok false := by
  induction clients generalizing err with
  | nil => cases err <;> simp [transactionExistsLoop]
  | cons c cs ih =>
    rw [transactionExistsLoop]
    split <;> simp_all

/-- Found means that some client knows the transaction. -/
theorem transactionExists_true :
    transactionExistsAcrossClients clients hash = .ok true ↔
      ∃ c ∈ clients, c.getTransactionByHash hash = .ok true := by
  cases clients <;> simp [transactionExistsAcrossClients, transactionExistsLoop_true]

/-- Absent means that there is a client and that every client reports it absent. -/
theorem transactionExists_false :
    transactionExistsAcrossClients clients hash = .ok false ↔
      clients ≠ [] ∧ ∀ c ∈ clients, c.getTransactionByHash hash = .ok false := by
  cases clients <;> simp [transactionExistsAcrossClients, transactionExistsLoop_false]

end Lookups

section Counts

theorem pendingNonceLoop_ok {clients : List RpcClient} {acc : Option ℕ} {err : Option String}
    {n : ℕ} (h : pendingNonceLoop clients acc err = .ok n) :
    acc = some n ∨ ∃ c ∈ clients, c.getTransactionCount = .ok n := by
  induction clients generalizing acc err with
  | nil =>
    cases err with
    | some e => simp [pendingNonceLoop] at h
    | none => cases acc <;> simp_all [pendingNonceLoop]
  | cons c cs ih =>
    rw [pendingNonceLoop] at h
    have htail {P : Prop} (hn : (∃ c ∈ cs, c.getTransactionCount = .ok n)) :
        P ∨ ∃ c' ∈ c :: cs, c'.getTransactionCount = .ok n := by
      obtain ⟨c', hc', hn⟩ := hn
      exact .inr ⟨c', List.mem_cons_of_mem _ hc', hn⟩
    split at h
    · rename_i k hk
      rcases ih h with hacc | hn
      · have hmax : n = k ∨ acc = some n := by
          cases acc with
          | none => exact .inl (Option.some.inj hacc).symm
          | some m =>
            have hn : max m k = n := Option.some.inj hacc
            rcases Nat.le_total m k with hle | hle
            · exact .inl (by omega)
            · exact .inr (congrArg some (by omega))
        rcases hmax with rfl | hacc
        · exact .inr ⟨c, List.mem_cons_self .., hk⟩
        · exact .inl hacc
      · exact htail hn
    · exact (ih h).elim .inl htail

/-- The nonce reported for all clients is the answer of one of them. -/
theorem pendingNonceAcrossClients_mem {clients : List RpcClient} {n : ℕ}
    (h : pendingNonceAcrossClients clients = .ok n) :
    ∃ c ∈ clients, c.getTransactionCount = .ok n := by
  unfold pendingNonceAcrossClients at h
  split at h
  · cases h
  · rcases pendingNonceLoop_ok h with hacc | hn
    · cases hacc
    · exact hn

end Counts

/-- The answer that some client knows the transaction. -/
def isKnown : Except String Bool → Bool
  | .ok known => known
  | .error _ => false

section Landed

variable {look : TransactionHash → Except String Bool} {attempts : List RecordedTransactionAttempt}

/-- Once an attempt is kept the loop only checks that the other lookups succeed. -/
theorem findLandedLoop_some {a : RecordedTransactionAttempt}
    {landed : Option RecordedTransactionAttempt} :
    findLandedLoop look attempts (some a) = .ok landed ↔
      landed = some a ∧ ∀ b ∈ attempts, ∃ r, look b.hash = .ok r := by
  induction attempts with
  | nil => simp [findLandedLoop, eq_comm]
  | cons b bs ih =>
    rw [findLandedLoop]
    split <;> simp_all

theorem findLandedLoop_none :
    findLandedLoop look attempts none = .ok none ↔
      ∀ a ∈ attempts, look a.hash = .ok false := by
  induction attempts with
  | nil => simp [findLandedLoop]
  | cons b bs ih =>
    rw [findLandedLoop]
    cases h : look b.hash with
    | error e => simp [h]
    | ok found => cases found <;> simp [h, ih, findLandedLoop_some]

/-- The attempt kept is the first one that is known, and no lookup failed. -/
theorem findLandedLoop_found {a : RecordedTransactionAttempt} :
    findLandedLoop look attempts none = .ok (some a) ↔
      (∀ b ∈ attempts, ∃ r, look b.hash = .ok r) ∧
        attempts.find? (fun b => isKnown (look b.hash)) = some a := by
  induction attempts with
  | nil => simp [findLandedLoop]
  | cons b bs ih =>
    rw [findLandedLoop]
    cases h : look b.hash with
    | error e => simp [h]
    | ok found =>
      cases found
      · simp [h, ih, isKnown]
      · simp only [h, Bool.true_and, Option.isNone_none, ↓reduceIte, findLandedLoop_some,
          Option.some.injEq, List.mem_cons, forall_eq_or_imp, Except.ok.injEq, exists_eq',
          true_and, isKnown, List.find?_cons_of_pos]
        rw [eq_comm (a := a), and_comm]

end Landed
end Rrelayer
