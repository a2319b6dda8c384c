import Rrelayer.HandedAttempts

/-! The types of the attempts at one nonce: nodes replace a blob transaction only by another. -/
namespace Rrelayer

def SignedTransaction.isBlob (signed : SignedTransaction) : Bool := signed.transaction.fees.isBlob

namespace Attempt

/-- Whose place a transaction takes, as its first attempt says. -/
def subjectOf (attempts : List Attempt) (x : TransactionId) : Option TransactionId :=
  (attempts.reverse.find? (·.copy.id == x)).map (·.subject)

/-- The transaction has a blob attempt at the nonce, of its own or of a competitor. -/
def SentAsBlob (attempts : List Attempt) (subject : TransactionId) (nonce : TransactionNonce) :
    Prop :=
  ∃ b ∈ attempts, subjectOf attempts b.copy.id = some subject ∧ b.signed.nonce = nonce ∧
    b.signed.isBlob = true

instance (attempts : List Attempt) (subject : TransactionId) (nonce : TransactionNonce) :
    Decidable (SentAsBlob attempts subject nonce) := by
  unfold SentAsBlob
  infer_instance

/-- An attempt at the given nonce follows a blob attempt for the same transaction. -/
def FollowsBlob (older : List Attempt) (a : Attempt) (nonce : TransactionNonce) : Prop :=
  SentAsBlob older ((subjectOf older a.copy.id).getD a.subject) nonce

instance (older : List Attempt) (a : Attempt) (nonce : TransactionNonce) :
    Decidable (FollowsBlob older a nonce) := by
  unfold FollowsBlob
  infer_instance

/-- What was broadcast as a blob transaction is only followed by blob transactions. -/
def KeepsBlobType (older : List Attempt) (a : Attempt) : Prop :=
  FollowsBlob older a a.signed.nonce → a.signed.isBlob = true

instance (older : List Attempt) (a : Attempt) : Decidable (KeepsBlobType older a) := by
  unfold KeepsBlobType
  infer_instance

end Attempt

namespace TransactionsQueues

variable {s : TransactionsQueues} {e : Event} {a : Attempt}

/-- A send for a transaction that was broadcast as a blob transaction at its nonce starts from a
copy that still has blobs, and that no expiry check converts. -/
def KeepsBlobs (j : AttemptJournal) (e : Event) : Prop :=
  ∀ a ∈ j.state.hands e, a.FollowsBlob j.entries a.copy.nonce →
    a.copy.isBlobTransaction = true ∧ convertsToNoop a.env a.copy = false

theorem keepsBlobType_iff {older : List Attempt} (h : s.hands e = some a) :
    a.KeepsBlobType older ↔ (a.FollowsBlob older a.copy.nonce →
      a.copy.isBlobTransaction = true ∧ convertsToNoop a.env a.copy = false) := by
  obtain ⟨-, ⟨t', sent, hprepare⟩, -⟩ := hands_some h
  have hspec := prepareSend_spec a.config a.env a.copy
  rw [hprepare] at hspec
  have hnonce : a.signed.nonce = a.copy.nonce := (hspec.2 a.signed sent rfl).nonce
  have htype : a.signed.isBlob = (a.copy.isBlobTransaction && !convertsToNoop a.env a.copy) :=
    (prepareSend_type hprepare).1
  unfold Attempt.KeepsBlobType
  rw [hnonce, htype]
  simp

/-- In a run, blob transactions are followed by blob transactions alone exactly when every send
for one starts from a copy that still is one. -/
theorem blobs_replaced_by_blobs_iff (s : TransactionsQueues) (es : List Event) :
    EventMachine.Each (fun older a => a.KeepsBlobType older) (s.attempts es) ↔
      EventMachine.Along noteStep KeepsBlobs ⟨s, []⟩ es := by
  unfold attempts
  rw [EventMachine.each_run_iff]
  simp only [EventMachine.Each, and_true]
  constructor
  · intro h
    apply h.mono
    intro j e hall a ha
    exact (keepsBlobType_iff ha).mp (hall a ha)
  · intro h
    apply h.mono
    intro j e hkeeps a ha
    exact (keepsBlobType_iff ha).mpr (hkeeps a ha)

/-- A relayer whose wallet signs blob transactions. -/
def blobRelayer : TransactionsQueues :=
  { freshRelayer with queue := some { freshQueue with supportsBlobs := true } }

def servedBlobGas : BlobGasOracle := fun _ => some (blobPrice 10)

def servedBlobSend : SendEnv := { servedSend (.ok ()) with blobOracle := servedBlobGas }

/-- A payment with a blob waits in the mempool and is cancelled. -/
def blobCancelled : List Event := [
  .add { servedAdd 0 with blobOracle := servedBlobGas, send := servedBlobSend }
    { payment 0 5 with blobs := some [[1]] },
  .processPending { servedPending (.ok ()) (servedClient [] 0) [] with send := servedBlobSend },
  .cancel (servedCompete 1 (.ok ()) (servedClient [] 0)) 0]

theorem blobs_replaced_by_blobs_fails : ¬ ∀ (s : TransactionsQueues) (es : List Event),
    EventMachine.Each (fun older a => a.KeepsBlobType older) (s.attempts es) := by
  intro hkept
  have hcancelled := hkept blobRelayer blobCancelled
  revert hcancelled
  decide +kernel

example : (blobRelayer.attempts blobCancelled).map (fun a => (a.subject, a.signed.isBlob)) =
    [(0, false), (0, true)] := by decide +kernel

end TransactionsQueues
end Rrelayer
