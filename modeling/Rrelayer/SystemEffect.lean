import Rrelayer.System
import Rrelayer.PendingEffect
import Rrelayer.InmempoolEffect
import Rrelayer.RequestEffect

/-! The system's steps as actions of the book, and what a startup keeps of the database. -/
namespace Rrelayer

/-- The id an event brings into the system. -/
def Event.newId : Event → Option TransactionId
  | .add _ toSend => some toSend.id
  | .cancel env _ => some env.newId
  | .replace env _ _ => some env.newId
  | _ => none

/-- The providers an event asks for the account's nonce. -/
def Event.clients : Event → List RpcClient
  | .add env _ => env.clients
  | .cancel env _ | .replace env _ _ => env.clients
  | .processPending env => env.clients
  | .processInmempool env => env.clients
  | .restart env => env.startupClients
  | .processMined _ | .included _ => []

namespace TransactionsQueues

def stepAction (s : TransactionsQueues) (e : Event) : Action :=
  match s.lock with
  | none => .keep
  | some l =>
      match e with
      | .add env toSend => l.addAction env toSend
      | .cancel env id => l.cancelAction env id
      | .replace env request id => l.replaceAction env request id
      | .processPending env => l.pendingAction env
      | .processInmempool env => l.inmempoolAction env
      | .processMined _ | .restart _ | .included _ => .keep

theorem lock_some {s : TransactionsQueues} {l : Locked} (h : s.lock = some l) :
    s.queue = some l.queue ∧ l.db = s.db ∧ l.broadcasts = s.broadcasts := by
  obtain ⟨q, hq, rfl⟩ := Option.map_eq_some_iff.mp h
  exact ⟨hq, rfl, rfl⟩

theorem stepAction_locked {s : TransactionsQueues} {l : Locked} {e : Event}
    (hl : s.lock = some l) :
    s.stepAction e = match e with
      | .add env toSend => l.addAction env toSend
      | .cancel env id => l.cancelAction env id
      | .replace env request id => l.replaceAction env request id
      | .processPending env => l.pendingAction env
      | .processInmempool env => l.inmempoolAction env
      | .processMined _ | .restart _ | .included _ => .keep := by
  cases e <;> simp only [stepAction, hl]

/-- No action goes beyond the providers' answers and the next nonce. -/
theorem stepAction_newNonce {s : TransactionsQueues} {l : Locked} {e : Event} {m : ℕ}
    (hl : s.lock = some l) (h : m ∈ (s.stepAction e).newNonce) :
    ∃ n, pendingNonceAcrossClients e.clients = .ok n ∧ m ≤ max n l.queue.nonceManager.nonce := by
  have hrecovered {clients : List RpcClient}
      (hrecover : l.recoverNonceSynchronization clients = .ok m) :
      ∃ n, pendingNonceAcrossClients clients = .ok n ∧
        m ≤ max n l.queue.nonceManager.nonce := by
    obtain ⟨n, hn, rfl⟩ := Locked.recoverNonceSynchronization_ok hrecover
    exact ⟨n, hn, Nat.le_refl _⟩
  unfold stepAction at h
  rw [hl] at h
  cases e with
  | add env toSend => exact ⟨m, Locked.addAction_newNonce h, Nat.le_max_left ..⟩
  | cancel env id =>
    have hnone := l.cancelAction_newNonce env id
    dsimp only at h
    rw [hnone] at h
    cases h
  | replace env request id =>
    have hnone := l.replaceAction_newNonce env request id
    dsimp only at h
    rw [hnone] at h
    cases h
  | processPending env => exact hrecovered (Locked.pendingAction_newNonce h)
  | processInmempool env => exact hrecovered (Locked.inmempoolAction_newNonce h)
  | processMined | restart | included => cases h

/-- The actions each event can come to. -/
inductive Yields : Event → Action → Prop where
  | keep (e : Event) : Yields e .keep
  | refuse (env : AdmissionEnv) (toSend : TransactionToSend) (m : ℕ) :
      Yields (.add env toSend) (.refuse toSend.id m)
  | reserve (env : AdmissionEnv) (toSend : TransactionToSend) (m : ℕ) :
      Yields (.add env toSend) (.reserve toSend.id m)
  | launch (env : PendingEnv) (id : TransactionId) (hash : TransactionHash) :
      Yields (.processPending env) (.launch id hash)
  | movePending (env : PendingEnv) (id : TransactionId) (m : ℕ) :
      Yields (.processPending env) (.movePending id m)
  | cancel (env : CompeteEnv) (id : TransactionId) (original : Transaction)
      (o : Locked.CompetitorOutcome) :
      Yields (.cancel env id) (Locked.competitorAction env original o)
  | replace (env : CompeteEnv) (request : RelayTransactionRequest) (id : TransactionId)
      (original : Transaction) (o : Locked.CompetitorOutcome) :
      Yields (.replace env request id) (Locked.competitorAction env original o)
  | record (env : InmempoolEnv) (hash : TransactionHash) :
      Yields (.processInmempool env) (.record hash)
  | moveInmempool (env : InmempoolEnv) (id : TransactionId) (m : ℕ) :
      Yields (.processInmempool env) (.moveInmempool id m)
  | resolve (env : InmempoolEnv) (hash : TransactionHash) (receipt : Receipt)
      (h : env.pollReceipt hash = .ok (some receipt)) :
      Yields (.processInmempool env) (.resolve hash)

theorem addAction_yields (l : Locked) (env : AdmissionEnv) (toSend : TransactionToSend) :
    Yields (.add env toSend) (l.addAction env toSend) := by
  unfold Locked.addAction
  split
  · exact .keep _
  · exact .keep _
  · split
    · exact .keep _
    · split
      · exact .keep _
      · unfold Locked.admissionAction
        dsimp only
        split
        · exact .refuse ..
        · split
          · exact .refuse ..
          · split
            · exact .reserve ..
            · exact .refuse ..

theorem pendingAction_yields (l : Locked) (env : PendingEnv) :
    Yields (.processPending env) (l.pendingAction env) := by
  have hconflict (l : Locked) (id : TransactionId) :
      Yields (.processPending env) (l.pendingConflictAction env id) := by
    unfold Locked.pendingConflictAction
    dsimp only
    split
    · exact .keep _
    · split
      · exact .keep _
      · split
        · exact .keep _
        · split
          · exact .movePending ..
          · exact .keep _
      · split
        · exact .launch ..
        · exact .keep _
  unfold Locked.pendingAction
  split
  · exact .keep _
  · split
    · exact .launch ..
    · split
      · exact hconflict _ _
      · exact .keep _
    · exact .keep _

theorem inmempoolAction_yields (l : Locked) (env : InmempoolEnv) :
    Yields (.processInmempool env) (l.inmempoolAction env) := by
  have hconflict (l : Locked) (t : Transaction) :
      Yields (.processInmempool env) (l.bumpConflictAction env t) := by
    unfold Locked.bumpConflictAction
    extract_lets free
    split
    · exact .keep _
    · split
      · exact .keep _
      · split
        · exact .moveInmempool ..
        · exact .keep _
  unfold Locked.inmempoolAction
  split
  · exact .keep _
  · split
    · exact .keep _
    · rename_i hreceipt
      exact .resolve _ _ _ hreceipt
    · split
      · split
        · exact .record ..
        · split
          · exact hconflict _ _
          · exact .keep _
        · exact .keep _
      · exact .keep _

theorem stepAction_yields (s : TransactionsQueues) (e : Event) : Yields e (s.stepAction e) := by
  unfold stepAction
  split
  · exact .keep _
  · cases e with
    | add env toSend => exact addAction_yields ..
    | cancel env id =>
      dsimp only [Locked.cancelAction]
      split
      · exact .keep _
      · exact .cancel ..
    | replace env request id =>
      dsimp only [Locked.replaceAction]
      split
      · exact .keep _
      · exact .replace ..
    | processPending env => exact pendingAction_yields ..
    | processInmempool env => exact inmempoolAction_yields ..
    | processMined | restart | included => exact .keep _

/-- A competitor that is attached has the event's new id. -/
theorem Yields.attach {e : Event} {id : TransactionId} {hash : TransactionHash}
    (h : Yields e (.attach id hash)) : id ∈ e.newId := by
  generalize ha : Action.attach id hash = a at h
  cases h with
  | cancel env _ original o | replace env _ _ original o =>
    cases o <;> cases ha
    rfl
  | _ => cases ha

/-- An entry is only resolved by a receipt of its hash. -/
theorem Yields.receipt {e : Event} {hash : TransactionHash} (h : Yields e (.resolve hash)) :
    ∃ env receipt, e = .processInmempool env ∧ env.pollReceipt hash = .ok (some receipt) := by
  generalize ha : Action.resolve hash = a at h
  cases h with
  | resolve env hash' receipt hreceipt =>
    cases ha
    exact ⟨env, receipt, rfl, hreceipt⟩
  | cancel env _ original o | replace env _ _ original o => cases o <;> cases ha
  | _ => cases ha

/-- How the state can change in one step. -/
inductive Change (s : TransactionsQueues) (e : Event) : TransactionsQueues → Prop where
  /-- Nothing happened: the relayer is offline, or the envelope is not includable. -/
  | idle : Change s e s
  | acted {l l' : Locked} (hl : s.lock = some l) (h : l.Effect (s.stepAction e) l') :
      Change s e (s.unlock l')
  | confirmed {l : Locked} (env : MinedEnv) (he : e = .processMined env) (hl : s.lock = some l) :
      Change s e (s.unlock (l.processSingleMined env).1)
  | restarted (env : StartupEnv) (he : e = .restart env) : Change s e (s.startup env)
  | extended (signed : SignedTransaction) (he : e = .included signed)
      (h : signed.nonce = s.chain.length) :
      Change s e { s with chain := s.chain.push signed h }

theorem step_change (s : TransactionsQueues) (e : Event) : Change s e (s.step e) := by
  have hacted {ρ : Type} (operation : Locked → Locked × ρ)
      (h : ∀ l, s.lock = some l → l.Effect (s.stepAction e) (operation l).1) :
      Change s e (s.locked operation) := by
    rcases hl : s.lock with _ | l
    · rw [locked_of_none operation hl]
      exact .idle
    · rw [locked_of_some operation hl]
      exact .acted hl (h l hl)
  cases e with
  | add env toSend =>
    refine hacted _ fun l hl => ?_
    rw [stepAction_locked hl]
    exact l.addTransaction_effect env toSend
  | cancel env id =>
    refine hacted _ fun l hl => ?_
    rw [stepAction_locked hl]
    exact l.cancelTransaction_effect env id
  | replace env request id =>
    refine hacted _ fun l hl => ?_
    rw [stepAction_locked hl]
    exact l.replaceTransaction_effect env request id
  | processPending env =>
    refine hacted _ fun l hl => ?_
    rw [stepAction_locked hl]
    exact l.processSinglePending_effect env
  | processInmempool env =>
    refine hacted _ fun l hl => ?_
    rw [stepAction_locked hl]
    exact l.processSingleInmempool_effect env
  | processMined env =>
    show Change s _ (s.locked _)
    rcases hl : s.lock with _ | l
    · rw [locked_of_none _ hl]
      exact .idle
    · rw [locked_of_some _ hl]
      exact .confirmed env rfl hl
  | restart env => exact .restarted env rfl
  | included signed =>
    show Change s _ (s.includeSigned signed)
    unfold includeSigned
    split
    · exact .extended signed rfl (by assumption)
    · exact .idle

/-- The chain only grows. -/
theorem chain_extends (s : TransactionsQueues) (e : Event) : s.chain.Extends (s.step e).chain := by
  have hchange := step_change s e
  generalize s.step e = s' at hchange ⊢
  cases hchange with
  | idle => exact .refl _
  | acted => exact .refl _
  | confirmed => exact .refl _
  | restarted => exact .refl _
  | extended signed _ h => exact Ledger.extends_push _ signed h

end TransactionsQueues
end Rrelayer
