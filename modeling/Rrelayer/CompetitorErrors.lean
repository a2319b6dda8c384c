import Rrelayer.GasBumps

/-! How cancel and replace read a node's refusal of their competitor, against the one classification
of send errors. -/
namespace Rrelayer

/-- What an operation does about a send that the node refused. -/
inductive SendErrorAction where
  | alreadyInMempool | nonceConflict | fail
  deriving DecidableEq, Repr

def SendErrorClass.action : SendErrorClass → SendErrorAction
  | .alreadyKnown => .alreadyInMempool
  | .nonceConflict => .nonceConflict
  | _ => .fail

/-- How a cancel or replace of an in-mempool original ended. -/
inductive RaceAnswer where
  | accepted
  | synchronized
  | failed (error : TransactionQueueSendTransactionError)
  deriving DecidableEq, Repr

/-- The request with other answers to the lookup of the chain's nonce. -/
def Event.withClients (clients : List RpcClient) : Event → Event
  | .cancel env id => .cancel { env with clients := clients } id
  | .replace env request id => .replace { env with clients := clients } request id
  | e => e

namespace Locked

/-- What a request answers about the outcome of its competitor; a database error is no answer. -/
def CompetitorOutcome.answer : CompetitorOutcome → Option RaceAnswer
  | .attached _ => some .accepted
  | .sendFailed e => some (.failed e)
  | .synchronized => some .synchronized
  | .couldNotUpdateDb => none

def raceAnswer (l : Locked) : Event → Option RaceAnswer
  | .cancel env id =>
      match (l.cancelTransaction env id).2 with
      | .ok _ => some .accepted
      | .error .nonceSynchronizationRecovered => some .synchronized
      | .error (.sendTransactionError e) => some (.failed e)
      | .error _ => none
  | .replace env request id =>
      match (l.replaceTransaction env request id).2 with
      | .ok _ => some .accepted
      | .error .nonceSynchronizationRecovered => some .synchronized
      | .error (.sendTransactionError e) => some (.failed e)
      | .error _ => none
  | _ => none

/-- The request answers the refusal as the action asks for, whatever the lookup of the chain's
nonce says. Only a conflict makes it look. -/
def Takes (l : Locked) (e : Event) (error : String) : SendErrorAction → Prop
  | .alreadyInMempool => ∀ clients, l.raceAnswer (e.withClients clients) = some .accepted
  | .nonceConflict => ∀ clients, l.raceAnswer (e.withClients clients) =
      some (if (pendingNonceAcrossClients clients).isOk then .synchronized
        else .failed (.transactionSendError error))
  | .fail => ∀ clients, l.raceAnswer (e.withClients clients) =
      some (.failed (.transactionSendError error))

end Locked

/-- The four conflict wordings that the classification and the competitors share. -/
def sharedNonceWordings : List String :=
  ["nonce too low", "nonce is too low", "invalid nonce", "nonce has already been used"]

/-- The messages both read the same way: a permanent rejection that quotes none of the wordings a
competitor looks for, or no known transaction and no conflict in the one wording it lacks. -/
def ReadAlike (msg : String) : Prop :=
  if permanentWordings.any (contains msg) then competitorNonceWordings.any (contains msg) = false
  else knownWordings.any (contains msg) = false ∧
    (contains msg "oldnonce" = true → sharedNonceWordings.any (contains msg) = true)

instance (msg : String) : Decidable (ReadAlike msg) := by
  unfold ReadAlike
  infer_instance

/-- The action of cancel and replace. -/
def competitorErrorAction (error : String) : SendErrorAction :=
  if isCompetitorNonceIssue error then .nonceConflict else .fail

theorem competitorNonceWordings_any (p : String → Bool) :
    competitorNonceWordings.any p = (sharedNonceWordings.any p || p "already known") := by
  simp [competitorNonceWordings, sharedNonceWordings, Bool.or_assoc]

theorem nonceWordings_any (p : String → Bool) :
    nonceWordings.any p = (sharedNonceWordings.any p || p "oldnonce") := by
  simp [nonceWordings, sharedNonceWordings, Bool.or_assoc]

theorem knownWordings_none {p : String → Bool} (h : knownWordings.any p = false) :
    p "already known" = false := by
  have hall := List.any_eq_false.mp h "already known" (by simp [knownWordings])
  simpa using hall

/-- On its own the competitors' reading agrees with the class on those messages only. -/
theorem competitorErrorAction_iff (error : String) :
    competitorErrorAction error = (errorClass error).action ↔ ReadAlike (toLowercase error) := by
  unfold competitorErrorAction isCompetitorNonceIssue errorClass classifySendError ReadAlike
  generalize toLowercase error = msg
  by_cases hpermanent : permanentWordings.any (contains msg) = true
  · simp only [hpermanent, if_true, SendErrorClass.action]
    cases competitorNonceWordings.any (contains msg) <;> simp
  simp only [hpermanent]
  by_cases hknown : knownWordings.any (contains msg) = true
  · simp only [hknown, if_true, SendErrorClass.action]
    cases competitorNonceWordings.any (contains msg) <;> simp
  have hnone : knownWordings.any (contains msg) = false := by simpa using hknown
  rw [competitorNonceWordings_any, nonceWordings_any, knownWordings_none hnone]
  simp only [hnone]
  -- The classes behind a conflict all fail.
  cases sharedNonceWordings.any (contains msg) <;> cases contains msg "oldnonce"
  · cases fundsWordings.any (contains msg) <;> cases underpricedWordings.any (contains msg)
    all_goals simp [SendErrorClass.action]
  all_goals simp [SendErrorClass.action]

namespace Locked

variable {l l' : Locked} {env : CompeteEnv} {e : Event} {original competitor t : Transaction}
  {error : String}

theorem cancelTransaction_raced {id : TransactionId} (hraced : l.raced env id = some original)
    (hcompetitor : l.cancelCompetitor env original = some competitor) :
    (l.cancelTransaction env id).2 =
      cancelResult env.newId (l.sendCompetitor env original competitor .cancel).2 := by
  obtain ⟨gas, hgas, rfl⟩ := Option.map_eq_some_iff.mp hcompetitor
  obtain ⟨hpaused, hguard, heditable⟩ := raced_some hraced
  unfold cancelTransaction
  rw [hpaused, heditable]
  simp only [hguard, Bool.not_true, Bool.false_eq_true, if_false]
  unfold cancelInmempool
  rw [hgas]

theorem replaceTransaction_raced {request : RelayTransactionRequest} {id : TransactionId}
    (hraced : l.raced env id = some original)
    (hcompetitor : l.replaceCompetitor env request original = some competitor) :
    (l.replaceTransaction env request id).2 =
      replaceResult env.newId (l.sendCompetitor env original competitor .replace).2 := by
  obtain ⟨externalId, blobs, gas, gasLimit, blobGas, hexternal, hblobs, hgas, hlimit, hblobGas,
    rfl⟩ := replaceCompetitor_some hcompetitor
  obtain ⟨hpaused, hguard, heditable⟩ := raced_some hraced
  unfold replaceTransaction
  rw [hpaused, heditable]
  simp only [hguard, hexternal, Bool.not_true, Bool.false_eq_true, if_false]
  unfold replaceInmempool
  rw [hblobs, hgas, hlimit]
  dsimp only
  rw [hblobGas]

/-- What a competitor's refusal leads to. -/
theorem sendCompetitor_refused {type : CompetitionType}
    (hsend : l.send env.send competitor = (t, l', .error (.transactionSendError error))) :
    (l.sendCompetitor env original competitor type).2 =
      match competitorErrorAction error with
      | .nonceConflict => if (pendingNonceAcrossClients env.clients).isOk then .synchronized
          else .sendFailed (.transactionSendError error)
      | _ => .sendFailed (.transactionSendError error) := by
  unfold sendCompetitor competitorErrorAction
  rw [hsend]
  dsimp only
  by_cases hissue : isCompetitorNonceIssue error = true
  · simp only [hissue, if_true]
    unfold recoverNonceSynchronization
    cases pendingNonceAcrossClients env.clients <;> rfl
  · simp only [hissue]
    rfl

/-- Both requests answer what their competitor led to, which does not depend on the kind. -/
theorem raceAnswer_outcome (h : l.requested e = some (env, original, competitor))
    (clients : List RpcClient) {outcome : CompetitorOutcome}
    (houtcome : ∀ type, (l.sendCompetitor { env with clients := clients } original competitor
      type).2 = outcome) : l.raceAnswer (e.withClients clients) = outcome.answer := by
  rcases requested_cases h with ⟨id, rfl, hraced, hcompetitor⟩ |
    ⟨request, id, rfl, hraced, hcompetitor⟩
  · have hanswer := @cancelTransaction_raced l { env with clients := clients } original competitor
      id hraced hcompetitor
    unfold raceAnswer Event.withClients
    dsimp only
    rw [hanswer, houtcome]
    cases outcome <;> rfl
  · have hanswer := @replaceTransaction_raced l { env with clients := clients } original competitor
      request id hraced hcompetitor
    unfold raceAnswer Event.withClients
    dsimp only
    rw [hanswer, houtcome]
    cases outcome <;> rfl

/-- Both requests answer a refusal by the wordings they look for themselves. -/
theorem raceAnswer_refused (h : l.requested e = some (env, original, competitor))
    (hsend : l.send env.send competitor = (t, l', .error (.transactionSendError error)))
    (clients : List RpcClient) :
    l.raceAnswer (e.withClients clients) = some (match competitorErrorAction error with
      | .nonceConflict => if (pendingNonceAcrossClients clients).isOk then .synchronized
          else .failed (.transactionSendError error)
      | _ => .failed (.transactionSendError error)) := by
  -- Neither the competitor nor its send depends on the lookup that follows a refusal.
  have houtcome (type : CompetitionType) := @sendCompetitor_refused l l'
    { env with clients := clients } original competitor t error type hsend
  rw [raceAnswer_outcome h clients houtcome]
  cases competitorErrorAction error with
  | alreadyInMempool | fail => rfl
  | nonceConflict =>
    dsimp only
    cases (pendingNonceAcrossClients clients).isOk <;> rfl

/-- Their answers are those of one action. -/
theorem takes_iff (h : l.requested e = some (env, original, competitor))
    (hsend : l.send env.send competitor = (t, l', .error (.transactionSendError error)))
    (action : SendErrorAction) : l.Takes e error action ↔ competitorErrorAction error = action := by
  have hanswer := raceAnswer_refused h hsend
  have hserved : (pendingNonceAcrossClients [servedClient [] 0]).isOk = true := rfl
  constructor
  · intro htakes
    -- A lookup that is served tells the three actions apart.
    cases action
    all_goals
      have hseen := htakes [servedClient [] 0]
      rw [hanswer, hserved] at hseen
      unfold competitorErrorAction at hseen ⊢
      split at hseen
      · simp_all
      · simp_all
  · rintro rfl
    unfold Takes
    have hnot : competitorErrorAction error ≠ .alreadyInMempool := by
      unfold competitorErrorAction
      split
      · exact SendErrorAction.noConfusion
      · exact SendErrorAction.noConfusion
    cases haction : competitorErrorAction error with
    | alreadyInMempool => exact absurd haction hnot
    | nonceConflict =>
      intro clients
      rw [hanswer, haction]
    | fail =>
      intro clients
      rw [hanswer, haction]

/-- After a refused competitor, cancel and replace do what the class of the error asks for exactly
on the messages that both read alike. -/
theorem competitor_errors_classified_iff (h : l.requested e = some (env, original, competitor))
    (hsend : l.send env.send competitor = (t, l', .error (.transactionSendError error))) :
    l.Takes e error (errorClass error).action ↔ ReadAlike (toLowercase error) := by
  rw [takes_iff h hsend]
  exact competitorErrorAction_iff error

end Locked

namespace TransactionsQueues

/-- A cancel whose broadcast the node refuses with the given message. -/
def refusedCancel (error : String) : Event :=
  .cancel (servedCompete 1 (.error error) (servedClient [] 0)) 0

def sentPayment : List Event := sentAtPrice ⟨1, 10, none, none⟩

theorem competitor_errors_classified_timeout : ∃ (l : Locked),
    (freshRelayer.run sentPayment).lock = some l ∧
      (l.Takes (refusedCancel "timeout") "timeout" (errorClass "timeout").action ↔
        ReadAlike (toLowercase "timeout")) := by
  let s := freshRelayer.run sentPayment
  have hrefused : (s.lock.bind fun l => (l.requested (refusedCancel "timeout")).map fun r =>
      (l.send r.1.send r.2.2).2.2) = some (.error (.transactionSendError "timeout")) := by
    decide +kernel
  obtain ⟨l, hlock, hrefused⟩ := Option.bind_eq_some_iff.mp hrefused
  obtain ⟨⟨env, original, competitor⟩, hrequested, hsend⟩ := Option.map_eq_some_iff.mp hrefused
  exact ⟨l, hlock, Locked.competitor_errors_classified_iff hrequested
    (Prod.ext rfl (Prod.ext rfl hsend))⟩

/-- The node already has the cancel, and the request reports a nonce conflict. -/
theorem competitor_errors_classified_fails : ¬ ∀ es e error, ∀ l ∈ (freshRelayer.run es).lock,
    ∀ r ∈ l.requested e, (l.send r.1.send r.2.2).2.2 = .error (.transactionSendError error) →
      l.Takes e error (errorClass error).action := by
  intro hclassified
  let s := freshRelayer.run sentPayment
  have hrefused : (s.lock.bind fun l => (l.requested (refusedCancel "Already known")).map fun r =>
      (l.send r.1.send r.2.2).2.2) = some (.error (.transactionSendError "Already known")) := by
    decide +kernel
  obtain ⟨l, hlock, hrefused⟩ := Option.bind_eq_some_iff.mp hrefused
  obtain ⟨r, hrequested, hsend⟩ := Option.map_eq_some_iff.mp hrefused
  have htakes := hclassified sentPayment (refusedCancel "Already known") "Already known" l hlock r
    hrequested hsend
  have hclass : (errorClass "Already known").action = .alreadyInMempool := by decide +kernel
  rw [hclass] at htakes
  have hanswer : (s.lock.map fun l => l.raceAnswer (refusedCancel "Already known")) =
      some (some .synchronized) := by decide +kernel
  rw [hlock] at hanswer
  have hseen := (Option.some.inj hanswer).symm.trans (htakes [servedClient [] 0])
  cases hseen

end TransactionsQueues
end Rrelayer
