import Rrelayer.TransactionsQueues

/-! Startup of one relayer: repair of the persisted rows, repopulation of its queues and the
nonce it continues with. -/
namespace Rrelayer

/-- What a startup asks of the outside: the network's settings and the answers of the database
and the providers. -/
structure StartupEnv where
  providerFound : Bool
  safeProxies : List SafeProxyConfig
  maxGasPriceMultiplier : ℕ
  blocksEvery : ℕ
  confirmations : ℕ
  supportsBlobs : Bool
  gasBumpConfig : GasBumpBlockConfig
  repairPoisoned : Bool
  clients : List RpcClient
  loadCandidates : Bool
  loadAttempts : TransactionId → Bool
  recoverLanded : TransactionId → Bool
  repairAbsent : Bool
  nowRepair : DateTime
  repopulate : Bool
  startupClients : List RpcClient

inductive RepairRecordedAttemptsError where
  | couldNotGetChainNonce (relayerId : RelayerId) (error : String)
  | couldNotLoadCandidates (relayerId : RelayerId)
  | couldNotLoadAttempts (relayerId : RelayerId) (id : TransactionId)
  | missingAttempts (relayerId : RelayerId) (id : TransactionId)
  | couldNotCheckAttempts (relayerId : RelayerId) (id : TransactionId) (error : String)
  | missingGasEvidence (relayerId : RelayerId) (id : TransactionId) (hash : TransactionHash)
  | couldNotRecoverLandedAttempt (relayerId : RelayerId) (id : TransactionId)
  | landedAttemptStateChanged (relayerId : RelayerId) (id : TransactionId)
  | couldNotRepairAbsentAttempts (relayerId : RelayerId)
  deriving DecidableEq, Repr

def nonCurrentNoncePendingRepairHash (t : Transaction) (chainNonce : ℕ) :
    Option TransactionHash :=
  if t.status == .pending && t.sentAt.isSome && t.nonce != chainNonce then t.knownTransactionHash
  else none

def absentRepairReason : String :=
  "startup repair: terminalized broadcast-absent pending transaction outside the current chain nonce"

/-- Checked transactions none of whose attempts any provider knows, with those attempts. -/
abbrev AbsentTransactions := List (TransactionId × List TransactionHash)

section Repair

variable (relayer : Relayer) (env : StartupEnv)

/-- One candidate of the repair: a landed attempt is recovered at once, an absent transaction
off the chain nonce is collected. -/
def repairCandidate (chainNonce : ℕ) (db : Db) (t : Transaction) :
    Db × Except RepairRecordedAttemptsError AbsentTransactions :=
  if !env.loadAttempts t.id then (db, .error (.couldNotLoadAttempts relayer.id t.id))
  else
    let attempts := db.getRecordedTransactionAttempts t.id
    if attempts.isEmpty then (db, .error (.missingAttempts relayer.id t.id))
    else match findLandedAttempt env.clients attempts with
      | .error e => (db, .error (.couldNotCheckAttempts relayer.id t.id e))
      | .ok none =>
          if (nonCurrentNoncePendingRepairHash t chainNonce).isSome then
            (db, .ok [(t.id, attempts.map (·.hash))])
          else (db, .ok [])
      | .ok (some attempt) =>
          match attempt.sentWithGas with
          | none => (db, .error (.missingGasEvidence relayer.id t.id attempt.hash))
          | some gas =>
              if !env.recoverLanded t.id then
                (db, .error (.couldNotRecoverLandedAttempt relayer.id t.id))
              else match db.recoverLandedTransactionAttempt relayer.id t.id attempt.hash gas
                  attempt.sentWithBlobGas (!relayer.eip1559Enabled) env.nowRepair with
                | (false, db) => (db, .error (.landedAttemptStateChanged relayer.id t.id))
                | (true, db) => (db, .ok [])

/-- The candidates in order; the first error ends the repair. -/
def repairCandidates (chainNonce : ℕ) :
    Db → List Transaction → Db × Except RepairRecordedAttemptsError AbsentTransactions
  | db, [] => (db, .ok [])
  | db, t :: ts =>
      match repairCandidate relayer env chainNonce db t with
      | (db, .error e) => (db, .error e)
      | (db, .ok absent) =>
          match repairCandidates chainNonce db ts with
          | (db, .error e) => (db, .error e)
          | (db, .ok more) => (db, .ok (absent ++ more))

def repairRecordedAttemptsForRelayer (db : Db) : Db × Except RepairRecordedAttemptsError Unit :=
  match pendingNonceAcrossClients env.clients with
  | .error e => (db, .error (.couldNotGetChainNonce relayer.id e))
  | .ok chainNonce =>
      if !env.loadCandidates then (db, .error (.couldNotLoadCandidates relayer.id))
      else match repairCandidates relayer env chainNonce db
          (db.getPendingTransactionsWithAttemptEvidenceForRelayer relayer.id) with
        | (db, .error e) => (db, .error e)
        | (db, .ok absent) =>
            if absent.isEmpty then (db, .ok ())
            else if !env.repairAbsent then (db, .error (.couldNotRepairAbsentAttempts relayer.id))
            else (db.repairAbsentPendingTransactionsForRelayer relayer.id chainNonce absent
                absentRepairReason env.nowRepair, .ok ())

/-- Both repairs of the persisted rows. The relayer stays offline unless they succeed. -/
def startupRepair (db : Db) : Db × Bool :=
  if !env.repairPoisoned then (db, false)
  else match repairRecordedAttemptsForRelayer relayer env
      (db.repairPoisonedPendingTransactionsForRelayer relayer.id) with
    | (db, .error _) => (db, false)
    | (db, .ok ()) => (db, true)

end Repair

/-- The kind of a competitor found again in the database. -/
def competitionTypeOf (competitor : Transaction) : CompetitionType :=
  if competitor.isNoop || (competitor.value == 0 && competitor.data.isEmpty) then .cancel
  else .replace

/-- The loop of `repopulate_competitive_transaction_queue` over all in-mempool rows; `processed`
holds the ids that are part of an entry already. -/
def repopulateLoop (all : List Transaction) :
    List Transaction → List TransactionId → List CompetitiveTransaction
  | [], _ => []
  | t :: ts, processed =>
      if processed.contains t.id then repopulateLoop all ts processed
      else match t.cancelledByTransactionId with
        | some cancelId =>
            match all.find? (·.id == cancelId) with
            | some competitor =>
                (CompetitiveTransaction.new t).addCompetitor competitor
                    (competitionTypeOf competitor) ::
                  repopulateLoop all ts (competitor.id :: t.id :: processed)
            | none => .new t :: repopulateLoop all ts (t.id :: processed)
        | none =>
            if all.any (·.cancelledByTransactionId == some t.id) then
              repopulateLoop all ts processed
            else .new t :: repopulateLoop all ts (t.id :: processed)

section Repopulate

variable {all ts : List Transaction} {processed : List TransactionId} {t : Transaction}
  {c : CompetitiveTransaction}

/-- How the loop comes to an entry. -/
inductive Opens (all : List Transaction) (t : Transaction) : CompetitiveTransaction → Prop where
  | paired {id : TransactionId} {competitor : Transaction}
      (hlink : t.cancelledByTransactionId = some id)
      (hfind : all.find? (·.id == id) = some competitor) :
      Opens all t ((CompetitiveTransaction.new t).addCompetitor competitor
        (competitionTypeOf competitor))
  | dangling {id : TransactionId} (hlink : t.cancelledByTransactionId = some id)
      (hfind : all.find? (·.id == id) = none) : Opens all t (.new t)
  | single (hlink : t.cancelledByTransactionId = none)
      (hunlinked : ∀ c ∈ all, c.cancelledByTransactionId ≠ some t.id) : Opens all t (.new t)

theorem Opens.original_id (h : Opens all t c) : c.original.id = t.id := by
  cases h <;> rfl

/-- The entry of a row that is linked to another holds both. -/
theorem Opens.competitive {id : TransactionId} {competitor : Transaction} (h : Opens all t c)
    (hid : t.cancelledByTransactionId = some id)
    (hcompetitor : all.find? (·.id == id) = some competitor) :
    c.competitive = some (competitor, competitionTypeOf competitor) := by
  cases h with
  | paired hlink hfind =>
    rw [hid] at hlink
    cases hlink
    rw [hcompetitor] at hfind
    cases hfind
    rfl
  | dangling hlink hfind =>
    rw [hid] at hlink
    cases hlink
    rw [hcompetitor] at hfind
    cases hfind
  | single hlink =>
    rw [hid] at hlink
    cases hlink

/-- The members of an entry are rows, up to the link to a competitor. -/
theorem Opens.rows (h : Opens all t c) (ht : t ∈ all) : ∀ u ∈ c.transactions, ∃ v ∈ all,
    u = { v with cancelledByTransactionId := u.cancelledByTransactionId } := by
  intro u hu
  cases h with
  | @paired id competitor hlink hfind =>
    have hu : u = { t with cancelledByTransactionId := some competitor.id } ∨ u = competitor := by
      simpa [CompetitiveTransaction.transactions, CompetitiveTransaction.new,
        CompetitiveTransaction.addCompetitor] using hu
    rcases hu with rfl | rfl
    · exact ⟨t, ht, rfl⟩
    · exact ⟨u, List.mem_of_find?_eq_some hfind, rfl⟩
  | dangling | single =>
    have hu : u = t := by
      simpa [CompetitiveTransaction.transactions, CompetitiveTransaction.new] using hu
    exact ⟨t, ht, by rw [hu]⟩

/-- One row opens an entry, or it is passed over: an earlier row took it as its competitor, or
some row is linked to it. -/
theorem repopulateLoop_cons (all : List Transaction) (t : Transaction) (ts : List Transaction)
    (processed : List TransactionId) :
    (repopulateLoop all (t :: ts) processed = repopulateLoop all ts processed ∧
        (t.id ∈ processed ∨ ∃ c ∈ all, c.cancelledByTransactionId = some t.id)) ∨
      ∃ c taken, Opens all t c ∧ (∀ id ∈ taken, t.cancelledByTransactionId = some id) ∧
        repopulateLoop all (t :: ts) processed =
          c :: repopulateLoop all ts (taken ++ t.id :: processed) := by
  rw [repopulateLoop]
  split
  · rename_i hprocessed
    exact .inl ⟨rfl, .inl (by simpa using hprocessed)⟩
  · split
    · rename_i id hlink
      right
      split
      · rename_i competitor hfind
        have hid : competitor.id = id := by simpa using List.find?_some hfind
        refine ⟨_, [competitor.id], .paired hlink hfind, ?_, rfl⟩
        intro x hx
        rw [List.mem_singleton.mp hx, hid]
        exact hlink
      · rename_i hfind
        exact ⟨_, [], .dangling hlink hfind, fun _ hx => (List.not_mem_nil hx).elim, rfl⟩
    · rename_i hlink
      split
      · rename_i hlinked
        obtain ⟨c, hc, hlinked⟩ := List.any_eq_true.mp hlinked
        exact .inl ⟨rfl, .inr ⟨c, hc, by simpa using hlinked⟩⟩
      · rename_i hunlinked
        right
        refine ⟨_, [], .single hlink ?_, fun _ hx => (List.not_mem_nil hx).elim, rfl⟩
        intro c hc hlinked
        apply hunlinked
        exact List.any_eq_true.mpr ⟨c, hc, by simp [hlinked]⟩

theorem repopulateLoop_from (hc : c ∈ repopulateLoop all ts processed) :
    ∃ t ∈ ts, Opens all t c := by
  induction ts generalizing processed with
  | nil => cases hc
  | cons u ts ih =>
    have hrest {processed : List TransactionId} (hc : c ∈ repopulateLoop all ts processed) :
        ∃ t ∈ u :: ts, Opens all t c := by
      obtain ⟨t, ht, hopens⟩ := ih hc
      exact ⟨t, List.mem_cons_of_mem _ ht, hopens⟩
    rcases repopulateLoop_cons all u ts processed with ⟨heq, -⟩ | ⟨c₀, taken, hopens, -, heq⟩
    · rw [heq] at hc
      exact hrest hc
    · rw [heq] at hc
      rcases List.mem_cons.mp hc with rfl | hc
      · exact ⟨u, List.mem_cons_self .., hopens⟩
      · exact hrest hc

/-- The members of a repopulated entry are rows it was built from, up to the link to a competitor. -/
theorem mem_repopulateLoop (hall : ∀ t ∈ ts, t ∈ all) (hc : c ∈ repopulateLoop all ts processed) :
    ∀ t ∈ c.transactions, ∃ u ∈ all,
      t = { u with cancelledByTransactionId := t.cancelledByTransactionId } := by
  obtain ⟨t, ht, hopens⟩ := repopulateLoop_from hc
  exact hopens.rows (hall t ht)

/-- A row that no row is linked to opens an entry. -/
theorem repopulateLoop_opens (ht : t ∈ ts) (hnodup : (ts.map (·.id)).Nodup)
    (hprocessed : t.id ∉ processed)
    (hunlinked : ∀ c ∈ all, c.cancelledByTransactionId ≠ some t.id) (hall : ∀ u ∈ ts, u ∈ all) :
    ∃ c ∈ repopulateLoop all ts processed, Opens all t c := by
  induction ts generalizing processed with
  | nil => cases ht
  | cons u ts ih =>
    rw [List.map_cons, List.nodup_cons] at hnodup
    have hrest : ∀ v ∈ ts, v ∈ all := fun v hv => hall v (List.mem_cons_of_mem _ hv)
    rcases repopulateLoop_cons all u ts processed with
      ⟨heq, hpassed⟩ | ⟨c, taken, hopens, htaken, heq⟩
    · rw [heq]
      rcases List.mem_cons.mp ht with rfl | ht
      · rcases hpassed with hmem | ⟨v, hv, hlinked⟩
        · exact absurd hmem hprocessed
        · exact absurd hlinked (hunlinked v hv)
      · exact ih ht hnodup.2 hprocessed hrest
    · rw [heq]
      rcases List.mem_cons.mp ht with rfl | ht
      · exact ⟨c, List.mem_cons_self .., hopens⟩
      · have hkept : t.id ∉ taken ++ u.id :: processed := by
          rw [List.mem_append, List.mem_cons, not_or, not_or]
          refine ⟨?_, ?_, hprocessed⟩
          · intro hmem
            exact hunlinked u (hall u (List.mem_cons_self ..)) (htaken t.id hmem)
          · intro hid
            exact hnodup.1 (List.mem_map.mpr ⟨t, ht, hid⟩)
        obtain ⟨d, hd, hopens⟩ := ih ht hnodup.2 hkept hrest
        exact ⟨d, List.mem_cons_of_mem _ hd, hopens⟩

/-- The originals come out in the order of the rows, each at most once, up to their links. -/
theorem repopulateLoop_sublist {α : Type} {f : Transaction → α}
    (hf : ∀ t z, f { t with cancelledByTransactionId := z } = f t) (all ts : List Transaction)
    (processed : List TransactionId) :
    ((repopulateLoop all ts processed).map (f ·.original)).Sublist (ts.map f) := by
  induction ts generalizing processed with
  | nil => exact List.Sublist.refl _
  | cons u ts ih =>
    rcases repopulateLoop_cons all u ts processed with ⟨heq, -⟩ | ⟨c, taken, hopens, -, heq⟩
    · rw [heq]
      exact (ih _).cons _
    · have hfirst : f c.original = f u := by
        cases hopens with
        | paired => exact hf u _
        | dangling | single => rfl
      rw [heq, List.map_cons, List.map_cons, hfirst]
      exact (ih _).cons_cons _

theorem repopulateLoop_originals (all ts : List Transaction) (processed : List TransactionId) :
    ((repopulateLoop all ts processed).map (·.original.id)).Sublist (ts.map (·.id)) :=
  repopulateLoop_sublist (fun _ _ => rfl) all ts processed

end Repopulate

def repopulateCompetitiveTransactionQueue (db : Db) (relayerId : RelayerId) :
    List CompetitiveTransaction :=
  let inmempool := db.getTransactionsByStatusForRelayer relayerId .inmempool
  repopulateLoop inmempool inmempool []

/-- The nonce after every one that a transaction in the queues holds. The source's addition saturates
only beyond the nonces an account can have. -/
def effectiveStartupNonce (onchainNonce : ℕ) (pending : List Transaction)
    (inmempool : List CompetitiveTransaction) : ℕ :=
  let held := pending ++ inmempool.flatMap (·.transactions)
  max onchainNonce (held.foldr (fun t n => max (t.nonce + 1) n) 0)

/-- The queue of a relayer whose rows are repaired. -/
def repopulatedQueue (relayer : Relayer) (env : StartupEnv) (db : Db) (onchainNonce : ℕ) :
    TransactionsQueue :=
  let pending := db.getTransactionsByStatusForRelayer relayer.id .pending
  let inmempool := repopulateCompetitiveTransactionQueue db relayer.id
  { relayer := relayer
    safeProxies := env.safeProxies
    maxGasPriceMultiplier := env.maxGasPriceMultiplier
    pendingTransactions := TransactionsQueue.sortPendingTransactions pending
    inmempoolTransactions := inmempool
    minedTransactions := db.getTransactionsByStatusForRelayer relayer.id .mined
    nonceManager := ⟨effectiveStartupNonce onchainNonce pending inmempool⟩
    blocksEvery := env.blocksEvery
    confirmations := env.confirmations
    supportsBlobs := env.supportsBlobs
    gasBumpConfig := env.gasBumpConfig }

/-- The database after startup, and the queue unless the relayer stays offline. -/
def startupTransactionsQueues (relayer : Relayer) (env : StartupEnv) (db : Db) :
    Db × Option TransactionsQueue :=
  if !env.providerFound then (db, none)
  else match startupRepair relayer env db with
    | (db, false) => (db, none)
    | (db, true) =>
        if !env.repopulate then (db, none)
        else match pendingNonceAcrossClients env.startupClients with
          | .error _ => (db, none)
          | .ok onchainNonce => (db, some (repopulatedQueue relayer env db onchainNonce))

end Rrelayer
