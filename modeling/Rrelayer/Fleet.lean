import Rrelayer.RelayerOperations
import Rrelayer.StartupRows

/-! Many relayers over one database. Whatever the others do, and in whatever order, each goes through
the run it would have gone through alone. -/
namespace Rrelayer

variable {owner : TransactionId → RelayerId} {relayerId : RelayerId}

section Startup

variable {relayer : Relayer} {env : StartupEnv} {db : Db}

theorem byStatus_belongs (hdb : db.Owned owner) {status : TransactionStatus} {t : Transaction}
    (ht : t ∈ db.getTransactionsByStatusForRelayer relayerId status) :
    t.Belongs owner relayerId := by
  obtain ⟨r, hr, rfl⟩ := List.mem_map.mp ht
  have hr := (List.mem_insertionSort fun a b : Row => a.nonce ≤ b.nonce).mp hr
  obtain ⟨hmem, hselected⟩ := List.mem_filter.mp hr
  rw [Bool.and_eq_true] at hselected
  exact ⟨Db.own_of_relayerId hdb hmem hselected.1, by simpa using hselected.1⟩

theorem evidence_belongs (hdb : db.Owned owner) {t : Transaction}
    (ht : t ∈ db.getPendingTransactionsWithAttemptEvidenceForRelayer relayerId) :
    owner t.id = relayerId := by
  obtain ⟨r, hr, rfl⟩ := List.mem_map.mp ht
  have hr := (List.mem_insertionSort fun a b : Row => a.nonce ≤ b.nonce).mp hr
  obtain ⟨hmem, hselected⟩ := List.mem_filter.mp hr
  simp only [Db.hasAttemptEvidence, Bool.and_eq_true] at hselected
  exact Db.own_of_relayerId hdb hmem hselected.1.1.1.1

theorem repairCandidate_ofRelayer (chainNonce : ℕ) (db : Db) {t : Transaction}
    (ht : owner t.id = relayer.id) :
    repairCandidate relayer env chainNonce (db.ofRelayer owner relayer.id) t =
      (repairCandidate relayer env chainNonce db t).map (Db.ofRelayer owner relayer.id) id := by
  unfold repairCandidate
  dsimp only
  rw [Db.attempts_ofRelayer ht]
  split
  · rfl
  · split
    · rfl
    · rcases findLandedAttempt env.clients (db.getRecordedTransactionAttempts t.id) with
        e | _ | attempt
      · rfl
      · dsimp only
        split <;> rfl
      · dsimp only
        rcases attempt.sentWithGas with _ | gas
        · rfl
        · dsimp only
          rw [Db.recoverLanded_ofRelayer ht]
          split
          · rfl
          · rcases db.recoverLandedTransactionAttempt relayer.id t.id attempt.hash gas
              attempt.sentWithBlobGas (!relayer.eip1559Enabled) env.nowRepair with
              ⟨_ | _, db'⟩ <;> rfl

theorem repairCandidate_change (chainNonce : ℕ) (hdb : db.Owned owner) {t : Transaction}
    (ht : owner t.id = relayer.id) :
    db.OwnChange owner relayer.id (repairCandidate relayer env chainNonce db t).1 := by
  unfold repairCandidate
  split
  · exact .refl hdb
  · dsimp only
    split
    · exact .refl hdb
    · split
      · exact .refl hdb
      · split
        · exact .refl hdb
        · exact .refl hdb
      · rename_i attempt _
        split
        · exact .refl hdb
        · rename_i gas _
          have hrecover := @Db.recoverLanded_change owner relayer.id db t.id hdb ht attempt.hash gas
            attempt.sentWithBlobGas (!relayer.eip1559Enabled) env.nowRepair
          split
          · exact .refl hdb
          · split
            · rename_i hrecovered
              rw [hrecovered] at hrecover
              exact hrecover
            · rename_i hrecovered
              rw [hrecovered] at hrecover
              exact hrecover

theorem repairCandidates_ofRelayer (chainNonce : ℕ) (db : Db) {ts : List Transaction}
    (hts : ∀ t ∈ ts, owner t.id = relayer.id) :
    repairCandidates relayer env chainNonce (db.ofRelayer owner relayer.id) ts =
      (repairCandidates relayer env chainNonce db ts).map (Db.ofRelayer owner relayer.id) id := by
  induction ts generalizing db with
  | nil => rfl
  | cons t ts ih =>
    have hrest := fun u hu => hts u (List.mem_cons_of_mem t hu)
    unfold repairCandidates
    rw [repairCandidate_ofRelayer chainNonce db (hts t (List.mem_cons_self ..))]
    rcases repairCandidate relayer env chainNonce db t with ⟨db', e | absent⟩
    · rfl
    · dsimp only [Prod.map, id_eq]
      rw [ih db' hrest]
      rcases repairCandidates relayer env chainNonce db' ts with ⟨db'', e | more⟩ <;> rfl

theorem repairCandidates_change (chainNonce : ℕ) {db : Db} (hdb : db.Owned owner)
    {ts : List Transaction} (hts : ∀ t ∈ ts, owner t.id = relayer.id) :
    db.OwnChange owner relayer.id (repairCandidates relayer env chainNonce db ts).1 := by
  induction ts generalizing db with
  | nil => exact .refl hdb
  | cons t ts ih =>
    have hrest := fun u hu => hts u (List.mem_cons_of_mem t hu)
    have hfirst := @repairCandidate_change owner relayer env db chainNonce hdb t
      (hts t (List.mem_cons_self ..))
    unfold repairCandidates
    generalize repairCandidate relayer env chainNonce db t = checked at hfirst ⊢
    obtain ⟨db', e | absent⟩ := checked
    · exact hfirst
    · have hlater := ih hfirst.owned hrest
      dsimp only at hlater ⊢
      generalize repairCandidates relayer env chainNonce db' ts = rest at hlater ⊢
      obtain ⟨db'', e | more⟩ := rest
      · exact hfirst.trans hlater
      · exact hfirst.trans hlater

/-- What the candidates leave to be closed is the relayer's too. -/
theorem repairCandidates_absent_own {chainNonce : ℕ} {ts : List Transaction}
    {absent : AbsentTransactions} (hts : ∀ t ∈ ts, owner t.id = relayer.id)
    (h : (repairCandidates relayer env chainNonce db ts).2 = .ok absent) :
    ∀ entry ∈ absent, owner entry.1 = relayer.id := by
  intro entry hentry
  have hid := (repairCandidates_absent_sublist h).subset (List.mem_map_of_mem hentry)
  obtain ⟨t, ht, hid⟩ := List.mem_map.mp hid
  rw [← hid]
  exact hts t ht

theorem repairRecordedAttempts_ofRelayer (hdb : db.Owned owner) :
    repairRecordedAttemptsForRelayer relayer env (db.ofRelayer owner relayer.id) =
      (repairRecordedAttemptsForRelayer relayer env db).map (Db.ofRelayer owner relayer.id) id := by
  have hts (t : Transaction)
      (ht : t ∈ db.getPendingTransactionsWithAttemptEvidenceForRelayer relayer.id) :
      owner t.id = relayer.id := evidence_belongs hdb ht
  unfold repairRecordedAttemptsForRelayer
  rw [Db.evidence_ofRelayer hdb]
  rcases pendingNonceAcrossClients env.clients with e | chainNonce
  · rfl
  · dsimp only
    rw [repairCandidates_ofRelayer chainNonce db hts]
    split
    · rfl
    · have habsent := fun absent => @repairCandidates_absent_own owner relayer env db chainNonce
        (db.getPendingTransactionsWithAttemptEvidenceForRelayer relayer.id) absent hts
      generalize repairCandidates relayer env chainNonce db
        (db.getPendingTransactionsWithAttemptEvidenceForRelayer relayer.id) = checked at habsent ⊢
      obtain ⟨db', e | absent⟩ := checked
      · rfl
      · dsimp only [Prod.map, id_eq]
        rw [Db.repairAbsent_ofRelayer (habsent absent rfl)]
        split
        · rfl
        · split <;> rfl

theorem repairRecordedAttempts_change (hdb : db.Owned owner) :
    db.OwnChange owner relayer.id (repairRecordedAttemptsForRelayer relayer env db).1 := by
  have hts (t : Transaction)
      (ht : t ∈ db.getPendingTransactionsWithAttemptEvidenceForRelayer relayer.id) :
      owner t.id = relayer.id := evidence_belongs hdb ht
  unfold repairRecordedAttemptsForRelayer
  rcases pendingNonceAcrossClients env.clients with e | chainNonce
  · exact .refl hdb
  · dsimp only
    split
    · exact .refl hdb
    · have hcandidates := @repairCandidates_change owner relayer env chainNonce db hdb _ hts
      have habsent := fun absent => @repairCandidates_absent_own owner relayer env db chainNonce
        (db.getPendingTransactionsWithAttemptEvidenceForRelayer relayer.id) absent hts
      generalize repairCandidates relayer env chainNonce db
        (db.getPendingTransactionsWithAttemptEvidenceForRelayer relayer.id) = checked
        at hcandidates habsent ⊢
      obtain ⟨db', e | absent⟩ := checked
      · exact hcandidates
      · dsimp only
        split
        · exact hcandidates
        · split
          · exact hcandidates
          · exact hcandidates.trans (Db.repairAbsent_change (habsent absent rfl) hcandidates.owned
              chainNonce absentRepairReason env.nowRepair)

theorem startupRepair_ofRelayer (hdb : db.Owned owner) :
    startupRepair relayer env (db.ofRelayer owner relayer.id) =
      (startupRepair relayer env db).map (Db.ofRelayer owner relayer.id) id := by
  have hpoisoned := @Db.repairPoisoned_change owner relayer.id db hdb
  unfold startupRepair
  rw [Db.repairPoisoned_ofRelayer hdb, repairRecordedAttempts_ofRelayer hpoisoned.owned]
  split
  · rfl
  · rcases repairRecordedAttemptsForRelayer relayer env
      (db.repairPoisonedPendingTransactionsForRelayer relayer.id) with ⟨db', e | _⟩ <;> rfl

theorem startupRepair_change (hdb : db.Owned owner) :
    db.OwnChange owner relayer.id (startupRepair relayer env db).1 := by
  have hpoisoned := @Db.repairPoisoned_change owner relayer.id db hdb
  have hattempts := @repairRecordedAttempts_change owner relayer env
    (db.repairPoisonedPendingTransactionsForRelayer relayer.id) hpoisoned.owned
  unfold startupRepair
  split
  · exact .refl hdb
  · generalize repairRecordedAttemptsForRelayer relayer env
      (db.repairPoisonedPendingTransactionsForRelayer relayer.id) = repaired at hattempts ⊢
    obtain ⟨db', e | _⟩ := repaired
    · exact hpoisoned.trans hattempts
    · exact hpoisoned.trans hattempts

theorem repopulatedQueue_ofRelayer (hdb : db.Owned owner) (onchainNonce : ℕ) :
    repopulatedQueue relayer env (db.ofRelayer owner relayer.id) onchainNonce =
      repopulatedQueue relayer env db onchainNonce := by
  unfold repopulatedQueue repopulateCompetitiveTransactionQueue
  simp only [Db.byStatus_ofRelayer hdb]

theorem repopulatedQueue_belongs (hdb : db.Owned owner) (onchainNonce : ℕ) :
    (repopulatedQueue relayer env db onchainNonce).Belongs owner relayer.id where
  relayer := rfl
  pending t ht := byStatus_belongs hdb ((List.mem_insertionSort _).mp ht)
  sent c hc t ht := by
    obtain ⟨u, hu, heq⟩ := mem_repopulateLoop (fun _ ht => ht) hc t ht
    rw [heq]
    exact (byStatus_belongs hdb hu).congr rfl rfl
  mined t ht := byStatus_belongs hdb ht

theorem startupTransactionsQueues_ofRelayer (hdb : db.Owned owner) :
    startupTransactionsQueues relayer env (db.ofRelayer owner relayer.id) =
      (startupTransactionsQueues relayer env db).map (Db.ofRelayer owner relayer.id) id := by
  have hrepaired := @startupRepair_change owner relayer env db hdb
  unfold startupTransactionsQueues
  rw [startupRepair_ofRelayer hdb]
  split
  · rfl
  · generalize startupRepair relayer env db = repaired at hrepaired ⊢
    obtain ⟨db', _ | _⟩ := repaired
    · rfl
    · dsimp only [Prod.map, id_eq]
      split
      · rfl
      · rcases pendingNonceAcrossClients env.startupClients with e | onchainNonce
        · rfl
        · dsimp only
          rw [repopulatedQueue_ofRelayer hrepaired.owned]

theorem startupTransactionsQueues_change (hdb : db.Owned owner) :
    db.OwnChange owner relayer.id (startupTransactionsQueues relayer env db).1 := by
  rw [startupTransactionsQueues_db]
  split
  · exact startupRepair_change hdb
  · exact .refl hdb

theorem startupTransactionsQueues_belongs (hdb : db.Owned owner) {q : TransactionsQueue}
    (h : (startupTransactionsQueues relayer env db).2 = some q) : q.Belongs owner relayer.id := by
  obtain ⟨onchainNonce, -, rfl⟩ := startupTransactionsQueues_queue h
  exact repopulatedQueue_belongs (startupTransactionsQueues_change hdb).owned onchainNonce

end Startup

namespace TransactionsQueues

/-- A relayer over what the database holds of it. -/
def ofRelayer (owner : TransactionId → RelayerId) (relayerId : RelayerId) (s : TransactionsQueues) :
    TransactionsQueues := { s with db := s.db.ofRelayer owner relayerId }

/-- The relayer, with its own transactions only, over a database whose rows name their owners. -/
structure Belongs (owner : TransactionId → RelayerId) (relayerId : RelayerId)
    (s : TransactionsQueues) : Prop where
  owned : s.db.Owned owner
  relayer : s.relayer.id = relayerId
  queue : ∀ q ∈ s.queue, q.Belongs owner relayerId

/-- What an event of the relayer leaves: its own transactions, and the others' rows untouched. -/
structure Stays (owner : TransactionId → RelayerId) (relayerId : RelayerId)
    (s s' : TransactionsQueues) : Prop where
  change : s.db.OwnChange owner relayerId s'.db
  relayer : s'.relayer.id = relayerId
  queue : ∀ q ∈ s'.queue, q.Belongs owner relayerId

variable {s : TransactionsQueues} {e : Event}

theorem Stays.belongs {s' : TransactionsQueues} (h : s.Stays owner relayerId s') :
    s'.Belongs owner relayerId := ⟨h.change.owned, h.relayer, h.queue⟩

theorem Belongs.stays (h : s.Belongs owner relayerId) : s.Stays owner relayerId s :=
  ⟨.refl h.owned, h.relayer, h.queue⟩

section Locked

variable {ρ : Type} {operation : Locked → Locked × ρ}

theorem lock_belongs (h : s.Belongs owner relayerId) {l : Locked} (hl : s.lock = some l) :
    l.Belongs owner relayerId := by
  obtain ⟨q, hq, rfl⟩ := Option.map_eq_some_iff.mp hl
  exact ⟨h.owned, h.queue q hq⟩

theorem locked_ofRelayer (hoperation : ∀ l, s.lock = some l →
      operation (l.ofRelayer owner relayerId) = Locked.ownOutcome owner relayerId (operation l)) :
    (s.ofRelayer owner relayerId).locked operation =
      (s.locked operation).ofRelayer owner relayerId := by
  have hlock : (s.ofRelayer owner relayerId).lock =
      s.lock.map (Locked.ofRelayer owner relayerId) := by
    unfold lock
    rw [Option.map_map]
    rfl
  rcases hl : s.lock with _ | l
  · rw [hl] at hlock
    rw [locked_of_none operation hl, locked_of_none operation hlock]
  · rw [hl] at hlock
    rw [locked_of_some operation hl, locked_of_some operation hlock, hoperation l hl]
    rfl

theorem locked_stays (h : s.Belongs owner relayerId)
    (hoperation : ∀ l, s.lock = some l → l.Stays owner relayerId (operation l).1) :
    s.Stays owner relayerId (s.locked operation) := by
  rcases hl : s.lock with _ | l
  · rw [locked_of_none operation hl]
    exact h.stays
  · have hstays := hoperation l hl
    obtain ⟨q, -, rfl⟩ := Option.map_eq_some_iff.mp hl
    rw [locked_of_some operation hl]
    refine ⟨hstays.change, h.relayer, fun q hq => ?_⟩
    obtain rfl := Option.mem_some.mp hq
    exact hstays.queue

end Locked

theorem startup_ofRelayer (h : s.Belongs owner relayerId) (env : StartupEnv) :
    (s.ofRelayer owner relayerId).startup env = (s.startup env).ofRelayer owner relayerId := by
  obtain rfl := h.relayer
  unfold startup ofRelayer
  dsimp only
  rw [startupTransactionsQueues_ofRelayer h.owned]
  rfl

theorem startup_stays (h : s.Belongs owner relayerId) (env : StartupEnv) :
    s.Stays owner relayerId (s.startup env) := by
  obtain rfl := h.relayer
  exact ⟨startupTransactionsQueues_change h.owned, rfl,
    fun _ hq => startupTransactionsQueues_belongs h.owned hq⟩

/-- One event of the relayer, on its own rows and on all of them. -/
theorem step_ofRelayer (h : s.Belongs owner relayerId) (hnew : ∀ id ∈ e.newId, owner id = relayerId) :
    (s.ofRelayer owner relayerId).step e = (s.step e).ofRelayer owner relayerId := by
  cases e with
  | add env toSend =>
    exact locked_ofRelayer fun _ hl =>
      Locked.addTransaction_ofRelayer (lock_belongs h hl) (hnew _ rfl)
  | cancel env id =>
    exact locked_ofRelayer fun _ hl =>
      Locked.cancelTransaction_ofRelayer (lock_belongs h hl) (hnew _ rfl) id
  | replace env request id =>
    exact locked_ofRelayer fun _ hl =>
      Locked.replaceTransaction_ofRelayer (lock_belongs h hl) (hnew _ rfl) request id
  | processPending env =>
    exact locked_ofRelayer fun _ hl => Locked.processSinglePending_ofRelayer (lock_belongs h hl)
  | processInmempool env =>
    exact locked_ofRelayer fun _ hl => Locked.processSingleInmempool_ofRelayer (lock_belongs h hl)
  | processMined env => exact locked_ofRelayer fun _ _ => Locked.processSingleMined_ofRelayer env
  | restart env => exact startup_ofRelayer h env
  | included signed =>
    show (s.ofRelayer owner relayerId).includeSigned signed =
      (s.includeSigned signed).ofRelayer owner relayerId
    unfold includeSigned ofRelayer
    split <;> rfl

/-- Nothing of another relayer changes. -/
theorem step_stays (h : s.Belongs owner relayerId) (hnew : ∀ id ∈ e.newId, owner id = relayerId) :
    s.Stays owner relayerId (s.step e) := by
  cases e with
  | add env toSend =>
    exact locked_stays h fun _ hl => Locked.addTransaction_stays (lock_belongs h hl) (hnew _ rfl)
  | cancel env id =>
    exact locked_stays h fun _ hl =>
      Locked.cancelTransaction_stays (lock_belongs h hl) (hnew _ rfl) id
  | replace env request id =>
    exact locked_stays h fun _ hl =>
      Locked.replaceTransaction_stays (lock_belongs h hl) (hnew _ rfl) request id
  | processPending env =>
    exact locked_stays h fun _ hl => Locked.processSinglePending_stays (lock_belongs h hl)
  | processInmempool env =>
    exact locked_stays h fun _ hl => Locked.processSingleInmempool_stays (lock_belongs h hl)
  | processMined env =>
    exact locked_stays h fun _ hl => Locked.processSingleMined_stays (lock_belongs h hl) env
  | restart env => exact startup_stays h env
  | included signed =>
    show s.Stays owner relayerId (s.includeSigned signed)
    unfold includeSigned
    split
    · exact ⟨.refl h.owned, h.relayer, h.queue⟩
    · exact h.stays

end TransactionsQueues

/-- A relayer of the process: its queue when it is up, what it has broadcast and its account. -/
structure Party where
  relayer : Relayer
  queue : Option TransactionsQueue
  blockTimeMs : Option ℕ
  broadcasts : Broadcasts
  chain : Chain

/-- The relayers and the database they share. -/
structure Fleet where
  db : Db
  parties : RelayerId → Party

namespace Fleet

/-- A relayer as it works on the shared database. -/
def queuesOf (f : Fleet) (relayerId : RelayerId) : TransactionsQueues :=
  let party := f.parties relayerId
  ⟨party.relayer, party.queue, party.blockTimeMs, f.db, party.broadcasts, party.chain⟩

/-- One relayer's event. A crash of the process restarts the relayers one after another. -/
def step (f : Fleet) (e : RelayerId × Event) : Fleet :=
  let s := (f.queuesOf e.1).step e.2
  { db := s.db
    parties := Function.update f.parties e.1
      ⟨s.relayer, s.queue, s.blockTimeMs, s.broadcasts, s.chain⟩ }

abbrev run (f : Fleet) (es : List (RelayerId × Event)) : Fleet := EventMachine.run step f es

/-- The relayer with its own part of the database. -/
def alone (owner : TransactionId → RelayerId) (f : Fleet) (relayerId : RelayerId) :
    TransactionsQueues := (f.queuesOf relayerId).ofRelayer owner relayerId

/-- The event of an interleaving that is the relayer's. -/
def own (relayerId : RelayerId) (e : RelayerId × Event) : Option Event :=
  if e.1 = relayerId then some e.2 else none

/-- Every relayer has its own transactions only. -/
structure Apart (owner : TransactionId → RelayerId) (f : Fleet) : Prop where
  owned : f.db.Owned owner
  named : ∀ relayerId, (f.parties relayerId).relayer.id = relayerId
  queues : ∀ relayerId, ∀ q ∈ (f.parties relayerId).queue, q.Belongs owner relayerId

variable {f : Fleet} {e : RelayerId × Event}

theorem Apart.belongs (h : f.Apart owner) (relayerId : RelayerId) :
    (f.queuesOf relayerId).Belongs owner relayerId :=
  ⟨h.owned, h.named relayerId, h.queues relayerId⟩

theorem step_queuesOf (f : Fleet) (e : RelayerId × Event) :
    (f.step e).queuesOf e.1 = (f.queuesOf e.1).step e.2 := by
  simp [queuesOf, step]

theorem step_queuesOf_other {relayerId : RelayerId} (hne : relayerId ≠ e.1) :
    (f.step e).queuesOf relayerId = { f.queuesOf relayerId with db := (f.step e).db } := by
  simp [queuesOf, step, Function.update_of_ne hne]

theorem Apart.step (h : f.Apart owner) (hnew : ∀ id ∈ e.2.newId, owner id = e.1) :
    (f.step e).Apart owner := by
  have hstays := TransactionsQueues.step_stays (h.belongs e.1) hnew
  refine ⟨hstays.change.owned, fun relayerId => ?_, fun relayerId => ?_⟩
  · by_cases hsame : relayerId = e.1
    · subst hsame
      simpa [Fleet.step] using hstays.relayer
    · simpa [Fleet.step, Function.update_of_ne hsame] using h.named relayerId
  · by_cases hsame : relayerId = e.1
    · subst hsame
      simpa [Fleet.step] using hstays.queue
    · simpa [Fleet.step, Function.update_of_ne hsame] using h.queues relayerId

/-- An event moves the relayer it is of, as it would alone, and no other. -/
theorem step_alone (h : f.Apart owner) (hnew : ∀ id ∈ e.2.newId, owner id = e.1)
    (relayerId : RelayerId) : (f.step e).alone owner relayerId =
      (own relayerId e).elim (f.alone owner relayerId) (f.alone owner relayerId).step := by
  by_cases hsame : e.1 = relayerId
  · subst hsame
    rw [own, if_pos rfl, Option.elim_some, alone, alone, step_queuesOf,
      TransactionsQueues.step_ofRelayer (h.belongs e.1) hnew]
  · have hstays := TransactionsQueues.step_stays (h.belongs e.1) hnew
    have hother := hstays.change.others relayerId fun h => hsame h.symm
    rw [own, if_neg hsame, Option.elim_none, alone, alone,
      step_queuesOf_other fun h => hsame h.symm]
    unfold TransactionsQueues.ofRelayer
    dsimp only
    exact congrArg (fun db => { f.queuesOf relayerId with db := db }) hother

/-- In every interleaving of the relayers' events each relayer goes through its own events as it would
with a database to itself, provided that no two relayers draw the same id. -/
theorem run_alone (h : f.Apart owner) {es : List (RelayerId × Event)}
    (hnew : ∀ e ∈ es, ∀ id ∈ e.2.newId, owner id = e.1) (relayerId : RelayerId) :
    (f.run es).alone owner relayerId =
      (f.alone owner relayerId).run (es.filterMap (own relayerId)) := by
  have hview (f : Fleet) (e : RelayerId × Event) (hnew : ∀ id ∈ e.2.newId, owner id = e.1)
      (h : f.Apart owner) := step_alone h hnew relayerId
  exact @EventMachine.run_view _ _ step f es _ _ TransactionsQueues.step (alone owner · relayerId)
    _ _ _ (fun _ _ hnew h => h.step hnew) hview h hnew

end Fleet

/-- Relayers that have all just come up, over an empty database. -/
def freshFleet : Fleet where
  db := .empty
  parties relayerId :=
    let relayer := { freshQueue.relayer with id := relayerId }
    ⟨relayer, some { freshQueue with relayer := relayer }, some 1000, [], .empty⟩

theorem freshFleet_apart (owner : TransactionId → RelayerId) : freshFleet.Apart owner := by
  refine ⟨fun _ hr => (List.not_mem_nil hr).elim, fun _ => rfl, fun relayerId q hq => ?_⟩
  obtain rfl := Option.mem_some.mp hq
  exact ⟨⟨fun _ ht => (List.not_mem_nil ht).elim, fun _ hc => (List.not_mem_nil hc).elim,
    fun _ ht => (List.not_mem_nil ht).elim⟩, rfl⟩

/-- Two relayers with even and odd ids. -/
def interleaved : List (RelayerId × Event) :=
  [(0, .add (servedAdd 0) (payment 2 5)), (1, .add (servedAdd 0) (payment 3 5)),
    (1, .processPending (servedPending (.ok ()) (servedClient [] 0) [])),
    (0, .cancel (servedCompete 4 (.ok ()) (servedClient [] 0)) 2)]

theorem run_alone_interleaved :
    ((freshFleet.run interleaved).db.rows.map fun r => (r.relayerId, r.nonce, r.status)) =
        [(0, 0, .pending), (1, 0, .inmempool)] ∧
      (freshFleet.run interleaved).alone (· % 2) 1 =
        (freshFleet.alone (· % 2) 1).run (interleaved.filterMap (Fleet.own 1)) := by
  refine ⟨by decide, Fleet.run_alone (freshFleet_apart _) ?_ 1⟩
  decide

end Rrelayer
