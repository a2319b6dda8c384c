import Rrelayer.TrackedRuns
import Rrelayer.ClosedOut

/-! Competitors whose send failed: what they leave behind, and when nothing is sent for them again. -/
namespace Rrelayer

/-- Memory holds no copy of the transaction. -/
structure TransactionsQueue.Away (q : TransactionsQueue) (x : TransactionId) : Prop where
  pending : ∀ t ∈ q.pendingTransactions, t.id ≠ x
  entries : ¬ q.book.InEntries x
  mined : ∀ t ∈ q.minedTransactions, t.id ≠ x

theorem TransactionsQueue.Away.member {q : TransactionsQueue} {x : TransactionId} (h : q.Away x)
    {c : CompetitiveTransaction} (hc : c ∈ q.inmempoolTransactions) {t : Transaction}
    (ht : t ∈ c.transactions) : t.id ≠ x := by
  intro hid
  exact h.entries (TransactionsQueue.inEntries_iff.mpr ⟨c, hc, t, ht, hid⟩)

namespace Locked

variable {l l' : Locked} {x : TransactionId}

theorem away_of_touched {ids : TransactionId → Prop} (h : l.queue.Away x)
    (ht : l.Touched ids l') (hx : ¬ ids x) (hentries : ¬ l'.queue.book.InEntries x) :
    l'.queue.Away x ∧ l'.db.row x = l.db.row x := by
  refine ⟨⟨?_, hentries, ?_⟩, ht.db.row_eq fun _ => hx⟩
  · intro t hmem hid
    rcases ht.pending t hmem with hmem | hids
    · exact h.pending t hmem hid
    · exact hx (hid ▸ hids)
  · intro t hmem hid
    rcases ht.mined t hmem with hmem | hids
    · exact h.mined t hmem hid
    · exact hx (hid ▸ hids)

theorem away_touched {ids : TransactionId → Prop} {a : Action} (h : l.queue.Away x)
    (ht : l.Touched ids l') (hx : ¬ ids x) (heffect : l.Effect a l')
    (hattach : ∀ hash, a ≠ .attach x hash) : l'.queue.Away x ∧ l'.db.row x = l.db.row x := by
  apply away_of_touched h ht hx
  intro hin
  rcases heffect.book.inEntries hin with hin | ⟨hash, rfl⟩ | ⟨hash, hattached⟩
  · exact h.entries hin
  · -- Only the head of the pending queue is launched.
    have hbook := heffect.book
    generalize l'.queue.book = after at hbook
    cases hbook with
    | @launch _ n _ ps hhead =>
      have hmem : (x, n) ∈ l.queue.book.pending := by
        rw [hhead]
        exact List.mem_cons_self ..
      obtain ⟨t, ht, hslot⟩ := List.mem_map.mp hmem
      exact h.pending t ht (congrArg Prod.fst hslot)
  · exact hattach hash hattached

end Locked

namespace TransactionsQueues

variable {s : TransactionsQueues} {e : Event} {x : TransactionId}

/-- An operation under the lock that touches neither the transaction nor attaches it. -/
theorem away_locked {ρ : Type} {ids : Locked → TransactionId → Prop} {a : Locked → Action}
    (haway : ∀ q ∈ s.queue, q.Away x) (hfresh : e.newId ≠ some x)
    (operation : Locked → Locked × ρ) (htouched : ∀ l : Locked, l.Touched (ids l) (operation l).1)
    (heffect : ∀ l : Locked, l.Effect (a l) (operation l).1)
    (hids : ∀ l : Locked, l.queue.Away x → ¬ ids l x)
    (ha : ∀ l, s.lock = some l → s.stepAction e = a l) :
    (∀ q ∈ (s.locked operation).queue, q.Away x) ∧
      (s.locked operation).db.row x = s.db.row x := by
  rcases hl : s.lock with _ | l
  · rw [locked_of_none _ hl]
    exact ⟨haway, rfl⟩
  · rw [locked_of_some _ hl]
    obtain ⟨hq, hdb, -⟩ := lock_some hl
    have hkept := haway l.queue hq
    have hattach : ∀ hash, a l ≠ .attach x hash := by
      intro hash hattached
      have hyields := s.stepAction_yields e
      rw [ha l hl, hattached] at hyields
      exact hfresh hyields.attach
    obtain ⟨hafter, hrow⟩ :=
      Locked.away_touched hkept (htouched l) (hids l hkept) (heffect l) hattach
    constructor
    · intro q hqueue
      cases hqueue
      exact hafter
    · rw [← hdb]
      exact hrow

theorem not_competed {env : CompeteEnv} {id : TransactionId} (hnew : env.newId ≠ x) (l : Locked)
    (haway : l.queue.Away x) : ¬ l.competed env id x := by
  rintro (hid | ⟨rfl, heditable⟩)
  · exact hnew hid.symm
  · obtain ⟨editable, heditable⟩ := Option.isSome_iff_exists.mp heditable
    cases editable with
    | pending t =>
      obtain ⟨hfind, hid⟩ := TransactionsQueue.getEditable_pending heditable
      exact haway.pending t (List.mem_of_find?_eq_some hfind) hid
    | inmempool t =>
      obtain ⟨c, hfind, rfl, hid⟩ := TransactionsQueue.getEditable_inmempool heditable
      exact haway.member (List.mem_of_find?_eq_some hfind) (List.mem_cons_self ..) hid

/-- A pass over the mined map looks at one of its transactions. -/
theorem away_processMined (haway : ∀ q ∈ s.queue, q.Away x) (env : MinedEnv) :
    (∀ q ∈ (s.locked (·.processSingleMined env)).queue, q.Away x) ∧
      (s.locked (·.processSingleMined env)).db.row x = s.db.row x := by
  rcases hl : s.lock with _ | l
  · rw [locked_of_none _ hl]
    exact ⟨haway, rfl⟩
  · rw [locked_of_some _ hl]
    obtain ⟨hq, hdb, -⟩ := lock_some hl
    have hkept := haway l.queue hq
    have hx : ¬ ∃ t ∈ l.queue.minedTransactions, x = t.id := by
      rintro ⟨t, ht, rfl⟩
      exact hkept.mined t ht rfl
    have hentries : ¬ (l.processSingleMined env).1.queue.book.InEntries x := by
      rw [(l.processSingleMined_spec env).1]
      exact hkept.entries
    obtain ⟨hafter, hrow⟩ :=
      Locked.away_of_touched hkept (l.processSingleMined_touched env) hx hentries
    constructor
    · intro q hqueue
      cases hqueue
      exact hafter
    · rw [← hdb]
      exact hrow

/-- A step that brings in another id and does not restart leaves a transaction alone that memory
does not hold. -/
theorem away_step (haway : ∀ q ∈ s.queue, q.Away x) (hrunning : e.isRestart = false)
    (hfresh : e.newId ≠ some x) :
    (∀ q ∈ (s.step e).queue, q.Away x) ∧ (s.step e).db.row x = s.db.row x := by
  cases e with
  | add env toSend =>
    refine away_locked haway hfresh _ (fun l => l.addTransaction_touched env toSend)
      (fun l => l.addTransaction_effect env toSend) ?_ fun l hl => stepAction_locked hl
    rintro l - rfl
    exact hfresh rfl
  | cancel env id =>
    refine away_locked haway hfresh _ (fun l => l.cancelTransaction_touched env id)
      (fun l => l.cancelTransaction_effect env id) ?_ fun l hl => stepAction_locked hl
    exact not_competed fun hid => hfresh (congrArg some hid)
  | replace env request id =>
    refine away_locked haway hfresh _ (fun l => l.replaceTransaction_touched env request id)
      (fun l => l.replaceTransaction_effect env request id) ?_ fun l hl => stepAction_locked hl
    exact not_competed fun hid => hfresh (congrArg some hid)
  | processPending env =>
    refine away_locked haway hfresh _ (fun l => l.processSinglePending_touched env)
      (fun l => l.processSinglePending_effect env) ?_ fun l hl => stepAction_locked hl
    rintro l haway ⟨t, ht, rfl⟩
    obtain ⟨-, -, ts, hlist⟩ := Locked.pendingHead_some ht
    exact haway.pending t (hlist ▸ List.mem_cons_self ..) rfl
  | processInmempool env =>
    refine away_locked haway hfresh _ (fun l => l.processSingleInmempool_touched env)
      (fun l => l.processSingleInmempool_effect env) ?_ fun l hl => stepAction_locked hl
    rintro l haway ⟨c, hc, t, ht, rfl⟩
    exact haway.member (List.mem_of_mem_head? hc) ht rfl
  | processMined env => exact away_processMined haway env
  | restart env => cases hrunning
  | included signed =>
    show (∀ q ∈ (s.includeSigned signed).queue, q.Away x) ∧
      (s.includeSigned signed).db.row x = s.db.row x
    rw [includeSigned_queue, includeSigned_db]
    exact ⟨haway, rfl⟩

/-- Nothing is broadcast for a transaction that memory does not hold. -/
theorem away_broadcasts (haway : ∀ q ∈ s.queue, q.Away x) (hfresh : e.newId ≠ some x) :
    (s.step e).broadcasts.filter (·.1 == x) = s.broadcasts.filter (·.1 == x) := by
  obtain ⟨new, hnew, hall⟩ : ∃ new, (s.step e).broadcasts = s.broadcasts ++ new ∧
      ∀ b ∈ new, ∃ t sent, (s.writer e).owned t ∧ (s.writer e).signs t b.2 sent ∧ b.1 = t.id :=
    History.broadcasts (s.step_history e)
  have hnone : new.filter (·.1 == x) = [] := by
    apply List.filter_eq_nil_iff.mpr
    intro b hb hid
    have hid : b.1 = x := by simpa using hid
    obtain ⟨t, sent, howned, -, hbid⟩ := hall b hb
    have htid : t.id = x := hbid.symm.trans hid
    unfold writer at howned
    rcases hl : s.lock with _ | l
    · rw [hl] at howned
      cases howned
    · rw [hl] at howned
      have hkept := haway l.queue (lock_some hl).1
      rcases howned with ⟨hnewId, -⟩ | ⟨u, hu, huid, -⟩ | ⟨c, hc, u, hu, huid, -⟩
      · exact hfresh (hnewId.trans (congrArg some htid))
      · exact hkept.pending u hu (huid.trans htid)
      · exact hkept.member hc hu (huid.trans htid)
  rw [hnew, List.filter_append, hnone, List.append_nil]

end TransactionsQueues

section Startup

variable {relayer : Relayer} {env : StartupEnv} {db : Db} {x : TransactionId} {r : Row}

/-- A startup repair comes to its end, or it fails after some of its writes. -/
theorem startupRepair_ends (relayer : Relayer) (env : StartupEnv) (db : Db)
    (hserved : env.repairPoisoned = true) :
    (∃ chainNonce absent, Finished relayer env db chainNonce absent ∧
      (startupRepair relayer env db).1 =
        (afterCandidates relayer env chainNonce db).1.repairAbsentPendingTransactionsForRelayer
          relayer.id chainNonce absent absentRepairReason env.nowRepair) ∨
    (startupRepair relayer env db).2 = false ∧
      ((startupRepair relayer env db).1 = db.repairPoisonedPendingTransactionsForRelayer relayer.id ∨
        ∃ chainNonce, (startupRepair relayer env db).1 =
          (afterCandidates relayer env chainNonce db).1) := by
  unfold startupRepair repairRecordedAttemptsForRelayer
  rw [if_neg (by simpa using hserved), db.candidates_repairPoisoned relayer.id]
  rcases hnonce : pendingNonceAcrossClients env.clients with e | chainNonce
  · exact .inr ⟨rfl, .inl rfl⟩
  dsimp only
  by_cases hloaded : env.loadCandidates = true
  swap
  · rw [if_pos (by simpa using hloaded)]
    exact .inr ⟨rfl, .inl rfl⟩
  rw [if_neg (by simpa using hloaded)]
  rcases hcandidates : afterCandidates relayer env chainNonce db with ⟨db₂, e | absent⟩
  · have hafter := hcandidates
    unfold afterCandidates at hcandidates
    rw [hcandidates]
    exact .inr ⟨rfl, .inr ⟨chainNonce, by rw [hafter]⟩⟩
  · have hafter := hcandidates
    unfold afterCandidates at hcandidates
    rw [hcandidates]
    dsimp only
    by_cases hempty : absent = []
    · subst hempty
      refine .inl ⟨chainNonce, [], ⟨hnonce, hloaded, by rw [hafter], .inl rfl⟩, ?_⟩
      rw [hafter]
      rfl
    · rw [if_neg (by simpa using hempty)]
      by_cases hwrite : env.repairAbsent = true
      · rw [if_neg (by simpa using hwrite)]
        refine .inl ⟨chainNonce, absent, ⟨hnonce, hloaded, by rw [hafter], .inr hwrite⟩, ?_⟩
        rw [hafter]
      · rw [if_pos (by simpa using hwrite)]
        exact .inr ⟨rfl, .inr ⟨chainNonce, by rw [hafter]⟩⟩

/-- A pending attempt that no provider knows, off the chain nonce, is terminalised by a startup
that gets the relayer up, and left as it is by one that does not. -/
theorem startupRepair_parked (hkey : db.PrimaryKey) (hr : db.row x = some r)
    (hevidence : Db.hasAttemptEvidence relayer.id r = true)
    (hunknown : ∀ a ∈ db.getRecordedTransactionAttempts x, ¬ Known env.clients a.hash)
    (hoff : ∀ c, pendingNonceAcrossClients env.clients = .ok c → c ≠ r.nonce) :
    ((startupRepair relayer env db).2 = false ∧ (startupRepair relayer env db).1.row x = some r) ∨
      ∃ r', (startupRepair relayer env db).1.row x = some r' ∧ r'.status = .failed ∧
        r'.failedAt.isSome = true := by
  by_cases hserved : env.repairPoisoned = true
  swap
  · unfold startupRepair
    rw [if_pos (by simpa using hserved)]
    exact .inl ⟨rfl, hr⟩
  have hid : r.id = x := Db.row_id hr
  have hmem : r ∈ db.rows := Db.mem_of_row hr
  have hpoisoned := Db.repairPoisoned_untouched relayer.id hkey hr
    (Db.evidence_not_poisoned hevidence)
  have hcandidates (c : ℕ) : Db.Untouched x db (afterCandidates relayer env c db).1 :=
    hpoisoned.trans (repairCandidates_untouched relayer c _ (hpoisoned.attempts.symm ▸ hunknown))
  rcases startupRepair_ends relayer env db hserved with ⟨c, absent, hfin, hdb⟩ | ⟨hdown, hdb⟩
  · -- Every candidate was checked, so this one is listed as absent.
    have hchecked := (repairCandidates_ok_iff_checked hkey).mp ⟨absent, hfin.checked⟩ r hmem hevidence
    have habsent : AbsentEverywhere env.clients (db.getRecordedTransactionAttempts r.id) := by
      rcases hchecked.2 with habsent | ⟨a, ha⟩
      · exact habsent
      · have hlanded : findLandedAttempt env.clients (db.getRecordedTransactionAttempts r.id) =
            .ok (some a) := findLandedAttempt_some.mpr ⟨ha.answered, ha.first⟩
        obtain ⟨hrecorded, hknown⟩ := landed_found hlanded
        rw [hid] at hrecorded
        exact absurd hknown (hunknown a hrecorded)
    have hne : r.nonce ≠ c := fun hsame => hoff c hfin.nonce hsame.symm
    have hlisted : (x, (db.getRecordedTransactionAttempts x).map (·.hash)) ∈ absent :=
      (hfin.mem_absent hkey).mpr ⟨r, hmem, hid, hevidence, hchecked.1, habsent, hne, rfl⟩
    have hguard := absentGuard_of_evidence hmem hevidence hne
    rw [hid, ← absentGuard_congr (hid.symm ▸ (hcandidates c).audit)] at hguard
    have hfailed := repairAbsent_row_of_mem absentRepairReason env.nowRepair
      (hfin.absent_nodup hkey) hlisted ((hcandidates c).row.trans hr) hguard
    rw [hdb]
    exact .inr ⟨_, hfailed, rfl, rfl⟩
  · left
    refine ⟨hdown, ?_⟩
    rcases hdb with hdb | ⟨c, hdb⟩
    · rw [hdb]
      exact hpoisoned.row.trans hr
    · rw [hdb]
      exact (hcandidates c).row.trans hr

/-- A relayer that comes up has been through its repairs. -/
theorem startup_up {q : TransactionsQueue} (h : (startupTransactionsQueues relayer env db).2 = some q) :
    (startupRepair relayer env db).2 = true := by
  unfold startupTransactionsQueues at h
  split at h
  · cases h
  · split at h
    · cases h
    · rename_i hrepair
      rw [hrepair]

/-- A startup that finds no live row of the transaction holds no copy of it. -/
theorem repopulatedQueue_away {onchainNonce : ℕ}
    (hpending : Db.Avoids .pending db x) (hinmempool : Db.Avoids .inmempool db x)
    (hmined : Db.Avoids .mined db x) : (repopulatedQueue relayer env db onchainNonce).Away x := by
  constructor
  · intro t ht hid
    have hmem := (List.mem_insertionSort fun a b : Transaction => a.nonce ≤ b.nonce).mp ht
    obtain ⟨r, hr, hstatus, rfl⟩ := Db.mem_getTransactionsByStatus hmem
    exact hpending r hr hid hstatus
  · intro hin
    obtain ⟨c, hc, t, ht, hid⟩ := TransactionsQueue.inEntries_iff.mp hin
    obtain ⟨u, hu, heq⟩ := mem_repopulateLoop (fun _ hu => hu) hc t ht
    obtain ⟨r, hr, hstatus, rfl⟩ := Db.mem_getTransactionsByStatus hu
    rw [heq] at hid
    exact hinmempool r hr hid hstatus
  · intro t ht hid
    obtain ⟨r, hr, hstatus, rfl⟩ := Db.mem_getTransactionsByStatus ht
    exact hmined r hr hid hstatus

end Startup

namespace TransactionsQueues

variable {s : TransactionsQueues} {e : Event} {x : TransactionId} {n : ℕ}

/-- Nothing is left of the transaction, or it failed, or it is a pending attempt at the nonce. -/
structure Parked (s : TransactionsQueues) (x : TransactionId) (n : ℕ) : Prop where
  key : s.db.PrimaryKey
  away : ∀ q ∈ s.queue, q.Away x
  row : ∀ r ∈ s.db.row x, r.status = .failed ∧ r.failedAt.isSome = true ∨
    Db.hasAttemptEvidence s.relayer.id r = true ∧ r.nonce = n

/-- The event brings in another id, and a restart that finds the transaction pending reads another
chain nonce and no provider that knows an attempt of it. -/
structure LeavesParked (x : TransactionId) (n : ℕ) (s : TransactionsQueues) (e : Event) : Prop where
  fresh : e.newId ≠ some x
  restart : ∀ env, e = .restart env → ∀ r ∈ s.db.row x, r.status = .pending →
    (∀ c, pendingNonceAcrossClients env.clients = .ok c → c ≠ n) ∧
      ∀ a ∈ s.db.getRecordedTransactionAttempts x, ¬ Known env.clients a.hash

@[simp] theorem step_relayer (s : TransactionsQueues) (e : Event) :
    (s.step e).relayer = s.relayer := by
  have hchange := s.step_change e
  generalize s.step e = s' at hchange ⊢
  cases hchange <;> rfl

/-- The repairs of a startup leave the row of a parked transaction as it is and fail, or what they
leave of it has failed. -/
theorem Parked.repaired (h : s.Parked x n) {env : StartupEnv}
    (hleaves : LeavesParked x n s (.restart env)) :
    ((startupRepair s.relayer env s.db).2 = false ∧
      (startupRepair s.relayer env s.db).1.row x = s.db.row x) ∨
      ∀ r ∈ (startupRepair s.relayer env s.db).1.row x,
        r.status = .failed ∧ r.failedAt.isSome = true := by
  rcases hrow : s.db.row x with _ | r
  · right
    have hids := startupRepair_sameIds s.relayer env s.db
    intro r hr
    have hmem : x ∈ s.db.rows.map (·.id) := by
      rw [← hids]
      exact List.mem_map.mpr ⟨r, Db.mem_of_row hr, Db.row_id hr⟩
    obtain ⟨r₀, hr₀, hid⟩ := List.mem_map.mp hmem
    have hnone : Db.Avoids r₀.status s.db x := Db.avoids_of_row_none hrow
    exact absurd rfl (hnone r₀ hr₀ hid)
  · rcases h.row r hrow with ⟨hstatus, hfailed⟩ | ⟨hevidence, rfl⟩
    · right
      have hkept := startupRepair_row_of_failed s.relayer env hrow hfailed
      have hpoisoned : Db.poisoned s.relayer.id r = false := by
        unfold Db.poisoned
        rw [hstatus]
        simp
      rw [hpoisoned] at hkept
      intro r' hr'
      rw [hkept] at hr'
      have hsame : r = r' := by simpa using hr'
      rw [← hsame]
      exact ⟨hstatus, hfailed⟩
    · have hpending : r.status = .pending := by
        unfold Db.hasAttemptEvidence at hevidence
        simp only [Bool.and_eq_true, beq_iff_eq] at hevidence
        exact hevidence.1.1.1.2
      obtain ⟨hoff, hunknown⟩ := hleaves.restart env rfl r hrow hpending
      rcases startupRepair_parked h.key hrow hevidence hunknown hoff with hdown | ⟨r', hr', hfailed⟩
      · exact .inl hdown
      · right
        intro r'' hr''
        rw [hr'] at hr''
        cases hr''
        exact hfailed

theorem Parked.restart (h : s.Parked x n) {env : StartupEnv}
    (hleaves : LeavesParked x n s (.restart env)) : (s.startup env).Parked x n := by
  have hhistory : History (s.writer (.restart env)) (s.db, s.broadcasts)
      ((s.step (.restart env)).db, (s.step (.restart env)).broadcasts) :=
    s.step_history (.restart env)
  have hkey : (s.startup env).db.PrimaryKey := hhistory.primaryKey h.key
  have hdb := startupTransactionsQueues_db s.relayer env s.db
  have hafter := h.repaired hleaves
  constructor
  · exact hkey
  · intro q hq
    have hup := startup_up hq
    have hprovider : env.providerFound = true := by
      by_contra hnone
      have hqueue : (startupTransactionsQueues s.relayer env s.db).2 = some q := hq
      unfold startupTransactionsQueues at hqueue
      rw [if_pos (by simpa using hnone)] at hqueue
      cases hqueue
    obtain ⟨onchainNonce, -, rfl⟩ := startupTransactionsQueues_queue hq
    rw [hprovider, if_pos rfl] at hdb
    rcases hafter with ⟨hdown, -⟩ | hfailed
    · rw [hup] at hdown
      cases hdown
    · have havoids {status : TransactionStatus} (hne : status ≠ .failed) :
          Db.Avoids status (startupTransactionsQueues s.relayer env s.db).1 x := by
        rw [hdb]
        have hkeys : (startupRepair s.relayer env s.db).1.PrimaryKey := by
          rw [← hdb]
          exact hkey
        rcases hrow : (startupRepair s.relayer env s.db).1.row x with _ | r
        · exact Db.avoids_of_row_none hrow
        · apply Db.avoids_of_row hkeys (Db.mem_of_row hrow) (Db.row_id hrow)
          rw [(hfailed r hrow).1]
          exact hne.symm
      apply repopulatedQueue_away
      · exact havoids (fun h => nomatch h)
      · exact havoids (fun h => nomatch h)
      · exact havoids (fun h => nomatch h)
  · intro r hr
    have hr : (startupTransactionsQueues s.relayer env s.db).1.row x = some r := hr
    rw [hdb] at hr
    split at hr
    · rcases hafter with ⟨-, hsame⟩ | hfailed
      · rw [hsame] at hr
        exact h.row r hr
      · exact .inl (hfailed r hr)
    · exact h.row r hr

theorem Parked.step (h : s.Parked x n) (hleaves : LeavesParked x n s e) : (s.step e).Parked x n := by
  by_cases hrunning : e.isRestart = true
  · cases e with
    | restart env => exact h.restart hleaves
    | _ => cases hrunning
  · obtain ⟨haway, hrow⟩ := away_step h.away (eq_false_of_ne_true hrunning) hleaves.fresh
    have hhistory : History (s.writer e) (s.db, s.broadcasts)
        ((s.step e).db, (s.step e).broadcasts) := s.step_history e
    refine ⟨hhistory.primaryKey h.key, haway, ?_⟩
    intro r hr
    rw [hrow] at hr
    rw [step_relayer]
    exact h.row r hr

/-- Nothing is broadcast for a parked transaction as long as the events leave it parked. -/
theorem Parked.run {es : List Event} (h : s.Parked x n)
    (hleaves : EventMachine.Along TransactionsQueues.step (LeavesParked x n) s es) :
    (s.run es).broadcasts.filter (·.1 == x) = s.broadcasts.filter (·.1 == x) := by
  induction es generalizing s with
  | nil => rfl
  | cons e es ih =>
    have hstep := away_broadcasts h.away hleaves.1.fresh
    exact (ih (h.step hleaves.1) hleaves.2).trans hstep

/-- The queue is the relayer's own. -/
def Own (s : TransactionsQueues) : Prop := ∀ q ∈ s.queue, q.relayer = s.relayer

theorem Own.step (h : s.Own) : (s.step e).Own := by
  have hchange := s.step_change e
  generalize s.step e = s' at hchange ⊢
  cases hchange with
  | idle => exact h
  | acted hl heffect =>
    intro q hq
    cases hq
    exact heffect.relayer.trans (h _ (lock_some hl).1)
  | @confirmed l env he hl =>
    intro q hq
    cases hq
    have hrelayer : (l.processSingleMined env).1.queue.relayer = l.queue.relayer := by
      rcases l.processSingleMined_cases env with hkept | ⟨t, -, hconfirmed⟩
      · rw [hkept]
      · rw [hconfirmed]
        rfl
    exact hrelayer.trans (h _ (lock_some hl).1)
  | restarted env he =>
    intro q hq
    obtain ⟨onchainNonce, -, rfl⟩ := startupTransactionsQueues_queue hq
    rfl
  | extended => exact h

theorem Own.run {es : List Event} (h : s.Own) : (s.run es).Own :=
  EventMachine.run_invariant (fun _ _ h => h.step) h es

end TransactionsQueues

namespace Locked

variable {l l' : Locked}

/-- What a failed send leaves of a transaction that had no row. -/
theorem send_failed_row {env : SendEnv} {t t' : Transaction}
    {error : TransactionQueueSendTransactionError} (hnew : l.db.row t.id = none)
    (hstatus : t.status = .pending) (h : l.send env t = (t', l', .error error)) :
    l'.queue = l.queue ∧ ∀ r ∈ l'.db.row t.id,
      Db.hasAttemptEvidence l.queue.relayer.id r = true ∧ r.nonce = t.nonce := by
  have hslot := (prepareSend_spec l.queue.toSendConfig env t).1
  have hattempted {t₁ : Transaction} {signed : SignedTransaction}
      {sent : TransactionSentWithRelayer} {db : Db}
      (hp : prepareSend l.queue.toSendConfig env t = (t₁, .ok (signed, sent)))
      (hattempt : l.db.transactionBroadcastAttempt l.queue.toSendConfig.relayer.id t₁ sent.hash
        sent.sentWithGas sent.sentWithBlobGas l.queue.toSendConfig.isLegacyTransactions
        env.nowSent = some db) : ∀ r ∈ db.row t.id,
        Db.hasAttemptEvidence l.queue.relayer.id r = true ∧ r.nonce = t.nonce := by
    rw [hp] at hslot
    have hid : t₁.id = t.id := hslot.id
    intro r hr
    have hnone : l.db.row t₁.id = none := hid ▸ hnew
    unfold Db.transactionBroadcastAttempt at hattempt
    dsimp only at hattempt
    rw [hnone] at hattempt
    obtain ⟨inserted, hinsert, rfl⟩ := Option.map_eq_some_iff.mp hattempt
    have hrow : r ∈ inserted.rows := Db.mem_of_row hr
    have hrid : r.id = t.id := Db.row_id hr
    unfold Db.insert at hinsert
    split at hinsert
    · cases hinsert
    · cases hinsert
      rcases List.mem_append.mp hrow with hold | hadded
      · have havoids : Db.Avoids r.status l.db t.id := Db.avoids_of_row_none hnew
        exact absurd rfl (havoids r hold hrid)
      · have hpending : t₁.status = .pending := hslot.status.trans hstatus
        rw [List.mem_singleton.mp hadded]
        constructor
        · unfold Db.hasAttemptEvidence
          simp [Row.withAttempt, Row.withGas, Row.blank, hpending]
        · exact hslot.nonce
  have hends := l.send_ends env t
  rw [h] at hends
  cases hends with
  | unprepared | unrecorded =>
    refine ⟨rfl, ?_⟩
    intro r hr
    rw [hnew] at hr
    cases hr
  | refused hp hattempt | unmarked hp hattempt => exact ⟨rfl, hattempted hp hattempt⟩

/-- A cancel or replace of an in-mempool original at the nonce whose competitor is not sent, or
whose send fails. -/
def FailsToCompete (l : Locked) (e : Event) (env : CompeteEnv) (n : ℕ) : Prop :=
  ((∃ id, e = .cancel env id ∧ ∃ original ∈ l.raced env id, original.nonce = n) ∨
    ∃ request id, e = .replace env request id ∧ ∃ original ∈ l.raced env id, original.nonce = n) ∧
  ∀ r ∈ l.requested e, (l.send env.send r.2.2).2.2.toOption = none

/-- A competitor that fails leaves the queue as it is, and at most its pending attempt. -/
theorem sendCompetitor_failed {env : CompeteEnv} {original competitor : Transaction}
    {type : CompetitionType} (hnew : l.db.row competitor.id = none)
    (hstatus : competitor.status = .pending)
    (hfailed : (l.send env.send competitor).2.2.toOption = none) :
    (l.sendCompetitor env original competitor type).1.queue = l.queue ∧
      ∀ r ∈ (l.sendCompetitor env original competitor type).1.db.row competitor.id,
        Db.hasAttemptEvidence l.queue.relayer.id r = true ∧ r.nonce = competitor.nonce := by
  unfold sendCompetitor
  split
  · rename_i hsend
    have hleft := send_failed_row hnew hstatus hsend
    split
    · split
      · exact hleft
      · exact hleft
    · exact hleft
  · rename_i hsend
    exact send_failed_row hnew hstatus hsend
  · rename_i hsend
    rw [hsend] at hfailed
    cases hfailed

theorem FailsToCompete.left {e : Event} {env : CompeteEnv} {n : ℕ}
    (h : l.FailsToCompete e env n) (hnew : l.db.row env.newId = none) :
    ∃ l', (∀ s : TransactionsQueues, s.lock = some l → s.step e = s.unlock l') ∧
      l'.queue = l.queue ∧ ∀ r ∈ l'.db.row env.newId,
        Db.hasAttemptEvidence l.queue.relayer.id r = true ∧ r.nonce = n := by
  have hnothing : ∀ r ∈ l.db.row env.newId,
      Db.hasAttemptEvidence l.queue.relayer.id r = true ∧ r.nonce = n := by
    intro r hr
    rw [hnew] at hr
    cases hr
  have hleft : ∀ {type : CompetitionType} {original competitor : Transaction},
      CompetesWith env original competitor → original.nonce = n →
      (l.send env.send competitor).2.2.toOption = none →
      (l.sendCompetitor env original competitor type).1.queue = l.queue ∧
        ∀ r ∈ (l.sendCompetitor env original competitor type).1.db.row env.newId,
          Db.hasAttemptEvidence l.queue.relayer.id r = true ∧ r.nonce = n := by
    intro type original competitor hcompetes hnonce hfailed
    rw [← hnonce, ← hcompetes.nonce, ← hcompetes.id]
    apply sendCompetitor_failed _ hcompetes.status hfailed
    rw [hcompetes.id]
    exact hnew
  obtain ⟨hkind, hfailed⟩ := h
  rcases hkind with ⟨id, rfl, original, hraced, hnonce⟩ |
    ⟨request, id, rfl, original, hraced, hnonce⟩
  · obtain ⟨-, -, heditable⟩ := raced_some hraced
    refine ⟨(l.cancelTransaction env id).1, ?_, ?_⟩
    · intro s hlock
      exact TransactionsQueues.locked_of_some _ hlock
    · obtain hkept | ⟨t, hpending, -⟩ | ⟨original', competitor, hraced', hcompetitor, hsent⟩ :=
        l.cancelTransaction_cases env id
      · rw [hkept]
        exact ⟨rfl, hnothing⟩
      · rw [heditable] at hpending
        cases hpending
      · rw [hraced] at hraced'
        cases hraced'
        rw [hsent]
        exact hleft (cancelCompetitor_competes hcompetitor) hnonce
          (hfailed _ (requested_cancel hraced hcompetitor))
  · obtain ⟨-, -, heditable⟩ := raced_some hraced
    refine ⟨(l.replaceTransaction env request id).1, ?_, ?_⟩
    · intro s hlock
      exact TransactionsQueues.locked_of_some _ hlock
    · obtain hkept | ⟨t, blobs, hpending, -⟩ |
          ⟨original', competitor, hraced', hcompetitor, hsent⟩ :=
        l.replaceTransaction_cases env request id
      · rw [hkept]
        exact ⟨rfl, hnothing⟩
      · rw [heditable] at hpending
        cases hpending
      · rw [hraced] at hraced'
        cases hraced'
        rw [hsent]
        exact hleft (replaceCompetitor_competes hcompetitor) hnonce
          (hfailed _ (requested_replace hraced hcompetitor))

end Locked

namespace TransactionsQueues

end TransactionsQueues

end Rrelayer
