import Rrelayer.QueueMoves
import Rrelayer.MirroredRuns
import Rrelayer.LiveNonces

/-! Conservation over the operations and over the run of one process. -/
namespace Rrelayer

open TransactionsQueue (Keeps)

namespace Locked

variable {l l' : Locked} {newId : Option TransactionId}

/-- The pending transaction an operation works on stands first under its id. -/
def Heads (l : Locked) (t : Transaction) : Prop :=
  ∃ head rest, l.queue.pendingTransactions = head :: rest ∧ head.id = t.id ∧ head.nonce = t.nonce

theorem Heads.find {t : Transaction} (h : l.Heads t) : ∃ u,
    l.queue.pendingTransactions.find? (·.id == t.id) = some u ∧ t.nonce = u.nonce := by
  obtain ⟨head, rest, hlist, hid, hnonce⟩ := h
  exact ⟨head, by simp [hlist, hid], hnonce.symm⟩

section Pending

variable {env : PendingEnv} {t : Transaction}

theorem moveSent_keeps {sent : TransactionSentWithRelayer}
    {result : ProcessResult ProcessPendingStatus} :
    Keeps newId l.queue (l.moveSent env t sent result).1.queue := by
  unfold moveSent
  split
  · exact .refl newId l.queue
  · rename_i q hmove
    exact TransactionsQueue.keeps_movePendingToInmempool hmove

theorem pendingFailed_keeps {error : TransactionQueueSendTransactionError} (h : l.Heads t) :
    Keeps newId l.queue (l.pendingFailed env t error).1.queue := by
  have hadopted {db : Db} {attempt : RecordedTransactionAttempt} {gas : GasPriceResult}
      {result : ProcessResult ProcessPendingStatus} : Keeps newId l.queue
        (({ l with db := db } : Locked).moveSent env t (attemptSent t attempt gas) result).1.queue :=
    moveSent_keeps (l := { l with db := db })
  have hleaves := l.pendingFailed_leaves env t error
  generalize (l.pendingFailed env t error).1 = l' at hleaves ⊢
  cases hleaves with
  | kept => exact .refl newId l.queue
  | closedOut reason =>
    obtain ⟨u, hfind, hnonce⟩ := h.find
    exact TransactionsQueue.keeps_updatePendingTransaction (u := l.closedOut t reason) hfind hnonce
  | reassigned newNonce =>
    have hkeeps := @TransactionsQueue.keeps_updatePendingTransactionNonce
      (l.advanceTransactionNonce t.id newNonce).queue newId t.id newNonce
    exact ⟨hkeeps.ids, hkeeps.sorted⟩
  | mined | recovered => exact hadopted

theorem processSinglePending_keeps (l : Locked) (env : PendingEnv) :
    Keeps none l.queue (l.processSinglePending env).1.queue := by
  unfold processSinglePending
  split
  · exact .refl none l.queue
  · split
    · exact .refl none l.queue
    · rename_i t hnext
      split
      · exact .refl none l.queue
      · have hspec := send_spec l env.send (l.pendingCopy env t)
        obtain ⟨rest, hlist⟩ := TransactionsQueue.getNextPending_some hnext
        split
        · rename_i t' l' sent hsend
          rw [hsend] at hspec
          rw [← hspec.queue]
          exact moveSent_keeps
        · rename_i t' l' e hsend
          rw [hsend] at hspec
          have hcopy : (l.pendingCopy env t).id = t.id ∧ (l.pendingCopy env t).nonce = t.nonce := by
            unfold pendingCopy
            split
            · exact ⟨rfl, rfl⟩
            · exact ⟨rfl, rfl⟩
          have hheads : l'.Heads t' := by
            refine ⟨t, rest, ?_, ?_, ?_⟩
            · rw [hspec.queue]
              exact hlist
            · exact (hspec.id.trans hcopy.1).symm
            · exact (hspec.nonce.trans hcopy.2).symm
          rw [← hspec.queue]
          exact pendingFailed_keeps hheads

end Pending

section Inmempool

variable {env : InmempoolEnv} {t : Transaction}

theorem resolveInmempool_keeps {receipt : Receipt} :
    Keeps newId l.queue (l.resolveInmempool env t receipt).1.queue := by
  unfold resolveInmempool
  split
  · exact .refl newId l.queue
  · rename_i r q' hmove
    obtain ⟨hqueue, -, -⟩ := saveResolution_frame { l with queue := q' } env receipt r
      (P := fun _ _ => True) trivial fun _ _ => trivial
    rw [hqueue]
    exact TransactionsQueue.keeps_moveInmempoolToMining hmove

theorem bumpFailed_keeps {error : TransactionQueueSendTransactionError} :
    Keeps newId l.queue (l.bumpFailed env t error).1.queue := by
  have hleaves := l.bumpFailed_leaves env t error
  generalize (l.bumpFailed env t error).1 = l' at hleaves ⊢
  cases hleaves with
  | kept => exact .refl newId l.queue
  | reassigned newNonce =>
    have hkeeps := @TransactionsQueue.keeps_updateInmempoolTransactionNonce
      (l.advanceTransactionNonce t.id newNonce).queue newId t.id newNonce
    exact ⟨hkeeps.ids, hkeeps.sorted⟩

/-- Both writes of an accepted bump keep ids and places. -/
theorem bumpSent_keeps {wasNoop : Bool} {sent : TransactionSentWithRelayer} :
    Keeps newId l.queue (l.bumpSent env t wasNoop sent).1.queue := by
  have hgas : Keeps none l.queue (l.queue.updateInmempoolTransactionGas sent env.nowWrite) :=
    TransactionsQueue.keeps_updateFrontById fun _ => rfl
  have hweaken {q : TransactionsQueue} (h : Keeps none l.queue q) : Keeps newId l.queue q :=
    ⟨h.ids.trans (List.sublist_append_right ..).subperm, h.sorted⟩
  unfold bumpSent
  dsimp only
  apply hweaken
  split
  · have hnoop : Keeps none (l.queue.updateInmempoolTransactionGas sent env.nowWrite)
        ((l.queue.updateInmempoolTransactionGas sent env.nowWrite).updateInmempoolTransactionNoop
          t.id sent env.nowWrite) :=
      TransactionsQueue.keeps_updateFrontById fun _ => rfl
    exact ⟨hnoop.ids.trans hgas.ids, fun hsorted => hnoop.sorted (hgas.sorted hsorted)⟩
  · exact hgas

theorem processSingleInmempool_keeps (l : Locked) (env : InmempoolEnv) :
    Keeps none l.queue (l.processSingleInmempool env).1.queue := by
  rcases hpolled : l.polled env with _ | ⟨t, hash⟩
  · rw [processSingleInmempool_unpolled hpolled]
    exact .refl none l.queue
  rw [processSingleInmempool_polled hpolled]
  split
  · exact .refl none l.queue
  · exact resolveInmempool_keeps
  · split
    · have hspec := send_spec l env.send t
      unfold bumpInmempool
      split
      · rename_i hsend
        rw [hsend] at hspec
        rw [← hspec.queue]
        exact bumpSent_keeps
      · rename_i hsend
        rw [hsend] at hspec
        rw [← hspec.queue]
        exact bumpFailed_keeps
    · exact .refl none l.queue

theorem processSingleMined_keeps (l : Locked) (env : MinedEnv) :
    Keeps none l.queue (l.processSingleMined env).1.queue := by
  rcases l.processSingleMined_cases env with hkept | ⟨t, -, hconfirmed⟩
  · rw [hkept]
    exact .refl none l.queue
  · rw [hconfirmed]
    exact TransactionsQueue.keeps_moveMiningToConfirmed

end Inmempool

section Compete

variable {env : CompeteEnv} {original competitor : Transaction}

theorem sendCompetitor_keeps {type : CompetitionType} (hid : competitor.id = env.newId) :
    Keeps (some env.newId) l.queue (l.sendCompetitor env original competitor type).1.queue := by
  have hspec := send_spec l env.send competitor
  have hsame {q : TransactionsQueue} (hqueue : q = l.queue) : Keeps (some env.newId) l.queue q := by
    rw [hqueue]
    exact .refl _ l.queue
  unfold sendCompetitor
  split
  · rename_i hsend
    rw [hsend] at hspec
    split
    · split
      · exact hsame hspec.queue
      · exact hsame hspec.queue
    · exact hsame hspec.queue
  · rename_i hsend
    rw [hsend] at hspec
    exact hsame hspec.queue
  · rename_i sentCompetitor l' sent hsend
    rw [hsend] at hspec
    dsimp only
    split
    · exact hsame hspec.queue
    · split
      · exact hsame hspec.queue
      · rename_i q hadd
        have hkeeps := TransactionsQueue.keeps_addCompetitor hadd
        rw [hspec.queue] at hkeeps
        have hnew : sentCompetitor.id = env.newId := hspec.id.trans hid
        rw [← hnew]
        exact hkeeps

theorem rewritePending_keeps {t u : Transaction} {l' : Locked}
    (hfind : l.queue.pendingTransactions.find? (·.id == u.id) = some t)
    (hnonce : u.nonce = t.nonce) (h : l.rewritePending env u = some l') :
    Keeps newId l.queue l'.queue := by
  unfold rewritePending at h
  split at h
  · cases h
    exact TransactionsQueue.keeps_updatePendingTransaction hfind hnonce
  · cases h

theorem cancelTransaction_keeps (l : Locked) (env : CompeteEnv) (id : TransactionId) :
    Keeps (some env.newId) l.queue (l.cancelTransaction env id).1.queue := by
  obtain hkept | ⟨t, heditable, hrewrite⟩ | ⟨original, competitor, hraced, hcompetitor, hsent⟩ :=
    l.cancelTransaction_cases env id
  · rw [hkept]
    exact .refl _ l.queue
  · obtain ⟨ht, hid⟩ := TransactionsQueue.getEditable_pending heditable
    rw [← hid] at ht
    exact rewritePending_keeps (u := l.cancelledPending t) ht rfl hrewrite
  · rw [hsent]
    exact sendCompetitor_keeps (cancelCompetitor_competes hcompetitor).id

theorem replaceTransaction_keeps (l : Locked) (env : CompeteEnv)
    (request : RelayTransactionRequest) (id : TransactionId) :
    Keeps (some env.newId) l.queue (l.replaceTransaction env request id).1.queue := by
  obtain hkept | ⟨t, blobs, heditable, hrewrite⟩ |
      ⟨original, competitor, hraced, hcompetitor, hsent⟩ :=
    l.replaceTransaction_cases env request id
  · rw [hkept]
    exact .refl _ l.queue
  · obtain ⟨ht, hid⟩ := TransactionsQueue.getEditable_pending heditable
    rw [← hid] at ht
    exact rewritePending_keeps (u := transactionReplace request t blobs) ht rfl hrewrite
  · rw [hsent]
    exact sendCompetitor_keeps (replaceCompetitor_competes hcompetitor).id

end Compete

theorem addTransaction_keeps (l : Locked) (env : AdmissionEnv) (toSend : TransactionToSend) :
    Keeps (some toSend.id) l.queue (l.addTransaction env toSend).1.queue := by
  have hleaves := l.addTransaction_leaves env toSend
  generalize (l.addTransaction env toSend).1 = l' at hleaves ⊢
  cases hleaves with
  | kept | rejected => exact .of_same rfl rfl
  | saved manager hid =>
    rw [← hid]
    exact ⟨TransactionsQueue.keeps_addPendingTransaction.ids,
      TransactionsQueue.keeps_addPendingTransaction.sorted⟩

end Locked

/-- The links between the rows in the mempool give each original a competitor of its own, which
names no competitor itself. -/
structure PairedLinks (rows : List Transaction) : Prop where
  flat : ∀ a ∈ rows, ∀ b ∈ rows, a.cancelledByTransactionId = some b.id →
    b.cancelledByTransactionId = none
  own : ∀ a ∈ rows, ∀ b ∈ rows, ∀ z, a.cancelledByTransactionId = some z →
    b.cancelledByTransactionId = some z → a.id = b.id

/-- Rows that pair originals and competitors as memory does have such links. -/
theorem RowsPaired.pairedLinks {db : Db} {relayerId : RelayerId} (h : RowsPaired db relayerId)
    (hkey : db.PrimaryKey) :
    PairedLinks (db.getTransactionsByStatusForRelayer relayerId .inmempool) := by
  constructor
  · intro a ha b hb hlink
    obtain ⟨ra, hra, hrelayer, hstatus, rfl⟩ := mem_byStatus.mp ha
    obtain ⟨rb, hrb, -, -, rfl⟩ := mem_byStatus.mp hb
    obtain ⟨r', hr', hid, hin, -⟩ := h.linked ra hra hrelayer hstatus _ hlink
    have hrow : r' = rb := row_unique hkey hr' hrb hid
    exact hrow ▸ hin.link
  · intro a ha b hb z hlink hlink'
    obtain ⟨ra, hra, hrelayer, hstatus, rfl⟩ := mem_byStatus.mp ha
    obtain ⟨rb, hrb, hrelayer', hstatus', rfl⟩ := mem_byStatus.mp hb
    exact h.unique ra hra hrelayer hstatus rb hrb hrelayer' hstatus' z hlink hlink'

section Repopulated

variable {all : List Transaction}

/-- An entry read back is a row, alone or with the row it is linked to. -/
theorem Opens.member {t : Transaction} {c : CompetitiveTransaction} (h : Opens all t c)
    {x : TransactionId} (hx : x ∈ c.ids) :
    x = t.id ∧ (t.cancelledByTransactionId = none →
        ∀ a ∈ all, a.cancelledByTransactionId ≠ some t.id) ∨
      t.cancelledByTransactionId = some x ∧ ∃ u ∈ all, u.id = x := by
  cases h with
  | @paired id competitor hlink hfind =>
    have hid : competitor.id = id := by simpa using List.find?_some hfind
    rcases List.mem_cons.mp hx with hx | hx
    · left
      refine ⟨hx, fun hnone => ?_⟩
      rw [hlink] at hnone
      cases hnone
    · right
      have hx : x = competitor.id := List.mem_singleton.mp hx
      rw [hx]
      exact ⟨hlink.trans (congrArg some hid.symm), competitor, List.mem_of_find?_eq_some hfind, rfl⟩
  | dangling hlink =>
    left
    refine ⟨List.mem_singleton.mp hx, fun hnone => ?_⟩
    rw [hlink] at hnone
    cases hnone
  | single hlink hunlinked => exact .inl ⟨List.mem_singleton.mp hx, fun _ => hunlinked⟩

/-- Two entries that share a transaction are opened by the same row. -/
theorem PairedLinks.opens_apart (h : PairedLinks all) {t u : Transaction} (ht : t ∈ all)
    (hu : u ∈ all) {c d : CompetitiveTransaction} (hc : Opens all t c) (hd : Opens all u d)
    {x : TransactionId} (hxc : x ∈ c.ids) (hxd : x ∈ d.ids) : t.id = u.id := by
  -- A competitor opens no entry: linked to by one row, it would be linked to another.
  have hmixed {t u : Transaction} (ht : t ∈ all) (hu : u ∈ all) (hx : x = t.id)
      (halone : t.cancelledByTransactionId = none →
        ∀ a ∈ all, a.cancelledByTransactionId ≠ some t.id)
      (hlink : u.cancelledByTransactionId = some x) : False := by
    rw [hx] at hlink
    exact halone (h.flat u hu t ht hlink) u hu hlink
  rcases hc.member hxc with ⟨hx, halone⟩ | ⟨hlink, hrow⟩
  · rcases hd.member hxd with ⟨hx', -⟩ | ⟨hlink', -⟩
    · exact hx.symm.trans hx'
    · exact (hmixed ht hu hx halone hlink').elim
  · rcases hd.member hxd with ⟨hx', halone'⟩ | ⟨hlink', -⟩
    · exact (hmixed hu ht hx' halone' hlink).elim
    · exact h.own t ht u hu x hlink hlink'

end Repopulated

section Startup

variable {db : Db} {relayer : Relayer} {env : StartupEnv} {onchainNonce : ℕ}

/-- Entries read back from paired rows hold each transaction once. -/
theorem PairedLinks.entries (hkey : db.PrimaryKey) {relayerId : RelayerId}
    (h : PairedLinks (db.getTransactionsByStatusForRelayer relayerId .inmempool)) :
    ((repopulateCompetitiveTransactionQueue db relayerId).flatMap (·.ids)).Nodup := by
  unfold repopulateCompetitiveTransactionQueue
  set all := db.getTransactionsByStatusForRelayer relayerId .inmempool with hall
  have horiginals : ((repopulateLoop all all []).map (·.original.id)).Nodup :=
    (Db.getTransactionsByStatus_nodup hkey).sublist (repopulateLoop_originals ..)
  refine List.nodup_flatMap.mpr ⟨?_, ?_⟩
  · intro c hc
    obtain ⟨t, ht, hopens⟩ := repopulateLoop_from hc
    cases hopens with
    | @paired id competitor hlink hfind =>
      have hid : competitor.id = id := by simpa using List.find?_some hfind
      have hcompetitor := List.mem_of_find?_eq_some hfind
      have hne : t.id ≠ competitor.id := by
        intro hsame
        have hself : t.cancelledByTransactionId = some t.id := by
          rw [hlink, hsame, hid]
        have hnone := h.flat t ht t ht hself
        rw [hself] at hnone
        cases hnone
      show [t.id, competitor.id].Nodup
      simpa using hne
    | dangling => exact List.nodup_singleton _
    | single => exact List.nodup_singleton _
  · apply List.Nodup.pairwise_of_forall_ne (horiginals.of_map _)
    intro c hc d hd hne x hxc hxd
    obtain ⟨t, ht, hopens⟩ := repopulateLoop_from hc
    obtain ⟨u, hu, hopens'⟩ := repopulateLoop_from hd
    have hsame := h.opens_apart ht hu hopens hopens' hxc hxd
    apply hne
    apply List.inj_on_of_nodup_map horiginals hc hd
    rw [hopens.original_id, hopens'.original_id, hsame]

/-- An id of the repopulated entries is the id of a row in the mempool. -/
theorem entryIds_rows {x : TransactionId}
    (hx : x ∈ (repopulatedQueue relayer env db onchainNonce).entryIds) :
    x ∈ (db.getTransactionsByStatusForRelayer relayer.id .inmempool).map (·.id) := by
  obtain ⟨c, hc, t, ht, rfl⟩ := mem_entryIds.mp hx
  obtain ⟨u, hu, heq⟩ := mem_repopulateLoop (fun _ hu => hu) hc t ht
  exact List.mem_map.mpr ⟨u, hu, by rw [heq]⟩

/-- A queue read from the rows holds each transaction once, by nonce. -/
theorem repopulatedQueue_conserved (hkey : db.PrimaryKey)
    (hlinks : PairedLinks (db.getTransactionsByStatusForRelayer relayer.id .inmempool)) :
    (repopulatedQueue relayer env db onchainNonce).Conserved := by
  have hstatus {x : TransactionId} {a b : TransactionStatus}
      (ha : x ∈ (db.getTransactionsByStatusForRelayer relayer.id a).map (·.id))
      (hb : x ∈ (db.getTransactionsByStatusForRelayer relayer.id b).map (·.id)) : a = b := by
    obtain ⟨t, ht, rfl⟩ := List.mem_map.mp ha
    obtain ⟨u, hu, hid⟩ := List.mem_map.mp hb
    obtain ⟨r, hr, -, hra, rfl⟩ := mem_byStatus.mp ht
    obtain ⟨r', hr', -, hrb, rfl⟩ := mem_byStatus.mp hu
    have hrow := row_unique hkey hr' hr hid
    rw [← hra, ← hrb, hrow]
  have hpending : ∀ x ∈ (repopulatedQueue relayer env db onchainNonce).pendingTransactions.map
      (·.id), x ∈ (db.getTransactionsByStatusForRelayer relayer.id .pending).map (·.id) := by
    intro x hx
    have hperm := (List.perm_insertionSort (fun a b : Transaction => a.nonce ≤ b.nonce)
      (db.getTransactionsByStatusForRelayer relayer.id .pending)).map (·.id)
    exact hperm.mem_iff.mp hx
  constructor
  · refine List.nodup_append.mpr ⟨?_, List.nodup_append.mpr ⟨?_, ?_, ?_⟩, ?_⟩
    · have hperm := (List.perm_insertionSort (fun a b : Transaction => a.nonce ≤ b.nonce)
        (db.getTransactionsByStatusForRelayer relayer.id .pending)).map (·.id)
      exact hperm.nodup_iff.mpr (Db.getTransactionsByStatus_nodup hkey)
    · exact PairedLinks.entries hkey hlinks
    · exact Db.getTransactionsByStatus_nodup hkey
    · rintro x hx y hy rfl
      cases hstatus (entryIds_rows hx) hy
    · rintro x hx y hy rfl
      rcases List.mem_append.mp hy with hy | hy
      · cases hstatus (hpending x hx) (entryIds_rows hy)
      · cases hstatus (hpending x hx) hy
  · exact TransactionsQueue.sortPendingTransactions_sorted _

end Startup

namespace TransactionsQueues

section Process

variable {s : TransactionsQueues}

/-- A process as it starts: without a queue, with an empty one, or with the one read from rows
whose ids are unique and whose links pair them. -/
def ProcessStart (s : TransactionsQueues) : Prop :=
  ∀ q ∈ s.queue,
    (q.pendingTransactions = [] ∧ q.inmempoolTransactions = [] ∧ q.minedTransactions = []) ∨
    ∃ env onchainNonce, q = repopulatedQueue s.relayer env s.db onchainNonce ∧ s.db.PrimaryKey ∧
      PairedLinks (s.db.getTransactionsByStatusForRelayer s.relayer.id .inmempool)

/-- A startup is such a start. -/
theorem startup_processStart {env : StartupEnv} (hkey : (s.startup env).db.PrimaryKey)
    (hlinks : PairedLinks
      ((s.startup env).db.getTransactionsByStatusForRelayer s.relayer.id .inmempool)) :
    (s.startup env).ProcessStart := by
  intro q hq
  obtain ⟨onchainNonce, -, rfl⟩ := startupTransactionsQueues_queue hq
  exact .inr ⟨env, onchainNonce, rfl, hkey, hlinks⟩

theorem ProcessStart.conserved (h : s.ProcessStart) : ∀ q ∈ s.queue, q.Conserved := by
  intro q hq
  rcases h q hq with ⟨hpending, hinmempool, hmined⟩ | ⟨env, onchainNonce, rfl, hkey, hlinks⟩
  · constructor
    · simp [TransactionsQueue.ids, TransactionsQueue.entryIds, hpending, hinmempool, hmined]
    · simp [TransactionsQueue.PendingSorted, hpending]
  · exact repopulatedQueue_conserved hkey hlinks

/-- The id an event brings is a fresh one: nothing stored or queued has it. -/
def FreshId (s : TransactionsQueues) (e : Event) : Prop :=
  ∀ x ∈ e.newId, ∀ q ∈ s.queue, Unused s.db q x

/-- What every event but a restart keeps of the queue. -/
theorem step_keeps {e : Event} {q' : TransactionsQueue} (he : e.isRestart = false)
    (hq' : q' ∈ (s.step e).queue) : ∃ q ∈ s.queue, Keeps e.newId q q' := by
  have hlocked {ρ : Type} {operation : Locked → Locked × ρ}
      (hstep : s.step e = s.locked operation)
      (hkeeps : ∀ l, Keeps e.newId l.queue (operation l).1.queue) :
      ∃ q ∈ s.queue, Keeps e.newId q q' := by
    rw [hstep] at hq'
    rcases hlock : s.lock with _ | l
    · rw [locked_of_none operation hlock] at hq'
      exact ⟨q', hq', .refl _ q'⟩
    · rw [locked_of_some operation hlock] at hq'
      obtain rfl := Option.some.inj hq'
      exact ⟨l.queue, (lock_some hlock).1, hkeeps l⟩
  cases e with
  | add env toSend => exact hlocked rfl fun l => l.addTransaction_keeps env toSend
  | cancel env id => exact hlocked rfl fun l => l.cancelTransaction_keeps env id
  | replace env request id => exact hlocked rfl fun l => l.replaceTransaction_keeps env request id
  | processPending env => exact hlocked rfl fun l => l.processSinglePending_keeps env
  | processInmempool env => exact hlocked rfl fun l => l.processSingleInmempool_keeps env
  | processMined env => exact hlocked rfl fun l => l.processSingleMined_keeps env
  | restart env => cases he
  | included signed =>
    refine ⟨q', ?_, .refl _ q'⟩
    rw [← s.includeSigned_queue signed]
    exact hq'

end Process

instance (s : TransactionsQueues) (e : Event) : Decidable (s.FreshId e) :=
  inferInstanceAs (Decidable (∀ x ∈ e.newId, ∀ q ∈ s.queue, Unused s.db q x))

example : (freshRelayer.run cancelledPayment).queue.map (·.ids) = some [1, 0, 2] := by
  decide +kernel

end TransactionsQueues
end Rrelayer
