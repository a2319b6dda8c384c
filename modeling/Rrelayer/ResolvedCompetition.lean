import Rrelayer.Competition
import Rrelayer.SystemEffect

/-! Passes over an entry with a competitor: which inclusions they find, and for which transaction
the queue and the rows they leave decide the race. -/
namespace Rrelayer
namespace Locked

/-- The outcome of the race in a pass that finds a receipt. -/
def resolution (l : Locked) (env : InmempoolEnv) :
    Option (Receipt × CompetitionResolutionResult × TransactionsQueue) :=
  if env.guard then
    l.queue.getNextInmempoolTransaction.bind fun t =>
      t.knownTransactionHash.bind fun hash =>
        (env.pollReceipt hash).toOption.join.bind fun receipt =>
          (l.queue.moveInmempoolToMining t.id receipt env.now).toOption.map (receipt, ·)
  else none

/-- What a pass returns and leaves that decides the race in front for `x`: the entry is out of the
queue, the row of `x` has the status of an included transaction, with which a mined one is tracked
on, and the row of the other transaction has not. -/
structure Resolves (l : Locked) (env : InmempoolEnv) (x : TransactionId) : Prop where
  success : (l.processSingleInmempool env).2 = .ok ⟨.success, 10⟩
  entry : ∃ front, l.queue.inmempoolTransactions =
      front :: (l.processSingleInmempool env).1.queue.inmempoolTransactions ∧
    (front.getTransactionById x).isSome = true ∧
    ∀ y, (front.getTransactionById y).isSome = true → y ≠ x →
      ∀ status ∈ (l.processSingleInmempool env).1.db.rowStatus y, ¬ status.Included
  row : ∃ status, (l.processSingleInmempool env).1.db.rowStatus x = some status ∧ status.Included
  tracked : (l.processSingleInmempool env).1.db.rowStatus x = some .mined →
    ∃ t ∈ (l.processSingleInmempool env).1.queue.minedTransactions, t.id = x

/-- One of the passes decides the race in front for `x`; those before it keep the entry. Only the
front entry is processed. -/
def ResolvedBy (x : TransactionId) : Locked → List InmempoolEnv → Prop
  | _, [] => False
  | l, env :: envs =>
      l.Resolves env x ∨
        (l.processSingleInmempool env).1.queue.inmempoolTransactions.length =
            l.queue.inmempoolTransactions.length ∧
          ResolvedBy x (l.processSingleInmempool env).1 envs

variable {l : Locked} {env : InmempoolEnv} {original competitor : Transaction}
  {type : CompetitionType} {rest : List CompetitiveTransaction}

theorem resolution_iff {receipt : Receipt} {r : CompetitionResolutionResult}
    {queue : TransactionsQueue} :
    l.resolution env = some (receipt, r, queue) ↔
      env.guard = true ∧ ∃ t hash, l.queue.getNextInmempoolTransaction = some t ∧
        t.knownTransactionHash = some hash ∧ env.pollReceipt hash = .ok (some receipt) ∧
        l.queue.moveInmempoolToMining t.id receipt env.now = .ok (r, queue) := by
  have hanswer (hash : TransactionHash) (receipt : Receipt) :
      (env.pollReceipt hash).toOption.join = some receipt ↔
        env.pollReceipt hash = .ok (some receipt) := by
    rcases env.pollReceipt hash with e | _ | answered <;> simp [Except.toOption]
  have hmoved (t : Transaction) (receipt : Receipt) :
      (l.queue.moveInmempoolToMining t.id receipt env.now).toOption = some (r, queue) ↔
        l.queue.moveInmempoolToMining t.id receipt env.now = .ok (r, queue) := by
    rcases l.queue.moveInmempoolToMining t.id receipt env.now with e | moved <;>
      simp [Except.toOption]
  unfold resolution
  constructor
  · intro h
    split at h
    · rename_i hguard
      obtain ⟨t, hnext, h⟩ := Option.bind_eq_some_iff.mp h
      obtain ⟨hash, hhash, h⟩ := Option.bind_eq_some_iff.mp h
      obtain ⟨receipt', hreceipt, h⟩ := Option.bind_eq_some_iff.mp h
      obtain ⟨moved, hmove, heq⟩ := Option.map_eq_some_iff.mp h
      cases heq
      exact ⟨hguard, t, hash, hnext, hhash, (hanswer hash receipt).mp hreceipt,
        (hmoved t receipt).mp hmove⟩
    · cases h
  · rintro ⟨hguard, t, hash, hnext, hhash, hreceipt, hmove⟩
    rw [if_pos hguard]
    apply Option.bind_eq_some_iff.mpr
    refine ⟨t, hnext, Option.bind_eq_some_iff.mpr ⟨hash, hhash, ?_⟩⟩
    apply Option.bind_eq_some_iff.mpr
    exact ⟨receipt, (hanswer hash receipt).mpr hreceipt,
      Option.map_eq_some_iff.mpr ⟨(r, queue), (hmoved t receipt).mpr hmove, rfl⟩⟩

/-- The pass takes the entry out of the queue and saves the resolution. -/
theorem processSingleInmempool_resolution {receipt : Receipt} {r : CompetitionResolutionResult}
    {queue : TransactionsQueue} (h : l.resolution env = some (receipt, r, queue)) :
    l.processSingleInmempool env = { l with queue := queue }.saveResolution env receipt r := by
  obtain ⟨hguard, t, hash, hnext, hhash, hreceipt, hmove⟩ := resolution_iff.mp h
  unfold processSingleInmempool
  rw [hnext]
  simp only [hguard, Bool.not_true, Bool.false_eq_true, if_false, hhash, hreceipt]
  unfold resolveInmempool
  rw [hmove]

/-- Whatever is saved, the queue is the one the move left behind. -/
theorem saveResolution_queue (l : Locked) (receipt : Receipt) (r : CompetitionResolutionResult) :
    (l.saveResolution env receipt r).1.queue = l.queue := by
  unfold saveResolution
  split
  · split
    · rfl
    · dsimp only
      split
      · rfl
      · split
        · rfl
        · rfl
  · split
    · rfl
    · rfl
  · split
    · rfl
    · rfl
  · rfl

section Entry

variable (hfront : l.queue.inmempoolTransactions = ⟨original, some (competitor, type)⟩ :: rest)
  (hdistinct : original.id ≠ competitor.id)
include hfront

theorem next_competitor : l.queue.getNextInmempoolTransaction = some competitor := by
  unfold TransactionsQueue.getNextInmempoolTransaction
  rw [hfront]
  rfl

include hdistinct

/-- A pass that finds a receipt of the competitor's hash resolves the entry. -/
theorem resolution_of_receipt {hash : TransactionHash} {receipt : Receipt}
    (hguard : env.guard = true) (hhash : competitor.knownTransactionHash = some hash)
    (hreceipt : env.pollReceipt hash = .ok (some receipt)) :
    ∃ r queue, l.resolution env = some (receipt, r, queue) ∧
      l.CompetitorWins original competitor type receipt r queue := by
  obtain ⟨r, queue, hmove, hwins⟩ :=
    moveInmempoolToMining_competitor hfront hdistinct receipt env.now
  exact ⟨r, queue, resolution_iff.mpr
    ⟨hguard, competitor, hash, next_competitor hfront, hhash, hreceipt, hmove⟩, hwins⟩

/-- The competitor's last hash is the only one a pass asks about, and the competitor the only
winner it declares. -/
theorem resolution_some {receipt : Receipt} {r : CompetitionResolutionResult}
    {queue : TransactionsQueue} (h : l.resolution env = some (receipt, r, queue)) :
    l.CompetitorWins original competitor type receipt r queue := by
  obtain ⟨-, t, hash, hnext, -, -, hmove⟩ := resolution_iff.mp h
  rw [next_competitor hfront] at hnext
  cases hnext
  obtain ⟨r', queue', hmove', hwins⟩ :=
    moveInmempoolToMining_competitor hfront hdistinct receipt env.now
  rw [hmove] at hmove'
  cases hmove'
  exact hwins

/-- A pass that does not resolve the front entry keeps it in the queue. -/
theorem unresolved_length (hnone : l.resolution env = none) :
    (l.processSingleInmempool env).1.queue.inmempoolTransactions.length =
      l.queue.inmempoolTransactions.length := by
  have hbook := (l.processSingleInmempool_effect env).book
  have hyields := TransactionsQueues.inmempoolAction_yields l env
  have hlength (q : TransactionsQueue) :
      q.inmempoolTransactions.length = q.book.inmempool.length := by
    unfold TransactionsQueue.book
    rw [List.length_map]
  rw [hlength, hlength]
  generalize haction : l.inmempoolAction env = a at hbook hyields
  generalize (l.processSingleInmempool env).1.queue.book = after at hbook
  cases hyields with
  | keep =>
    cases hbook
    rfl
  | record env hash =>
    cases hbook with
    | record hshown =>
      rw [hshown]
      rfl
  | moveInmempool env id m =>
    cases hbook with
    | moveInmempool hshown =>
      rw [hshown]
      rfl
  | resolve env hash receipt hreceipt =>
    -- a receipt of the hash the entry shows is one that the pass acts on
    cases hbook with
    | resolve hshown hhash =>
      have hentries : l.queue.book.inmempool =
          ⟨original.held, some competitor.held⟩ :: rest.map (·.entry) := by
        unfold TransactionsQueue.book
        rw [hfront]
        rfl
      rw [hentries] at hshown
      cases hshown
      have hguard : env.guard = true := by
        cases hserved : env.guard with
        | true => rfl
        | false => simp [inmempoolAction, polled, hserved] at haction
      obtain ⟨r, queue, hpass, -⟩ := resolution_of_receipt hfront hdistinct hguard hhash hreceipt
      rw [hnone] at hpass
      cases hpass

/-- Whatever is asked and answered: no pass decides the race for its original. -/
theorem original_never_wins
    (hwaiting : ∀ status ∈ l.db.rowStatus original.id, ¬ status.Included) :
    ¬ l.Resolves env original.id := by
  intro h
  obtain ⟨front, hpopped, -⟩ := h.entry
  obtain ⟨status, hrow, hincluded⟩ := h.row
  cases hpass : l.resolution env with
  | none =>
    have hlength := unresolved_length hfront hdistinct hpass
    rw [hpopped, List.length_cons] at hlength
    omega
  | some resolved =>
    obtain ⟨receipt, r, queue⟩ := resolved
    have hwins := resolution_some hfront hdistinct hpass
    rw [processSingleInmempool_resolution hpass] at hrow
    rcases saveResolution_originalRow hwins hdistinct hrow with hlost | hsame
    · rcases hincluded with h | h | h <;> rcases hlost with h' | h' | h' <;> simp [h] at h'
    · exact hwaiting status hsame hincluded

/-- A pass that finds a receipt of the competitor's hash, and whose writes are served, decides the
race for the competitor. -/
theorem resolves_competitor {hash : TransactionHash} {receipt : Receipt}
    (hwaiting : ∀ status ∈ l.db.rowStatus original.id, ¬ status.Included)
    (hcompetitor : (l.db.rowStatus competitor.id).isSome = true) (hguard : env.guard = true)
    (hhash : competitor.knownTransactionHash = some hash)
    (hreceipt : env.pollReceipt hash = .ok (some receipt)) (hwrite : env.write = true)
    (hsecond : env.writeLoser = true) : l.Resolves env competitor.id := by
  obtain ⟨r, queue, hpass, hwins⟩ := resolution_of_receipt hfront hdistinct hguard hhash hreceipt
  have hsaved := processSingleInmempool_resolution hpass
  obtain ⟨hsuccess, hrow⟩ := saveResolution_served hwins hdistinct hwrite hsecond
  obtain ⟨before, hbefore⟩ := Option.isSome_iff_exists.mp hcompetitor
  rw [hbefore, Option.map_some] at hrow
  have hqueue : ({ l with queue := queue }.saveResolution env receipt r).1.queue = queue :=
    saveResolution_queue _ receipt r
  have hother : (original.id == competitor.id) = false := by simpa using hdistinct
  obtain ⟨-, t, shown, hnext, -, -, hmove⟩ := resolution_iff.mp hpass
  rw [next_competitor hfront] at hnext
  cases hnext
  have hrest : queue.inmempoolTransactions = rest := by
    unfold TransactionsQueue.moveInmempoolToMining TransactionsQueue.resolveCompetition at hmove
    rw [hfront] at hmove
    simp only [hother, Bool.false_eq_true, if_false, beq_self_eq_true, if_true] at hmove
    cases hmove
    rfl
  constructor
  · rw [hsaved]
    exact hsuccess
  · refine ⟨⟨original, some (competitor, type)⟩, ?_, ?_, ?_⟩
    · rw [hsaved, hqueue, hfront, hrest]
    · unfold CompetitiveTransaction.getTransactionById
      simp [hother]
    · intro y hy hne status hstatus
      obtain rfl : original.id = y := by
        by_contra hapart
        unfold CompetitiveTransaction.getTransactionById at hy
        simp [hapart, Ne.symm hne] at hy
      rw [hsaved] at hstatus
      rcases saveResolution_originalRow hwins hdistinct hstatus with hlost | hsame
      · rintro (h | h | h) <;> rcases hlost with h' | h' | h' <;> simp [h] at h'
      · exact hwaiting status hsame
  · refine ⟨r.winnerStatus, ?_, ?_⟩
    · rw [hsaved]
      exact hrow
    · rw [hwins.receiptStatus]
      unfold TransactionsQueue.receiptStatus
      split
      · exact .inl rfl
      · exact .inr (.inr rfl)
  · intro hmined
    rw [hsaved, hrow] at hmined
    rw [hsaved, hqueue]
    exact ⟨r.winner, hwins.tracked (Option.some.inj hmined), hwins.winner⟩

end Entry

/-- Every call of a pass is answered, about receipts truthfully. -/
structure Served (receipts : TransactionHash → Option Receipt) (env : InmempoolEnv) : Prop where
  guard : env.guard = true
  poll : ∀ hash, env.pollReceipt hash = .ok (receipts hash)
  conflict : ∀ hash, env.conflictReceipt hash = .ok (receipts hash)
  clients : env.clients ≠ [] ∧ ∀ c ∈ env.clients, ∃ n, c.getTransactionCount = .ok n
  writes : env.write = true ∧ env.writeLoser = true
  attempts : env.send.persistAttempt = true ∧ env.send.markSent = true

/-- Of the hashes broadcast for the two transactions, or shown by them, one has a receipt; it was
broadcast for `x`. -/
structure OneIncluded (l : Locked) (original competitor : Transaction)
    (receipts : TransactionHash → Option Receipt) (x : TransactionId) (hash : TransactionHash) :
    Prop where
  side : x = original.id ∨ x = competitor.id
  broadcast : (x, hash) ∈ l.broadcasts
  found : (receipts hash).isSome = true
  only : ∀ other, ((original.id, other) ∈ l.broadcasts ∨ (competitor.id, other) ∈ l.broadcasts ∨
    competitor.knownTransactionHash = some other) → (receipts other).isSome = true → other = hash

/-- A served pass in the block the competitor was sent in: nothing is bumped yet. -/
def quietPass (receipts : TransactionHash → Option Receipt) (competitor : Transaction) :
    InmempoolEnv :=
  { servedInmempool [] (.ok ()) (servedClient [] 0) [] with
    pollReceipt := fun hash => .ok (receipts hash)
    conflictReceipt := fun hash => .ok (receipts hash)
    now := competitor.sentAt.getD 0 }

theorem quietPass_served (receipts : TransactionHash → Option Receipt) (competitor : Transaction) :
    Served receipts (quietPass receipts competitor) := by
  constructor
  · rfl
  · intro hash
    rfl
  · intro hash
    rfl
  · constructor
    · exact List.cons_ne_nil _ _
    · intro c hc
      rw [List.mem_singleton.mp hc]
      exact ⟨0, rfl⟩
  · exact ⟨rfl, rfl⟩
  · exact ⟨rfl, rfl⟩

/-- Such a pass changes nothing when the competitor's last hash has no receipt. -/
theorem quietPass_idle {receipts : TransactionHash → Option Receipt}
    (hfront : l.queue.inmempoolTransactions = ⟨original, some (competitor, type)⟩ :: rest)
    (hnone : ∀ hash, competitor.knownTransactionHash = some hash → receipts hash = none) :
    (l.processSingleInmempool (quietPass receipts competitor)).1 = l := by
  have hbump : l.bumpDue (quietPass receipts competitor) competitor = false := by
    unfold bumpDue
    cases hsent : competitor.sentAt with
    | none => rfl
    | some sentAt =>
      have hnow : (quietPass receipts competitor).now - sentAt = 0 := by
        simp [quietPass, hsent]
      have helapsed : TransactionsQueue.asU64 0 = 0 := by decide
      have hearly : l.queue.shouldBumpGas 0 competitor.speed = false := by
        unfold TransactionsQueue.shouldBumpGas
        apply decide_eq_false
        omega
      rw [Option.any_some, hnow, helapsed, hearly, Bool.and_false]
  unfold processSingleInmempool
  rw [next_competitor hfront]
  simp only [(quietPass_served receipts competitor).guard, Bool.not_true, Bool.false_eq_true,
    if_false]
  split
  · rfl
  · rename_i hash hhash
    rw [(quietPass_served receipts competitor).poll hash, hnone hash hhash]
    simp [hbump]

theorem quietPass_unresolved {receipts : TransactionHash → Option Receipt} {x : TransactionId}
    (hfront : l.queue.inmempoolTransactions = ⟨original, some (competitor, type)⟩ :: rest)
    (hnone : ∀ hash, competitor.knownTransactionHash = some hash → receipts hash = none) (k : ℕ) :
    ¬ l.ResolvedBy x (List.replicate k (quietPass receipts competitor)) := by
  have hidle := quietPass_idle hfront hnone
  induction k with
  | zero => exact id
  | succ k ih =>
    rw [List.replicate_succ]
    rintro (hresolves | ⟨-, hlater⟩)
    · obtain ⟨front, hpopped, -⟩ := hresolves.entry
      rw [hidle] at hpopped
      have hlength := congrArg List.length hpopped
      rw [List.length_cons] at hlength
      omega
    · rw [hidle] at hlater
      exact ih hlater

/-- Both transactions have a row, and none says that it was included. -/
structure Waiting (l : Locked) (original competitor : Transaction) : Prop where
  original : ∃ status, l.db.rowStatus original.id = some status ∧ ¬ status.Included
  competitor : ∃ status, l.db.rowStatus competitor.id = some status ∧ ¬ status.Included

/-- Passes over an entry with a competitor resolve it, within a bounded number and with the included
transaction as the winner, exactly when that is the competitor under its last hash. -/
theorem competition_resolved_iff {receipts : TransactionHash → Option Receipt}
    {x : TransactionId} {hash : TransactionHash}
    (hfront : l.queue.inmempoolTransactions = ⟨original, some (competitor, type)⟩ :: rest)
    (hdistinct : original.id ≠ competitor.id) (hwaiting : l.Waiting original competitor)
    (hone : l.OneIncluded original competitor receipts x hash) :
    (∃ k, ∀ envs : List InmempoolEnv, envs.length = k → (∀ env ∈ envs, Served receipts env) →
        l.ResolvedBy x envs) ↔
      x = competitor.id ∧ competitor.knownTransactionHash = some hash := by
  have horiginal : ∀ status ∈ l.db.rowStatus original.id, ¬ status.Included := by
    obtain ⟨status, hrow, hnot⟩ := hwaiting.original
    intro status' hstatus'
    rw [hrow] at hstatus'
    cases hstatus'
    exact hnot
  have hcompetitor : (l.db.rowStatus competitor.id).isSome = true := by
    obtain ⟨status, hrow, -⟩ := hwaiting.competitor
    rw [hrow]
    rfl
  obtain ⟨receipt, hreceipt⟩ := Option.isSome_iff_exists.mp hone.found
  have hresolves {env : InmempoolEnv} (henv : Served receipts env)
      (hpolled : competitor.knownTransactionHash = some hash) :
      l.Resolves env competitor.id :=
    resolves_competitor hfront hdistinct horiginal hcompetitor henv.guard hpolled
      ((henv.poll hash).trans (congrArg Except.ok hreceipt)) henv.writes.1 henv.writes.2
  constructor
  · rintro ⟨k, hbound⟩
    have hresolved := hbound (List.replicate k (quietPass receipts competitor))
      (List.length_replicate ..) fun env henv => by
        rw [List.eq_of_mem_replicate henv]
        exact quietPass_served receipts competitor
    by_cases hpolled : competitor.knownTransactionHash = some hash
    · refine ⟨?_, hpolled⟩
      have hfirst := hresolves (quietPass_served receipts competitor) hpolled
      cases k with
      | zero => exact hresolved.elim
      | succ k =>
        rw [List.replicate_succ] at hresolved
        rcases hresolved with hwon | ⟨hkept, -⟩
        · rcases hone.side with rfl | rfl
          · exact absurd hwon (original_never_wins hfront hdistinct horiginal)
          · rfl
        · obtain ⟨front, hpopped, -⟩ := hfirst.entry
          rw [hpopped, List.length_cons] at hkept
          omega
    · have hnone : ∀ other, competitor.knownTransactionHash = some other →
          receipts other = none := by
        intro other hother
        by_contra hsome
        have hsame := hone.only other (.inr (.inr hother)) (Option.isSome_iff_ne_none.mpr hsome)
        rw [hsame] at hother
        exact hpolled hother
      exact absurd hresolved (quietPass_unresolved hfront hnone k)
  · rintro ⟨rfl, hpolled⟩
    refine ⟨1, ?_⟩
    intro envs hlength hserved
    obtain ⟨env, rfl⟩ := List.length_eq_one_iff.mp hlength
    exact .inl (hresolves (hserved env (List.mem_singleton_self _)) hpolled)

/-- Receipts of exactly the given transactions. -/
def receiptsOf (included : List SignedTransaction) : TransactionHash → Option Receipt := fun hash =>
  if hash ∈ included then some ⟨true, hash, 21000, none, none⟩ else none

theorem receiptsOf_isSome {included : List SignedTransaction} {hash : TransactionHash} :
    (receiptsOf included hash).isSome = true ↔ hash ∈ included := by
  unfold receiptsOf
  split <;> simp [*]

theorem cancelledWaiting : cancelledLocked.Waiting cancelledOriginal racingCancel where
  original := ⟨.inmempool, cancelledRace.originalRow, by rintro (h | h | h) <;> cases h⟩
  competitor := ⟨.inmempool, cancelledRace.competitorRow, by rintro (h | h | h) <;> cases h⟩

/-- The no-op is included as it was sent. -/
theorem competition_resolved_cancel :
    ∃ k, ∀ envs : List InmempoolEnv, envs.length = k →
      (∀ env ∈ envs, Served (receiptsOf racingCancel.knownTransactionHash.toList) env) →
      cancelledLocked.ResolvedBy racingCancel.id envs := by
  obtain ⟨hash, hhash, hsent⟩ : ∃ hash, racingCancel.knownTransactionHash = some hash ∧
      (racingCancel.id, hash) ∈ cancelledLocked.broadcasts :=
    ⟨racingCancel.knownTransactionHash.getD (paymentEnvelope 0 0 0 0), by decide +kernel,
      by decide +kernel⟩
  apply (competition_resolved_iff cancelledRace.front cancelledRace.distinct cancelledWaiting ?_).mpr
  · exact ⟨rfl, hhash⟩
  rw [hhash]
  constructor
  · exact .inr rfl
  · exact hsent
  · simp [receiptsOf_isSome]
  · intro other _ hfound
    simpa [receiptsOf_isSome] using hfound

/-- The payment is mined while its no-op is polled. -/
theorem competition_resolved_fails :
    ¬ ∀ (l : Locked) (original competitor : Transaction) (type : CompetitionType)
      (rest : List CompetitiveTransaction) (receipts : TransactionHash → Option Receipt)
      (x : TransactionId) (hash : TransactionHash),
      l.queue.inmempoolTransactions = ⟨original, some (competitor, type)⟩ :: rest →
      original.id ≠ competitor.id → l.Waiting original competitor →
      l.OneIncluded original competitor receipts x hash →
      ∃ k, ∀ envs : List InmempoolEnv, envs.length = k → (∀ env ∈ envs, Served receipts env) →
        l.ResolvedBy x envs := by
  intro hresolved
  obtain ⟨k, hbound⟩ := hresolved cancelledLocked cancelledOriginal racingCancel .cancel []
    (receiptsOf [paymentEnvelope 0 5 1 10]) cancelledOriginal.id (paymentEnvelope 0 5 1 10)
    cancelledRace.front cancelledRace.distinct cancelledWaiting (by
      constructor
      · exact .inl rfl
      · decide +kernel
      · simp [receiptsOf_isSome]
      · intro other _ hfound
        simpa [receiptsOf_isSome] using hfound)
  have hwon := hbound
    (List.replicate k (quietPass (receiptsOf [paymentEnvelope 0 5 1 10]) racingCancel))
    (List.length_replicate ..) (by
      intro env henv
      rw [List.eq_of_mem_replicate henv]
      exact quietPass_served _ _)
  have hpolled : racingCancel.knownTransactionHash ≠ some (paymentEnvelope 0 5 1 10) := by
    decide +kernel
  refine quietPass_unresolved cancelledRace.front ?_ k hwon
  intro other hother
  have hother : racingCancel.knownTransactionHash = some other := hother
  unfold receiptsOf
  rw [if_neg]
  intro hmem
  rw [hother, List.mem_singleton.mp hmem] at hpolled
  exact hpolled rfl

end Locked
end Rrelayer
