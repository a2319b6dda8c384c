import Rrelayer.FailedCompetitors

/-! Mutual exclusion of an original and its competitor: both stay at one nonce, in memory, in
their rows and in everything that is broadcast for them, unless a pass reassigns one of them. -/
namespace Rrelayer

/-- The transaction an action gives another nonce. -/
def Action.moved : Action → Option TransactionId
  | .movePending id _ | .moveInmempool id _ => some id
  | _ => none

namespace Book

/-- The nonce an action brings in for a transaction that need not be live. -/
def Brings (b : Book) (a : Action) (x : TransactionId) (n : ℕ) : Prop :=
  match a with
  | .refuse id m => x = id ∧ n = m
  | .reserve id m => x = id ∧ n = max b.next m
  | .attempt id m | .movePending id m | .moveInmempool id m => x = id ∧ n = m
  | .attach id hash => x = id ∧ n = hash.nonce
  | _ => False

variable {b b' : Book} {a : Action} {x : TransactionId} {n m : ℕ}

theorem Sends.writes (h : b.Sends a x n) : b.Writes a x n := by
  rcases h with hlive | hnew
  · exact .inl hlive
  · apply Or.inr
    cases a <;> first | exact hnew | exact hnew.elim

/-- An action brings in one nonce only. -/
theorem Brings.unique (h : b.Brings a x n) (h' : b.Brings a x m) : n = m := by
  cases a <;> first | exact h.2.trans h'.2.symm | exact h.elim

/-- What an action moves is live. -/
theorem Step.moved_live (h : Step b a b') (hmoved : a.moved = some x) : ∃ n, (x, n) ∈ b.live := by
  cases h with
  | @movePending id n m ps ps' hhead =>
    cases hmoved
    exact ⟨n, mem_live.mpr (.inl (hhead ▸ List.mem_cons_self ..))⟩
  | @moveInmempool m e es hfront =>
    cases hmoved
    have hmember : e.active ∈ e.members := by
      unfold Entry.active Entry.members
      cases e.competitor <;> simp
    exact ⟨e.active.nonce,
      mem_live.mpr (.inr ⟨e, hfront ▸ List.mem_cons_self .., e.active, hmember, rfl, rfl⟩)⟩
  | keep | refuse | reserve | launch | attempt | attach | record | resolve => cases hmoved

end Book

namespace TransactionsQueues

variable {s : TransactionsQueues} {e : Event} {x : TransactionId} {n m : ℕ}

/-- An action that brings in a nonce is about the event's new id, or it is a reassignment. -/
theorem Yields.brings {b : Book} {a : Action} (h : Yields e a) (hbrings : b.Brings a x n) :
    x ∈ e.newId ∨ a.moved = some x := by
  cases h with
  | keep | launch | record | resolve => exact hbrings.elim
  | refuse | reserve => exact .inl (hbrings.1 ▸ rfl)
  | movePending | moveInmempool => exact .inr (hbrings.1 ▸ rfl)
  | cancel env _ original o | replace env _ _ original o =>
    cases o <;> exact .inl (hbrings.1 ▸ rfl)

/-- The transaction has the nonce somewhere: in a queue, in its row, or in what was broadcast. -/
def Uses (s : TransactionsQueues) (x : TransactionId) (n : ℕ) : Prop :=
  (∃ q ∈ s.queue, (x, n) ∈ q.book.live) ∨ (∃ r ∈ s.db.rows, r.id = x ∧ r.nonce = n) ∨
    ∃ b ∈ s.broadcasts, b.1 = x ∧ b.2.nonce = n

/-- The step gives the transaction another nonce. -/
def Renumbers (s : TransactionsQueues) (e : Event) (x : TransactionId) : Prop :=
  (s.stepAction e).moved = some x

instance (s : TransactionsQueues) (e : Event) (x : TransactionId) :
    Decidable (s.Renumbers e x) := inferInstanceAs (Decidable (_ = _))

theorem startup_keepsNonces (relayer : Relayer) (env : StartupEnv) {db : Db} (hkey : db.PrimaryKey) :
    db.KeepsNonces (startupTransactionsQueues relayer env db).1 := by
  rw [startupTransactionsQueues_db]
  split
  · have hsame := startupRepair_sameIds relayer env db
    have hkey' := hsame.primaryKey hkey
    intro r' hr'
    have hid : r'.id ∈ db.rows.map (·.id) := by
      rw [← hsame]
      exact List.mem_map_of_mem hr'
    obtain ⟨r, hr, hrid⟩ := List.mem_map.mp hid
    obtain ⟨r'', hr'', hfate⟩ := startupRepair_row relayer env hkey (Db.row_of_mem hkey hr)
    rw [hrid, Db.row_of_mem hkey' hr'] at hr''
    cases hr''
    exact ⟨r, hr, hrid, hfate.nonce.symm⟩
  · exact .refl db

/-- What a startup holds in its queues is at the nonces of the rows. -/
theorem repopulatedQueue_live {relayer : Relayer} {env : StartupEnv} {db : Db} {onchainNonce : ℕ}
    (h : (x, n) ∈ (repopulatedQueue relayer env db onchainNonce).book.live) :
    ∃ r ∈ db.rows, r.id = x ∧ r.nonce = n := by
  rw [TransactionsQueue.book_live] at h
  obtain ⟨t, ht, hslot⟩ := List.mem_map.mp h
  cases hslot
  rcases List.mem_append.mp ht with ht | ht
  · have hmem := (List.mem_insertionSort fun a b : Transaction => a.nonce ≤ b.nonce).mp ht
    obtain ⟨r, hr, -, rfl⟩ := Db.mem_getTransactionsByStatus hmem
    exact ⟨r, hr, rfl, rfl⟩
  · obtain ⟨c, hc, ht⟩ := List.mem_flatMap.mp ht
    obtain ⟨u, hu, heq⟩ := mem_repopulateLoop (fun _ hu => hu) hc t ht
    obtain ⟨r, hr, -, rfl⟩ := Db.mem_getTransactionsByStatus hu
    rw [heq]
    exact ⟨r, hr, rfl, rfl⟩

/-- A nonce in use after a step was in use before, or the step's action brings it in. -/
theorem Uses.of_step (hkey : s.db.PrimaryKey) (h : (s.step e).Uses x n) :
    s.Uses x n ∨ ∃ l ∈ s.lock, l.queue.book.Brings (s.stepAction e) x n := by
  have hchange := s.step_change e
  generalize s.step e = s' at hchange h
  cases hchange with
  | idle => exact .inl h
  | @acted l l' hl heffect =>
    obtain ⟨hq, hdb, hbroadcasts⟩ := lock_some hl
    have hwrites (hw : l.queue.book.Writes (s.stepAction e) x n) :
        s.Uses x n ∨ ∃ l ∈ s.lock, l.queue.book.Brings (s.stepAction e) x n := by
      rcases hw with hlive | hbrings
      · exact .inl (.inl ⟨l.queue, hq, hlive⟩)
      · exact .inr ⟨l, hl, hbrings⟩
    rcases h with ⟨q, hq', hlive⟩ | ⟨r, hr, rfl, rfl⟩ | ⟨b, hb, rfl, rfl⟩
    · cases hq'
      exact hwrites (heffect.book.live hlive)
    · rcases heffect.db.nonces r hr with hw | ⟨r₀, hr₀, hid, hnonce⟩
      · exact hwrites hw
      · rw [hdb] at hr₀
        exact .inl (.inr (.inl ⟨r₀, hr₀, hid, hnonce⟩))
    · obtain ⟨new, hnew, hall⟩ := heffect.sent
      have hb : b ∈ l'.broadcasts := hb
      rw [hnew] at hb
      rcases List.mem_append.mp hb with hb | hb
      · rw [hbroadcasts] at hb
        exact .inl (.inr (.inr ⟨b, hb, rfl, rfl⟩))
      · exact hwrites (hall b hb).writes
  | @confirmed l env _ hl =>
    obtain ⟨hq, hdb, hbroadcasts⟩ := lock_some hl
    obtain ⟨hbook, -, hsent, hnonces, -⟩ := l.processSingleMined_spec env
    left
    rcases h with ⟨q, hq', hlive⟩ | ⟨r, hr, rfl, rfl⟩ | ⟨b, hb, rfl, rfl⟩
    · cases hq'
      rw [hbook] at hlive
      exact .inl ⟨l.queue, hq, hlive⟩
    · obtain ⟨r₀, hr₀, hid, hnonce⟩ := hnonces r hr
      rw [hdb] at hr₀
      exact .inr (.inl ⟨r₀, hr₀, hid, hnonce⟩)
    · have hb : b ∈ (l.processSingleMined env).1.broadcasts := hb
      rw [hsent, hbroadcasts] at hb
      exact .inr (.inr ⟨b, hb, rfl, rfl⟩)
  | restarted env he =>
    left
    have hrows : ∀ r ∈ (s.startup env).db.rows, s.Uses r.id r.nonce := by
      intro r hr
      obtain ⟨r₀, hr₀, hid, hnonce⟩ := startup_keepsNonces s.relayer env hkey r hr
      exact .inr (.inl ⟨r₀, hr₀, hid, hnonce⟩)
    rcases h with ⟨q, hq', hlive⟩ | ⟨r, hr, rfl, rfl⟩ | hsent
    · obtain ⟨onchainNonce, -, rfl⟩ := startupTransactionsQueues_queue hq'
      obtain ⟨r, hr, rfl, rfl⟩ := repopulatedQueue_live hlive
      exact hrows r hr
    · exact hrows r hr
    · exact .inr (.inr hsent)
  | extended => exact .inl h

/-- Without a reassignment, a step can only give a nonce to the transaction it brings in. -/
theorem Uses.of_kept (hkey : s.db.PrimaryKey) (hkept : ¬ s.Renumbers e x)
    (h : (s.step e).Uses x n) :
    s.Uses x n ∨ x ∈ e.newId ∧ ∃ l ∈ s.lock, l.queue.book.Brings (s.stepAction e) x n := by
  refine (h.of_step hkey).imp id ?_
  rintro ⟨l, hl, hbrings⟩
  refine ⟨?_, l, hl, hbrings⟩
  rcases (s.stepAction_yields e).brings hbrings with hnew | hmove
  · exact hnew
  · exact absurd hmove hkept

/-- Every nonce the transaction has is the same one. -/
def OneNonce (s : TransactionsQueues) (x : TransactionId) : Prop :=
  ∀ n m, s.Uses x n → s.Uses x m → n = m

/-- A transaction that is not reassigned keeps to one nonce; a new one gets one. -/
theorem OneNonce.step (h : s.OneNonce x) (hkey : s.db.PrimaryKey) (hkept : ¬ s.Renumbers e x)
    (hfresh : x ∈ e.newId → ∀ n, ¬ s.Uses x n) : (s.step e).OneNonce x := by
  intro n m hn hm
  rcases hn.of_kept hkey hkept with hn | ⟨hnew, l, hl, hn⟩
  · rcases hm.of_kept hkey hkept with hm | ⟨hnew, -⟩
    · exact h n m hn hm
    · exact absurd hn (hfresh hnew n)
  · rcases hm.of_kept hkey hkept with hm | ⟨-, l', hl', hm⟩
    · exact absurd hm (hfresh hnew m)
    · rw [Option.mem_def.mp hl] at hl'
      cases hl'
      exact hn.unique hm

/-- The ids a sequence of events brings in. -/
def newIds (es : List Event) : List TransactionId := es.filterMap Event.newId

theorem newIds_cons (e : Event) (es : List Event) :
    newIds (e :: es) = e.newId.toList ++ newIds es := by
  unfold newIds
  rw [List.filterMap_cons]
  cases e.newId <;> rfl

theorem primaryKey_step (h : s.db.PrimaryKey) : (s.step e).db.PrimaryKey := by
  have hhistory : History (s.writer e) (s.db, s.broadcasts) ((s.step e).db, (s.step e).broadcasts) :=
    s.step_history e
  exact hhistory.primaryKey h

theorem stepAction_effect {l : Locked} (hl : s.lock = some l) :
    ∃ l', l.Effect (s.stepAction e) l' := by
  rw [stepAction_locked hl]
  cases e with
  | add env toSend => exact ⟨_, l.addTransaction_effect env toSend⟩
  | cancel env id => exact ⟨_, l.cancelTransaction_effect env id⟩
  | replace env request id => exact ⟨_, l.replaceTransaction_effect env request id⟩
  | processPending env => exact ⟨_, l.processSinglePending_effect env⟩
  | processInmempool env => exact ⟨_, l.processSingleInmempool_effect env⟩
  | processMined | restart | included => exact ⟨l, .refl l⟩

/-- What is reassigned is in the queue. -/
theorem Renumbers.uses (h : s.Renumbers e x) : ∃ n, s.Uses x n := by
  rcases hl : s.lock with _ | l
  · simp [Renumbers, stepAction, hl, Action.moved] at h
  · obtain ⟨l', heffect⟩ := stepAction_effect (e := e) hl
    obtain ⟨n, hlive⟩ := heffect.book.moved_live h
    exact ⟨n, .inl ⟨l.queue, (lock_some hl).1, hlive⟩⟩

/-- A transaction that is not in use does not come into use before an event brings it in. -/
theorem unused_run {es : List Event} (hkey : s.db.PrimaryKey) (hnone : ∀ n, ¬ s.Uses x n)
    (hx : x ∉ newIds es) : ∀ n, ¬ (s.run es).Uses x n := by
  induction es generalizing s with
  | nil => exact hnone
  | cons e es ih =>
    rw [newIds_cons, List.mem_append, not_or] at hx
    refine ih (primaryKey_step hkey) (fun n hn => ?_) hx.2
    have hkept : ¬ s.Renumbers e x := fun hmoved => (hmoved.uses).elim hnone
    rcases hn.of_kept hkey hkept with hbefore | ⟨hnew, -⟩
    · exact hnone n hbefore
    · exact hx.1 (Option.mem_toList.mpr hnew)

theorem primaryKey_run {es : List Event} (hkey : s.db.PrimaryKey) : (s.run es).db.PrimaryKey :=
  EventMachine.run_invariant (P := fun s : TransactionsQueues => s.db.PrimaryKey)
    (fun _ _ h => primaryKey_step h) hkey es

/-- The transaction is in the mempool with the competitor. -/
def Races (s : TransactionsQueues) (original competitor : TransactionId) : Prop :=
  ∃ q ∈ s.queue, ∃ c ∈ q.inmempoolTransactions, c.original.id = original ∧
    ∃ p ∈ c.competitive, p.1.id = competitor

/-- At most one of the two is included, and they have one nonce in their entry. -/
structure Exclusive (s : TransactionsQueues) (x y : TransactionId) : Prop where
  included : ∀ a ∈ s.chain.entries, ∀ b ∈ s.chain.entries,
    ((x, a) ∈ s.broadcasts ∨ (y, a) ∈ s.broadcasts) →
      ((x, b) ∈ s.broadcasts ∨ (y, b) ∈ s.broadcasts) → a = b
  entry : ∀ q ∈ s.queue, ∀ c ∈ q.inmempoolTransactions, ∀ p ∈ c.competitive,
    c.original.id = x → p.1.id = y → c.original.nonce = p.1.nonce

/-- Once an attempt of `x` is included, what the step broadcasts for `y` is at the same nonce. -/
def FollowsIncluded (s : TransactionsQueues) (e : Event) (x y : TransactionId) : Prop :=
  ∀ a ∈ s.chain.entries, (x, a) ∈ s.broadcasts →
    ∀ new, (s.step e).broadcasts = s.broadcasts ++ new → ∀ b ∈ new, b.1 = y → b.2.nonce = a.nonce

/-- The queue has the transaction at one nonce, and its attempts at other nonces have lost them to
other transactions. -/
structure Enlisted (s : TransactionsQueues) (x : TransactionId) : Prop where
  queued : ∀ q ∈ s.queue, ∀ n m, (x, n) ∈ q.book.live → (x, m) ∈ q.book.live → n = m
  attempts : ∀ q ∈ s.queue, ∀ n, (x, n) ∈ q.book.live → ∀ signed, (x, signed) ∈ s.broadcasts →
    signed.nonce = n ∨ s.chain.Excludes signed

/-- The transaction can only be included at the nonce `n`: the queue and the row have it there, and
its attempts elsewhere are lost. -/
structure Fixed (s : TransactionsQueues) (x : TransactionId) (n : ℕ) : Prop where
  queue : ∀ q ∈ s.queue, ∀ m, (x, m) ∈ q.book.live → m = n
  rows : ∀ r ∈ s.db.rows, r.id = x → r.nonce = n
  attempts : ∀ signed, (x, signed) ∈ s.broadcasts → signed.nonce = n ∨ s.chain.Excludes signed

section Fixed

variable (hqueue : ∀ q ∈ s.queue, ∀ m, (x, m) ∈ q.book.live → m = n)
  (hkept : ¬ s.Renumbers e x) (hold : x ∉ e.newId)
include hqueue hkept hold

/-- A step that does not reassign the transaction writes it at its nonce. -/
theorem writes_at {l : Locked} (hl : s.lock = some l)
    (h : l.queue.book.Writes (s.stepAction e) x m) : m = n := by
  rcases h with hlive | hbrings
  · exact hqueue l.queue (lock_some hl).1 m hlive
  · have hbrings : l.queue.book.Brings (s.stepAction e) x m := hbrings
    rcases (s.stepAction_yields e).brings hbrings with hin | hmoved
    · exact absurd hin hold
    · exact absurd hmoved hkept

/-- What it broadcasts of the transaction is at that nonce as well. -/
theorem sends_at : ∃ new, (s.step e).broadcasts = s.broadcasts ++ new ∧
    ∀ b ∈ new, b.1 = x → b.2.nonce = n := by
  have hchange := s.step_change e
  generalize s.step e = s' at hchange ⊢
  cases hchange with
  | @acted l l' hl heffect =>
    obtain ⟨new, hnew, hall⟩ := heffect.sent
    refine ⟨new, by rw [← (lock_some hl).2.2]; exact hnew, ?_⟩
    rintro b hb rfl
    exact writes_at hqueue hkept hold hl (hall b hb).writes
  | @confirmed l env _ hl =>
    refine ⟨[], ?_, nofun⟩
    rw [List.append_nil, ← (lock_some hl).2.2]
    exact (l.processSingleMined_spec env).2.2.1
  | idle | restarted | extended => exact ⟨[], (List.append_nil _).symm, nofun⟩

theorem attempts_at (h : ∀ signed, (x, signed) ∈ s.broadcasts →
    signed.nonce = n ∨ s.chain.Excludes signed) :
    ∀ signed, (x, signed) ∈ (s.step e).broadcasts →
      signed.nonce = n ∨ (s.step e).chain.Excludes signed := by
  obtain ⟨new, hnew, hsent⟩ := sends_at hqueue hkept hold
  intro signed hsigned
  rw [hnew] at hsigned
  rcases List.mem_append.mp hsigned with hbefore | hin
  · exact (h signed hbefore).imp id (.mono (s.chain_extends e))
  · exact .inl (hsent _ hin rfl)

end Fixed

theorem Fixed.step (h : s.Fixed x n) (hkey : s.db.PrimaryKey) (hkept : ¬ s.Renumbers e x)
    (hold : x ∉ e.newId) : (s.step e).Fixed x n := by
  have hattempts := attempts_at h.queue hkept hold h.attempts
  have hchange := s.step_change e
  generalize s.step e = s' at hchange hattempts ⊢
  cases hchange with
  | idle => exact h
  | @acted l l' hl heffect =>
    refine ⟨?_, ?_, hattempts⟩
    · rintro q ⟨⟩ m hlive
      exact writes_at h.queue hkept hold hl (heffect.book.live hlive)
    · rintro r hr rfl
      rcases heffect.db.nonces r hr with hw | ⟨r₀, hr₀, hid₀, hnonce⟩
      · exact writes_at h.queue hkept hold hl hw
      · rw [(lock_some hl).2.1] at hr₀
        rw [← hnonce]
        exact h.rows r₀ hr₀ hid₀
  | @confirmed l env _ hl =>
    obtain ⟨hbook, -, -, hnonces, -⟩ := l.processSingleMined_spec env
    refine ⟨?_, ?_, hattempts⟩
    · rintro q ⟨⟩ m hlive
      rw [hbook] at hlive
      exact h.queue l.queue (lock_some hl).1 m hlive
    · rintro r hr rfl
      obtain ⟨r₀, hr₀, hid₀, hnonce⟩ := hnonces r hr
      rw [(lock_some hl).2.1] at hr₀
      rw [← hnonce]
      exact h.rows r₀ hr₀ hid₀
  | restarted env he =>
    have hrows : ∀ r ∈ (s.startup env).db.rows, r.id = x → r.nonce = n := by
      rintro r hr rfl
      obtain ⟨r₀, hr₀, hid₀, hnonce⟩ := startup_keepsNonces s.relayer env hkey r hr
      rw [← hnonce]
      exact h.rows r₀ hr₀ hid₀
    refine ⟨fun q hq m hlive => ?_, hrows, hattempts⟩
    obtain ⟨onchainNonce, -, rfl⟩ := startupTransactionsQueues_queue hq
    obtain ⟨r, hr, hid, rfl⟩ := repopulatedQueue_live hlive
    exact hrows r hr hid
  | extended => exact ⟨h.queue, h.rows, hattempts⟩

theorem OneNonce.fixed (h : s.OneNonce x) (hn : s.Uses x n) : s.Fixed x n where
  queue q hq m hm := h m n (.inl ⟨q, hq, hm⟩) hn
  rows r hr hid := h r.nonce n (.inr (.inl ⟨r, hr, hid, rfl⟩)) hn
  attempts signed hsigned := .inl (h signed.nonce n (.inr (.inr ⟨_, hsigned, rfl, rfl⟩)) hn)

/-- Both transactions of an entry are live. -/
theorem race_live {q : TransactionsQueue} {c : CompetitiveTransaction}
    {p : Transaction × CompetitionType} (hc : c ∈ q.inmempoolTransactions) (hp : p ∈ c.competitive) :
    (c.original.id, c.original.nonce) ∈ q.book.live ∧ (p.1.id, p.1.nonce) ∈ q.book.live := by
  have hlive : ∀ t ∈ c.transactions, (t.id, t.nonce) ∈ q.book.live := by
    intro t ht
    rw [TransactionsQueue.book_live]
    apply List.mem_map_of_mem (f := Transaction.slot)
    exact List.mem_append_right _ (List.mem_flatMap.mpr ⟨c, hc, ht⟩)
  have hcompetitor : p.1 ∈ c.transactions := by
    unfold CompetitiveTransaction.transactions
    rw [Option.mem_def.mp hp]
    exact List.mem_cons_of_mem _ (List.mem_singleton_self _)
  exact ⟨hlive c.original (List.mem_cons_self ..), hlive p.1 hcompetitor⟩

theorem Fixed.included (h : s.Fixed x n) {a : SignedTransaction} (ha : a ∈ s.chain.entries)
    (hsent : (x, a) ∈ s.broadcasts) : a.nonce = n :=
  (h.attempts a hsent).resolve_right fun hlost => hlost.not_mem ha

/-- Two transactions that can only be included at one nonce exclude each other. -/
theorem exclusive_of_fixed {y : TransactionId} (hx : s.Fixed x n) (hy : s.Fixed y n) :
    s.Exclusive x y := by
  constructor
  · intro a ha b hb hsentA hsentB
    have hat : a.nonce = n := hsentA.elim (hx.included ha) (hy.included ha)
    have hbt : b.nonce = n := hsentB.elim (hx.included hb) (hy.included hb)
    exact Ledger.eq_of_seq_eq ha hb (hat.trans hbt.symm)
  · rintro q hq c hc p hp rfl rfl
    obtain ⟨horiginal, hcompetitor⟩ := race_live hc hp
    exact (hx.queue q hq _ horiginal).trans (hy.queue q hq _ hcompetitor).symm

theorem Fixed.follows {y : TransactionId} (hx : s.Fixed x n) (hy : s.Fixed y n)
    (hkept : ¬ s.Renumbers e y) (hold : y ∉ e.newId) : s.FollowsIncluded e x y := by
  intro a ha hsent new hnew b hb hid
  obtain ⟨new', hnew', hall⟩ := sends_at hy.queue hkept hold
  rw [hnew] at hnew'
  rw [List.append_cancel_left hnew'] at hb
  exact (hall b hb hid).trans (hx.included ha hsent).symm

/-- Two transactions at one nonce stay there in a run that neither reassigns one of them nor brings
its id in again. -/
theorem fixed_run {y : TransactionId} {es : List Event} (hkey : s.db.PrimaryKey)
    (hx : s.Fixed x n) (hy : s.Fixed y n)
    (hkept : EventMachine.Along step (fun s e => ¬ s.Renumbers e x ∧ ¬ s.Renumbers e y) s es)
    (hoX : x ∉ newIds es) (hoY : y ∉ newIds es) :
    (s.run es).Exclusive x y ∧
      EventMachine.Along step (fun s e => s.FollowsIncluded e x y ∧ s.FollowsIncluded e y x) s es := by
  induction es generalizing s with
  | nil => exact ⟨exclusive_of_fixed hx hy, trivial⟩
  | cons e es ih =>
    rw [newIds_cons, List.mem_append, not_or, Option.mem_toList] at hoX hoY
    obtain ⟨⟨hkeptX, hkeptY⟩, hkept⟩ := hkept
    obtain ⟨hexclusive, hfollows⟩ := ih (primaryKey_step hkey) (hx.step hkey hkeptX hoX.1)
      (hy.step hkey hkeptY hoY.1) hkept hoX.2 hoY.2
    exact ⟨hexclusive, ⟨hx.follows hy hkeptY hoY.1, hy.follows hx hkeptX hoX.1⟩, hfollows⟩

/-- Nothing is in use by a relayer that starts with nothing. -/
theorem Blank.uses (h : s.Blank) : ∀ n, ¬ s.Uses x n := by
  obtain ⟨hdb, hbroadcasts, hqueue⟩ := h
  rintro n (⟨q, hq, hlive⟩ | ⟨r, hr, -⟩ | ⟨b, hb, -⟩)
  · obtain ⟨hpending, hinmempool⟩ := hqueue q hq
    simp [Book.live, TransactionsQueue.book, hpending, hinmempool] at hlive
  · rw [hdb] at hr
    cases hr
  · rw [hbroadcasts] at hb
    cases hb

/-- A competitor that is sent leaves the entries as they are, or it joins the front and the
original's row is written at the original's nonce. -/
theorem sendCompetitor_linked (l : Locked) (env : CompeteEnv) (original competitor : Transaction)
    (type : CompetitionType) :
    (l.sendCompetitor env original competitor type).1.queue = l.queue ∨
      (∀ r ∈ (l.sendCompetitor env original competitor type).1.db.rows, r.id = original.id →
        r.nonce = original.nonce) ∧
      ∃ front rest tracked, l.queue.inmempoolTransactions = front :: rest ∧
        front.original.id = original.id ∧ Transaction.nonce tracked = competitor.nonce ∧
        (l.sendCompetitor env original competitor type).1.queue.inmempoolTransactions =
          front.addCompetitor tracked type :: rest := by
  have hspec := Locked.send_spec l env.send competitor
  unfold Locked.sendCompetitor
  rcases hsend : l.send env.send competitor with ⟨sentCompetitor, l', e | sent⟩
  · rw [hsend] at hspec
    left
    cases e with
    | transactionSendError e =>
      dsimp only
      split
      · split <;> exact hspec.queue
      · exact hspec.queue
    | _ => exact hspec.queue
  · rw [hsend] at hspec
    dsimp only
    split
    · exact .inl hspec.queue
    · split
      · exact .inl hspec.queue
      · rename_i q' hadd
        obtain ⟨front, rest, hlist, hid, rfl⟩ := TransactionsQueue.addCompetitor_ok hadd
        rw [hspec.queue] at hlist
        refine .inr ⟨?_, front, rest, { sentCompetitor with
          status := .inmempool
          knownTransactionHash := some sent.hash
          sentAt := some env.nowWrite }, hlist, hid, hspec.nonce, rfl⟩
        intro r hr hrid
        obtain ⟨r₀, -, ⟨-, rfl⟩ | ⟨hne, rfl⟩⟩ := Db.mem_update hr
        · rfl
        · exact absurd hrid hne

theorem step_unlocked {y : TransactionId} (hl : s.lock = none) (hnew : y ∈ e.newId) :
    s.step e = s := by
  cases e with
  | add | cancel | replace => exact locked_of_none _ hl
  | processPending | processInmempool | processMined | restart | included => cases hnew

/-- A competitor that is sent and joins an entry has the nonce its original is in use at, and the
original's row is written there. -/
theorem joined_of_sent {l : Locked} {env : CompeteEnv} {id : TransactionId}
    {original competitor : Transaction} {type : CompetitionType} {c : CompetitiveTransaction}
    {p : Transaction × CompetitionType} (hraced : l.raced env id = some original)
    (hcompetes : Locked.CompetesWith env original competitor)
    (hc : c ∈ (l.sendCompetitor env original competitor type).1.queue.inmempoolTransactions)
    (hp : p ∈ c.competitive) (hother : c.entry ∉ l.queue.book.inmempool) :
    (c.original.id, c.original.nonce) ∈ l.queue.book.live ∧
      (∀ r ∈ (l.sendCompetitor env original competitor type).1.db.rows, r.id = c.original.id →
        r.nonce = c.original.nonce) ∧ p.1.nonce = c.original.nonce := by
  rcases sendCompetitor_linked l env original competitor type with
    hsame | ⟨hrows, front, rest, tracked, hlist, hid, hnonce, hadded⟩
  · rw [hsame] at hc
    exact absurd (List.mem_map_of_mem hc) hother
  rw [hadded] at hc
  rcases List.mem_cons.mp hc with rfl | hc
  · cases hp
    obtain ⟨c₀, hfind, rfl, hoid⟩ :=
      TransactionsQueue.getEditable_inmempool (Locked.raced_some hraced).2.2
    -- The front is the entry the original was found in.
    have hfront : front = c₀ := by
      have hfrontFind := List.find?_cons_of_pos
        (p := fun c : CompetitiveTransaction => c.original.id == id) (l := rest)
        (beq_iff_eq.mpr (hid.trans hoid))
      rw [← hlist] at hfrontFind
      exact Option.some.inj (hfrontFind.symm.trans hfind)
    subst hfront
    have hlive : (front.original.id, front.original.nonce) ∈ l.queue.book.live :=
      Locked.entry_mem_live (hlist ▸ List.mem_cons_self ..) (List.mem_cons_self ..)
    exact ⟨hlive, hrows, hnonce.trans hcompetes.nonce⟩
  · exact absurd (List.mem_map_of_mem (hlist ▸ List.mem_cons_of_mem _ hc)) hother

/-- A competitor that the step brings in joins the original at its nonce, and the step leaves the
original's row there. -/
theorem Races.joined {y : TransactionId} (hraces : (s.step e).Races x y) (hnew : y ∈ e.newId)
    (hfresh : ∀ n, ¬ s.Uses y n) : ∃ n, (∃ q ∈ s.queue, (x, n) ∈ q.book.live) ∧
      (∀ r ∈ (s.step e).db.rows, r.id = x → r.nonce = n) ∧ (s.step e).Uses y n := by
  rcases hlock : s.lock with _ | l
  · obtain ⟨q, hq, c, hc, -, p, hp, rfl⟩ := hraces
    refine absurd (.inl ⟨q, ?_, (race_live hc hp).2⟩) (hfresh p.1.nonce)
    rwa [step_unlocked hlock hnew] at hq
  obtain ⟨q, hqueue, c, hc, rfl, p, hp, rfl⟩ := hraces
  -- The entry is not one of the queue before, in which the competitor is not in use.
  have hother : c.entry ∉ l.queue.book.inmempool := by
    intro hentry
    apply hfresh p.1.nonce
    refine .inl ⟨l.queue, (lock_some hlock).1,
      Book.mem_live.mpr (.inr ⟨c.entry, hentry, p.1.held, ?_, rfl, rfl⟩)⟩
    simp [CompetitiveTransaction.entry, Entry.members, Option.mem_def.mp hp]
  have hunchanged {l' : Locked} (hstep : s.step e = s.unlock l')
      (hsame : l'.queue.book.inmempool = l.queue.book.inmempool) : False := by
    rw [hstep] at hqueue
    cases hqueue
    exact hother (hsame ▸ List.mem_map_of_mem hc)
  have hcompeted {env : CompeteEnv} {id : TransactionId} {original competitor : Transaction}
      {type : CompetitionType} (hraced : l.raced env id = some original)
      (hcompetes : Locked.CompetesWith env original competitor)
      (hstep : s.step e = s.unlock (l.sendCompetitor env original competitor type).1) :
      ∃ n, (∃ q ∈ s.queue, (c.original.id, n) ∈ q.book.live) ∧
        (∀ r ∈ (s.step e).db.rows, r.id = c.original.id → r.nonce = n) ∧
          (s.step e).Uses p.1.id n := by
    rw [hstep] at hqueue ⊢
    cases hqueue
    obtain ⟨hlive, hrows, hnonce⟩ := joined_of_sent hraced hcompetes hc hp hother
    have hjoined := (race_live hc hp).2
    rw [hnonce] at hjoined
    exact ⟨c.original.nonce, ⟨l.queue, (lock_some hlock).1, hlive⟩, hrows, .inl ⟨_, rfl, hjoined⟩⟩
  have hrewritten {l' : Locked} {env : CompeteEnv} {t : Transaction}
      (hrewrite : l.rewritePending env t = some l') (hstep : s.step e = s.unlock l') : False := by
    unfold Locked.rewritePending at hrewrite
    split at hrewrite
    · cases hrewrite
      exact hunchanged hstep rfl
    · cases hrewrite
  cases e with
  | add env toSend =>
    have hstep : s.step (.add env toSend) = s.unlock (l.addTransaction env toSend).1 :=
      locked_of_some _ hlock
    have hbook := (l.addTransaction_effect env toSend).book
    have hyields := addAction_yields l env toSend
    refine (hunchanged hstep ?_).elim
    generalize l.addAction env toSend = a at hbook hyields
    generalize (l.addTransaction env toSend).1.queue.book = after at hbook ⊢
    cases hyields <;> cases hbook <;> rfl
  | cancel env id =>
    have hstep : s.step (.cancel env id) = s.unlock (l.cancelTransaction env id).1 :=
      locked_of_some _ hlock
    rcases l.cancelTransaction_cases env id with
      hsame | ⟨t, -, hrewrite⟩ | ⟨original, competitor, hraced, hcompetitor, hsent⟩
    · exact (hunchanged hstep (congrArg (·.queue.book.inmempool) hsame)).elim
    · exact (hrewritten hrewrite hstep).elim
    · exact hcompeted hraced (Locked.cancelCompetitor_competes hcompetitor) (hsent ▸ hstep)
  | replace env request id =>
    have hstep : s.step (.replace env request id) =
        s.unlock (l.replaceTransaction env request id).1 := locked_of_some _ hlock
    rcases l.replaceTransaction_cases env request id with
      hsame | ⟨t, blobs, -, hrewrite⟩ | ⟨original, competitor, hraced, hcompetitor, hsent⟩
    · exact (hunchanged hstep (congrArg (·.queue.book.inmempool) hsame)).elim
    · exact (hrewritten hrewrite hstep).elim
    · exact hcompeted hraced (Locked.replaceCompetitor_competes hcompetitor) (hsent ▸ hstep)
  | processPending | processInmempool | processMined | restart | included => cases hnew

/-- An enlisted transaction that gets a competitor can only be included at the race's nonce. -/
theorem Enlisted.fixed (h : s.Enlisted x) (hnew : e.newId.isSome = true)
    (hlive : ∃ q ∈ s.queue, (x, n) ∈ q.book.live)
    (hrows : ∀ r ∈ (s.step e).db.rows, r.id = x → r.nonce = n) (hkept : ¬ s.Renumbers e x)
    (hold : x ∉ e.newId) : (s.step e).Fixed x n := by
  obtain ⟨q, hq, hlive⟩ := hlive
  have hqueue : ∀ q ∈ s.queue, ∀ m, (x, m) ∈ q.book.live → m = n := by
    intro q' hq' m hm
    obtain rfl : q = q' := Option.some.inj (hq.symm.trans hq')
    exact h.queued q hq m n hm hlive
  refine ⟨?_, hrows, attempts_at hqueue hkept hold (h.attempts q hq n hlive)⟩
  have hchange := s.step_change e
  generalize s.step e = s' at hchange ⊢
  cases hchange with
  | idle => exact hqueue
  | @acted l l' hl heffect =>
    rintro q ⟨⟩ m hm
    exact writes_at hqueue hkept hold hl (heffect.book.live hm)
  | confirmed env he | restarted env he | extended signed he =>
    rw [he] at hnew
    cases hnew

/-- A run in which every event brings in another id. When a step gives an enlisted transaction in the
mempool a competitor and no pass from then on reassigns the nonce of one of the two, at most one of
them is included, and what is broadcast for the other one is at the same nonce. -/
theorem competition_exclusive {before after : List Event} {x y : TransactionId} (hs : s.Blank)
    (hids : (newIds (before ++ e :: after)).Nodup) (hnew : y ∈ e.newId)
    (hraces : ((s.run before).step e).Races x y) (henlisted : (s.run before).Enlisted x)
    (hkept : EventMachine.Along step (fun s e => ¬ s.Renumbers e x ∧ ¬ s.Renumbers e y)
      (s.run before) (e :: after)) :
    (s.run (before ++ e :: after)).Exclusive x y ∧
      EventMachine.Along step (fun s e => s.FollowsIncluded e x y ∧ s.FollowsIncluded e y x)
        ((s.run before).step e) after := by
  have hkey : s.db.PrimaryKey := by
    rw [hs.db]
    exact List.nodup_nil
  have hkeyBefore : (s.run before).db.PrimaryKey := primaryKey_run hkey
  obtain ⟨⟨hkeptX, hkeptY⟩, hkeptAfter⟩ := hkept
  -- No id comes in twice: the competitor's not before, and none of the two afterwards.
  have hsplit : newIds (before ++ e :: after) =
      newIds before ++ (e.newId.toList ++ newIds after) := by
    rw [← newIds_cons]
    exact List.filterMap_append
  rw [hsplit, List.nodup_append] at hids
  obtain ⟨-, hlater, hapart⟩ := hids
  have hnewY : y ∈ e.newId.toList := Option.mem_toList.mpr hnew
  have hfreshY : ∀ n, ¬ (s.run before).Uses y n :=
    unused_run hkey hs.uses fun hy => hapart y hy y (List.mem_append_left _ hnewY) rfl
  have hafterY : y ∉ newIds after := fun hy =>
    (List.nodup_append.mp hlater).2.2 y hnewY y hy rfl
  obtain ⟨n, hlive, hrows, hy⟩ := hraces.joined hnew hfreshY
  have hinX : x ∈ newIds before := by
    by_contra hout
    obtain ⟨q, hq, hlive⟩ := hlive
    exact unused_run hkey hs.uses hout n (.inl ⟨q, hq, hlive⟩)
  have hnotX : x ∉ e.newId.toList ++ newIds after := fun hx => hapart x hinX x hx rfl
  rw [List.mem_append, not_or, Option.mem_toList] at hnotX
  have hfixedX := henlisted.fixed (Option.isSome_of_mem hnew) hlive hrows hkeptX hnotX.1
  have honeY : ((s.run before).step e).OneNonce y :=
    OneNonce.step (fun n m hn => absurd hn (hfreshY n)) hkeyBefore hkeptY fun _ => hfreshY
  have hrun : s.run (before ++ e :: after) = ((s.run before).step e).run after :=
    EventMachine.run_append step s before (e :: after)
  rw [hrun]
  exact fixed_run (primaryKey_step hkeyBefore) hfixedX (honeY.fixed hy) hkeptAfter hnotX.2 hafterY

/-- A payment loses its first nonce to another transaction of the account and is sent at the next
one. -/
def movedAndSent : List Event :=
  [.add (servedAdd 0) (payment 0 5), .included (paymentEnvelope 0 9 1 10),
    .processPending (servedPending nonceTooLow (servedClient [] 1) []),
    .processPending (servedPending (.ok ()) (servedClient [] 1) [])]

/-- A pass and a restart after its cancellation, and its inclusion. -/
def racedAndIncluded : List Event :=
  [.processInmempool (servedInmempool [] (.ok ()) (servedClient [] 1) []),
    .restart (servedStartup (servedClient [] 1)), .included (paymentEnvelope 1 5 1 10)]

/-- The payment is enlisted at its second nonce, and its no-op stays there with it. -/
theorem competition_exclusive_cancelled :
    (freshRelayer.run (movedAndSent ++ .cancel (servedCompete 2 (.ok ()) (servedClient [] 1)) 0 ::
        racedAndIncluded)).Exclusive 0 2 ∧
      EventMachine.Along step (fun s e => s.FollowsIncluded e 0 2 ∧ s.FollowsIncluded e 2 0)
        ((freshRelayer.run movedAndSent).step
          (.cancel (servedCompete 2 (.ok ()) (servedClient [] 1)) 0)) racedAndIncluded := by
  have hlive : ∀ q ∈ (freshRelayer.run movedAndSent).queue, ∀ p ∈ q.book.live, p.1 = 0 → p.2 = 1 := by
    decide +kernel
  have hattempts : ∀ b ∈ (freshRelayer.run movedAndSent).broadcasts, b.1 = 0 →
      b.2.nonce = 1 ∨ (freshRelayer.run movedAndSent).chain.Excludes b.2 := by decide +kernel
  apply competition_exclusive freshRelayer_blank
  · decide +kernel
  · rfl
  · unfold Races
    decide +kernel
  · constructor
    · intro q hq n m hn hm
      have hone : n = 1 := hlive q hq _ hn rfl
      have hsame : m = 1 := hlive q hq _ hm rfl
      exact hone.trans hsame.symm
    · intro q hq n hn signed hsigned
      have hone : n = 1 := hlive q hq _ hn rfl
      rw [hone]
      exact hattempts _ hsigned rfl
  · decide +kernel

/-- Prices that have gone up, so that a no-op is below its cap and is bumped. -/
def dearGas : GasOracle := fun _ => some ⟨1000, 1000, none, none⟩

def dearBump (broadcast : Except String Unit) : Event :=
  .processInmempool { servedInmempool [] broadcast (servedClient [] 1) [] with
    capOracle := dearGas
    send := { servedSend broadcast with gasOracle := dearGas } }

/-- The no-op as it is sent at the next nonce. -/
def movedNoop : SignedTransaction := ⟨⟨1, 1, 21000, 7, 0, [], .eip1559 1000 1000⟩, 0⟩

/-- The original is mined while its no-op is polled: the node refuses the bumped no-op's nonce, and
the pass moves the no-op to the next one and sends it there, where it is mined as well. -/
def bothMined : List Event :=
  [.included (paymentEnvelope 0 5 1 10), dearBump nonceTooLow, dearBump (.ok ()),
    .included movedNoop]

theorem competition_exclusive_fails :
    ¬ ∀ (before after : List Event) (e : Event) (x y : TransactionId),
      (newIds (before ++ e :: after)).Nodup → y ∈ e.newId →
      ((freshRelayer.run before).step e).Races x y →
      (freshRelayer.run (before ++ e :: after)).Exclusive x y ∧
        EventMachine.Along step (fun s e => s.FollowsIncluded e x y ∧ s.FollowsIncluded e y x)
          ((freshRelayer.run before).step e) after := by
  intro hexclusive
  have hrun := hexclusive (sentAtPrice ⟨1, 10, none, none⟩) bothMined
    (.cancel (servedCompete 2 (.ok ()) (servedClient [] 0)) 0) 0 2 (by decide +kernel) rfl
    (by unfold Races; decide +kernel)
  generalize hs : freshRelayer.run (sentAtPrice ⟨1, 10, none, none⟩ ++
    .cancel (servedCompete 2 (.ok ()) (servedClient [] 0)) 0 :: bothMined) = s at hrun
  obtain ⟨hchain, hsent, hmoved⟩ :
      s.chain.entries = [paymentEnvelope 0 5 1 10, movedNoop] ∧
        (0, paymentEnvelope 0 5 1 10) ∈ s.broadcasts ∧ (2, movedNoop) ∈ s.broadcasts := by
    rw [← hs]
    decide +kernel
  have hsame := hrun.1.included (paymentEnvelope 0 5 1 10) (by simp [hchain]) movedNoop
    (by simp [hchain]) (.inl hsent) (.inr hmoved)
  exact absurd hsame (by decide)

end TransactionsQueues
end Rrelayer
