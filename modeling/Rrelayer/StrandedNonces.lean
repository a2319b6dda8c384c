import Rrelayer.LiveNonces
import Rrelayer.StartupGaps

/-! Nonces nobody will consume. In a process that starts over gapless rows, a nonce below the next
one is either consumed on chain or held by a live transaction, as long as a transaction only gives
up a nonce that is consumed. -/
namespace Rrelayer

namespace Book

/-- The book of a relayer that strands no nonce: what is handed out is consumed or held, and a
receipt of a recorded hash consumes every nonce of its entry. -/
structure Sound (chain : Chain) (b : Book) : Prop where
  table : b.table.Accounted (· < chain.length)
  below : ∀ x n, (x, n) ∈ b.live → n < b.next
  hashes : ∀ e ∈ b.inmempool, ∀ hash ∈ e.active.hash,
    hash.nonce = e.active.nonce ∨ chain.Excludes hash
  order : ∀ e ∈ b.inmempool, e.original.nonce ≤ e.active.nonce
  ids : ∀ e ∈ b.inmempool, ∀ c ∈ e.competitor, c.id ≠ e.original.id
  caughtUp : chain.length ≤ b.next

/-- The action gives no nonce up that is still to be consumed: a reassigned transaction's old nonce
is consumed, in the mempool not by the hash the queue keeps for it; an adopted attempt is one at
the transaction's nonce, unless another transaction has taken its own; and a competitor that is
itself replaced has no nonce of its own. -/
def GivesUpConsumed (chain : Chain) (b : Book) : Action → Prop
  | .launch _ hash => ∀ p ∈ b.pending.head?, hash.nonce = p.2 ∨ chain.Excludes hash
  | .attach _ _ => ∀ e ∈ b.inmempool.head?,
      e.active.nonce = e.original.nonce ∨ e.active.nonce < chain.length
  | .movePending _ _ => ∀ p ∈ b.pending.head?, p.2 < chain.length
  | .moveInmempool _ _ => ∀ e ∈ b.inmempool.head?,
      e.active.nonce < chain.length ∧ ∀ hash ∈ e.active.hash, hash ∉ chain.entries
  | .keep | .refuse _ _ | .reserve _ _ | .attempt _ _ | .record _ | .resolve _ => True

instance decidableGivesUpConsumed (chain : Chain) (b : Book) :
    ∀ a, Decidable (b.GivesUpConsumed chain a)
  | .launch _ hash => inferInstanceAs
      (Decidable (∀ p ∈ b.pending.head?, hash.nonce = p.2 ∨ chain.Excludes hash))
  | .attach _ _ => inferInstanceAs (Decidable (∀ e ∈ b.inmempool.head?,
      e.active.nonce = e.original.nonce ∨ e.active.nonce < chain.length))
  | .movePending _ _ => inferInstanceAs (Decidable (∀ p ∈ b.pending.head?, p.2 < chain.length))
  | .moveInmempool _ _ => inferInstanceAs (Decidable (∀ e ∈ b.inmempool.head?,
      e.active.nonce < chain.length ∧ ∀ hash ∈ e.active.hash, hash ∉ chain.entries))
  | .keep | .refuse _ _ | .reserve _ _ | .attempt _ _ | .record _ | .resolve _ => .isTrue trivial

/-- The actions that strand no nonce. -/
structure Keeps (chain : Chain) (b : Book) (a : Action) : Prop where
  newNonce : ∀ m ∈ a.newNonce, m ≤ b.next
  newId : ∀ id hash, a = .attach id hash → ∀ p ∈ b.live, p.1 ≠ id
  receipt : ∀ hash, a = .resolve hash → hash ∈ chain.entries
  givesUp : b.GivesUpConsumed chain a

variable {chain : Chain} {b b' : Book} {a : Action}

/-- The active transaction of an updated entry, when the two members have different ids. -/
theorem active_update {e : Entry} {f : Held → Held} (hid : ∀ c ∈ e.competitor, c.id ≠ e.original.id) :
    (e.update e.active.id f).active = f e.active := by
  obtain ⟨original, _ | c⟩ := e
  · simp [Entry.update, Entry.active]
  · have hne : original.id ≠ c.id := fun h => hid c rfl h.symm
    simp [Entry.update, Entry.active, hne]

theorem original_update {e : Entry} {f : Held → Held} (hid : ∀ c ∈ e.competitor, c.id ≠ e.original.id) :
    (e.update e.active.id f).original = if e.competitor = none then f e.original else e.original := by
  obtain ⟨original, _ | c⟩ := e
  · simp [Entry.update, Entry.active]
  · have hne : original.id ≠ c.id := fun h => hid c rfl h.symm
    simp [Entry.update, Entry.active, hne]

theorem nonces_eq (e : Entry) : ∀ n ∈ e.nonces, n = e.original.nonce ∨ n = e.active.nonce := by
  obtain ⟨original, _ | c⟩ := e <;> simp [Entry.nonces, Entry.members, Entry.active]

theorem head_eq {α : Type} {as : List α} {a : α} {rest : List α} (h : as = a :: rest) :
    a ∈ as.head? := by
  rw [h]
  rfl

/-- A permitted action only loses numbers that are consumed on chain. -/
theorem Sound.permits (hb : b.Sound chain) (h : Step b a b') (hk : b.Keeps chain a) :
    b.Permits (· < chain.length) a := by
  have hnone {m : ℕ} (hm : m ∈ a.newNonce) : ∀ n, b.next ≤ n → n < m → n < chain.length := by
    intro n hn hlt
    have := hk.newNonce m hm
    omega
  have hgives := hk.givesUp
  cases h with
  | keep | launch | attempt | record => trivial
  | refuse | reserve => exact hnone rfl
  | @attach id hash e es hfront =>
    intro e' he' n hn hne
    rcases nonces_eq e' n hn with rfl | rfl
    · exact absurd rfl hne
    · exact (hgives e' he').resolve_left hne
  | movePending => exact ⟨hnone rfl, hgives⟩
  | @moveInmempool m e es hfront =>
    refine ⟨hnone rfl, fun e' he' n hn _ => ?_⟩
    have hactive := (hgives e' he').1
    have horder := hb.order e' (List.mem_of_mem_head? he')
    rcases nonces_eq e' n hn with rfl | rfl
    · exact Nat.lt_of_le_of_lt horder hactive
    · exact hactive
  | @resolve hash e es hfront hhash =>
    intro e' he' n hn
    obtain rfl : e = e' := Option.some.inj ((head_eq hfront).symm.trans he')
    have hmem := List.mem_of_mem_head? he'
    have hincluded := hk.receipt hash rfl
    have hactive : e.active.nonce < chain.length := by
      rcases hb.hashes e hmem hash hhash with heq | hexcluded
      · rw [← heq]
        exact Ledger.seq_lt_length hincluded
      · exact absurd hincluded hexcluded.not_mem
    have horder := hb.order e hmem
    rcases nonces_eq e n hn with rfl | rfl
    · exact Nat.lt_of_le_of_lt horder hactive
    · exact hactive

/-- What holds of each entry of a sound book. -/
structure SoundEntry (chain : Chain) (e : Entry) : Prop where
  hashes : ∀ hash ∈ e.active.hash, hash.nonce = e.active.nonce ∨ chain.Excludes hash
  order : e.original.nonce ≤ e.active.nonce
  ids : ∀ c ∈ e.competitor, c.id ≠ e.original.id

theorem Sound.entry (hb : b.Sound chain) {e : Entry} (he : e ∈ b.inmempool) : SoundEntry chain e :=
  ⟨hb.hashes e he, hb.order e he, hb.ids e he⟩

/-- Every entry after a permitted action is sound. -/
theorem Sound.entries (hb : b.Sound chain) (h : Step b a b') (hk : b.Keeps chain a) :
    ∀ e ∈ b'.inmempool, SoundEntry chain e := by
  intro e' he'
  cases h with
  | keep | refuse | attempt | reserve | movePending => exact hb.entry he'
  | @launch id n hash ps hhead =>
    rcases List.mem_append.mp he' with he' | he'
    · exact hb.entry he'
    · obtain rfl := List.mem_singleton.mp he'
      refine ⟨?_, Nat.le_refl _, nofun⟩
      rintro _ ⟨⟩
      exact hk.givesUp (id, n) (head_eq hhead)
  | @attach id hash e es hfront hhash =>
    rcases List.mem_cons.mp he' with rfl | he'
    · refine ⟨?_, Nat.le_refl _, ?_⟩
      · rintro _ ⟨⟩
        exact .inl hhash
      · rintro _ ⟨⟩
        have hlive : (e.original.id, e.original.nonce) ∈ b.live :=
          mem_live.mpr (.inr ⟨e, hfront ▸ List.mem_cons_self .., e.original,
            List.mem_cons_self .., rfl, rfl⟩)
        exact (hk.newId _ _ rfl _ hlive).symm
    · exact hb.entry (hfront ▸ List.mem_cons_of_mem _ he')
  | @record hash e es hfront hhash =>
    rcases List.mem_cons.mp he' with rfl | he'
    · have he := hb.entry (hfront ▸ List.mem_cons_self .. : e ∈ b.inmempool)
      have hactive := active_update (f := fun h => { h with hash := some hash }) he.ids
      have horiginal := original_update (f := fun h => { h with hash := some hash }) he.ids
      refine ⟨?_, ?_, ?_⟩
      · rw [hactive]
        rintro _ ⟨⟩
        exact .inl hhash
      · rw [hactive, horiginal]
        split <;> exact he.order
      · obtain ⟨original, _ | c⟩ := e
        · simp [Entry.update, Entry.active]
        · have hne : original.id ≠ c.id := fun h => he.ids c rfl h.symm
          simpa [Entry.update, Entry.active, hne] using he.ids c rfl
    · exact hb.entry (hfront ▸ List.mem_cons_of_mem _ he')
  | @moveInmempool m e es hfront hm =>
    rcases List.mem_cons.mp he' with rfl | he'
    · have hmem : e ∈ b.inmempool := hfront ▸ List.mem_cons_self ..
      have he := hb.entry hmem
      have hactive := active_update (f := fun h => { h with nonce := m }) he.ids
      have horiginal := original_update (f := fun h => { h with nonce := m }) he.ids
      refine ⟨?_, ?_, ?_⟩
      · rw [hactive]
        intro hash hhash
        obtain ⟨hlt, hnot⟩ := hk.givesUp e (head_eq hfront)
        rcases he.hashes hash hhash with heq | hexcluded
        · refine .inr (Ledger.excludes_of_not_mem ?_ (hnot hash hhash))
          rw [heq]
          exact hlt
        · exact .inr hexcluded
      · rw [hactive, horiginal]
        have hlive : (e.original.id, e.original.nonce) ∈ b.live :=
          mem_live.mpr (.inr ⟨e, hmem, e.original, List.mem_cons_self .., rfl, rfl⟩)
        have hlt := hb.below _ _ hlive
        split
        · exact Nat.le_refl _
        · show e.original.nonce ≤ m
          omega
      · obtain ⟨original, _ | c⟩ := e
        · simp [Entry.update, Entry.active]
        · have hne : original.id ≠ c.id := fun h => he.ids c rfl h.symm
          simpa [Entry.update, Entry.active, hne] using he.ids c rfl
    · exact hb.entry (hfront ▸ List.mem_cons_of_mem _ he')
  | @resolve hash e es hfront => exact hb.entry (hfront ▸ List.mem_cons_of_mem _ he')

theorem Sound.original_lt (hb : b.Sound chain) {e : Entry} (he : e ∈ b.inmempool) :
    e.original.nonce < b.next :=
  hb.below e.original.id _
    (mem_live.mpr (.inr ⟨e, he, e.original, List.mem_cons_self .., rfl, rfl⟩))

theorem Step.next_le (h : Step b a b') : b.next ≤ b'.next := by
  cases h with
  | keep | launch | attempt | attach | record | resolve => exact Nat.le_refl _
  | refuse => exact Nat.le_max_left ..
  | @reserve id m =>
    show b.next ≤ max b.next m + 1
    omega
  | @movePending _ _ m _ _ _ hm =>
    show b.next ≤ m + 1
    omega
  | @moveInmempool m _ _ _ hm =>
    show b.next ≤ m + 1
    omega

/-- What an action writes is below the next number it leaves. -/
theorem Sound.below_step (hb : b.Sound chain) (h : Step b a b') {x : TransactionId} {n : ℕ}
    (hx : (x, n) ∈ b'.live) : n < b'.next := by
  rcases h.live hx with hlive | hnew
  · exact Nat.lt_of_lt_of_le (hb.below x n hlive) h.next_le
  · cases h with
    | keep | launch | record | resolve => exact hnew.elim
    | refuse => exact Nat.lt_of_lt_of_le (hb.below x n hx) (Nat.le_max_left ..)
    | reserve =>
      rw [hnew.2]
      exact Nat.lt_succ_self _
    | attempt he =>
      rw [hnew.2]
      exact hb.original_lt he
    | @attach id hash e es hfront hhash =>
      rw [hnew.2, hhash]
      exact hb.original_lt (hfront ▸ List.mem_cons_self ..)
    | movePending | moveInmempool =>
      rw [hnew.2]
      exact Nat.lt_succ_self _

/-- A permitted action keeps the book sound. -/
theorem Sound.step (hb : b.Sound chain) (h : Step b a b') (hk : b.Keeps chain a) :
    b'.Sound chain := by
  have hallocation := h.allocation (hb.permits h hk)
  have hentries := hb.entries h hk
  exact ⟨hallocation.accounted hb.table, fun x n hx => hb.below_step h hx,
    fun e he => (hentries e he).hashes, fun e he => (hentries e he).order,
    fun e he => (hentries e he).ids, Nat.le_trans hb.caughtUp h.next_le⟩

/-- A longer chain keeps the book sound. -/
theorem Sound.extend {chain' : Chain} (hb : b.Sound chain) (h : chain.Extends chain')
    (hle : chain'.length ≤ b.next) : b.Sound chain' where
  table := hb.table.mono fun _ hn => Nat.lt_of_lt_of_le hn h.length_le
  below := hb.below
  hashes e he hash hhash := (hb.hashes e he hash hhash).imp id (.mono h)
  order := hb.order
  ids := hb.ids
  caughtUp := hle

/-- What is broadcast is broadcast at a nonce that has been handed out. -/
theorem Sound.sends_lt (hb : b.Sound chain) (h : Step b a b') {x : TransactionId} {n : ℕ}
    (hs : b.Sends a x n) : n < b.next := by
  rcases hs with hlive | hnew
  · exact hb.below x n hlive
  · cases h with
    | keep | refuse | reserve | launch | record | movePending | moveInmempool | resolve =>
      exact hnew.elim
    | attempt he => exact hnew.2 ▸ hb.original_lt he
    | @attach id hash e es hfront hhash =>
      rw [hnew.2, hhash]
      exact hb.original_lt (hfront ▸ List.mem_cons_self ..)

end Book

namespace TransactionsQueues

/-- One process whose key nobody else uses: only its own payloads are included, the providers
count them only, receipts are those of included transactions, and new ids are new. -/
structure OwnKey (s : TransactionsQueues) (e : Event) : Prop where
  oneProcess : e.isRestart = false
  included : ∀ signed, e = .included signed → ∃ x, (x, signed) ∈ s.broadcasts
  counts : ∀ c ∈ e.clients, ∀ n, c.getTransactionCount = .ok n →
    n ≤ s.chain.length ∨ ∃ b ∈ (s.step e).broadcasts, n ≤ b.2.nonce + 1
  receipts : ∀ env, e = .processInmempool env → ∀ hash receipt,
    env.pollReceipt hash = .ok (some receipt) → hash ∈ s.chain.entries
  newIds : ∀ q ∈ s.queue, ∀ t ∈ q.liveTransactions, ∀ id ∈ e.newId, t.id ≠ id

/-- The step gives no nonce up that is still to be consumed. -/
def GivesUpConsumed (s : TransactionsQueues) (e : Event) : Prop :=
  ∀ l ∈ s.lock, l.queue.book.GivesUpConsumed s.chain (s.stepAction e)

instance (s : TransactionsQueues) (e : Event) : Decidable (GivesUpConsumed s e) :=
  inferInstanceAs (Decidable (∀ l ∈ s.lock, l.queue.book.GivesUpConsumed s.chain (s.stepAction e)))

/-- The state of a relayer that strands no nonce. -/
def Sound (s : TransactionsQueues) : Prop :=
  ∀ q ∈ s.queue, q.book.Sound s.chain ∧ ∀ b ∈ s.broadcasts, b.2.nonce < q.nonceManager.nonce

/-- With its own key and the condition on what is given up, a step's action keeps the book. -/
theorem keeps_stepAction {s : TransactionsQueues} {e : Event} {l : Locked} (hl : s.lock = some l)
    (hcounts : ∀ n, pendingNonceAcrossClients e.clients = .ok n → n ≤ l.queue.nonceManager.nonce)
    (hown : OwnKey s e) (hgives : GivesUpConsumed s e) :
    l.queue.book.Keeps s.chain (s.stepAction e) := by
  have hnew : ∀ m ∈ (s.stepAction e).newNonce, m ≤ l.queue.book.next := by
    intro m hm
    obtain ⟨n, hn, hle⟩ := stepAction_newNonce hl hm
    have := hcounts n hn
    show m ≤ l.queue.nonceManager.nonce
    omega
  refine ⟨hnew, ?_, ?_, hgives l hl⟩
  · intro id hash ha p hp
    rw [TransactionsQueue.book_live] at hp
    obtain ⟨t, ht, rfl⟩ := List.mem_map.mp hp
    exact hown.newIds l.queue (lock_some hl).1 t ht id (ha ▸ s.stepAction_yields e).attach
  · intro hash ha
    obtain ⟨env, receipt, he, hreceipt⟩ := Yields.receipt (ha ▸ s.stepAction_yields e)
    exact hown.receipts env he hash receipt hreceipt

theorem sound_step {s : TransactionsQueues} {e : Event} (hown : OwnKey s e)
    (hgives : GivesUpConsumed s e) (h : s.Sound) : (s.step e).Sound := by
  have hchange := s.step_change e
  have hcounts := hown.counts
  generalize s.step e = s' at hchange hcounts ⊢
  cases hchange with
  | idle => exact h
  | @acted l l' hl heffect =>
    obtain ⟨hqueue, -, hbroadcasts⟩ := lock_some hl
    obtain ⟨hbook, hsent⟩ := h l.queue hqueue
    obtain ⟨new, hnew, hsends⟩ := heffect.sent
    have hlt : ∀ b ∈ l'.broadcasts, b.2.nonce < l.queue.nonceManager.nonce := by
      intro b hb
      rw [hnew, hbroadcasts] at hb
      rcases List.mem_append.mp hb with hb | hb
      · exact hsent b hb
      · exact hbook.sends_lt heffect.book (hsends b hb)
    have hanswers : ∀ n, pendingNonceAcrossClients e.clients = .ok n →
        n ≤ l.queue.nonceManager.nonce := by
      intro n hn
      obtain ⟨c, hc, hcount⟩ := pendingNonceAcrossClients_mem hn
      rcases hcounts c hc n hcount with hle | ⟨b, hb, hle⟩
      · exact Nat.le_trans hle hbook.caughtUp
      · have := hlt b hb
        omega
    rintro q ⟨⟩
    refine ⟨hbook.step heffect.book (keeps_stepAction hl hanswers hown hgives), ?_⟩
    intro b hb
    exact Nat.lt_of_lt_of_le (hlt b hb) heffect.book.next_le
  | @confirmed l env he hl =>
    obtain ⟨hqueue, -, hbroadcasts⟩ := lock_some hl
    obtain ⟨hbook, hsent⟩ := h l.queue hqueue
    obtain ⟨hsame, -, hkeeps, -⟩ := l.processSingleMined_spec env
    have hnext : (l.processSingleMined env).1.queue.nonceManager.nonce =
        l.queue.nonceManager.nonce := congrArg Book.next hsame
    rintro q ⟨⟩
    refine ⟨hsame ▸ hbook, fun b hb => ?_⟩
    rw [hnext]
    exact hsent b (hbroadcasts ▸ hkeeps ▸ hb)
  | restarted env he =>
    have := hown.oneProcess
    rw [he] at this
    cases this
  | extended signed he hnonce =>
    intro q hq
    obtain ⟨hbook, hsent⟩ := h q hq
    obtain ⟨x, hx⟩ := hown.included signed he
    refine ⟨hbook.extend (Ledger.extends_push _ signed hnonce) ?_, hsent⟩
    have hlt : signed.nonce < q.nonceManager.nonce := hsent _ hx
    rw [Ledger.length_push]
    show s.chain.length + 1 ≤ q.nonceManager.nonce
    omega

/-- What a startup has to find so that the process it starts has no gap: the rows it leaves hold
every nonce from the chain's up to the highest one that a row has, the providers count or is
broadcast; a competitor is in the mempool with its original, at its nonce or a later one; and a row
shows an attempt at its nonce, or one that lost its own. -/
structure GaplessStart (s : TransactionsQueues) (env : StartupEnv) : Prop where
  key : s.db.PrimaryKey
  contiguous : (s.startup env).db.Contiguous s.relayer.id s.chain.length
  counted : ∀ n, pendingNonceAcrossClients env.startupClients = .ok n → s.chain.length ≤ n ∧
    ∀ m, s.chain.length ≤ m → m < n → (s.startup env).db.LiveAt s.relayer.id m
  sent : ∀ b ∈ s.broadcasts, b.2.nonce < s.chain.length ∨
    (s.startup env).db.LiveAt s.relayer.id b.2.nonce
  flat : FlatLinks ((s.startup env).db.getTransactionsByStatusForRelayer s.relayer.id .inmempool)
  linked : ∀ t ∈ (s.startup env).db.getTransactionsByStatusForRelayer s.relayer.id .inmempool,
    ∀ c ∈ (s.startup env).db.getTransactionsByStatusForRelayer s.relayer.id .inmempool,
      t.cancelledByTransactionId = some c.id → t.nonce ≤ c.nonce
  shown : ∀ t ∈ (s.startup env).db.getTransactionsByStatusForRelayer s.relayer.id .inmempool,
    ∀ hash ∈ t.knownTransactionHash, hash.nonce = t.nonce ∨ s.chain.Excludes hash

/-- How a process begins: with the queue of a relayer that has nothing to send, or with what a
startup reads from gapless rows. -/
inductive Begins (s : TransactionsQueues) : Prop where
  | created (hqueue : ∀ q ∈ s.queue, q.pendingTransactions = [] ∧ q.inmempoolTransactions = [] ∧
      q.nonceManager.nonce = s.chain.length)
    (hsent : ∀ b ∈ s.broadcasts, b.2.nonce < s.chain.length)
  | started {before : TransactionsQueues} {env : StartupEnv} (hrows : before.GaplessStart env)
    (hstarted : s = before.startup env)

section Startup

variable {s : TransactionsQueues} {env : StartupEnv}

theorem startup_sameIds (s : TransactionsQueues) (env : StartupEnv) :
    s.db.SameIds (s.startup env).db := by
  show s.db.SameIds (startupTransactionsQueues s.relayer env s.db).1
  rw [startupTransactionsQueues_db]
  split
  · exact startupRepair_sameIds ..
  · rfl

/-- The entry a row opens is sound when the rows are. -/
theorem GaplessStart.opens (h : s.GaplessStart env) {t : Transaction} {c : CompetitiveTransaction}
    (ht : t ∈ (s.startup env).db.getTransactionsByStatusForRelayer s.relayer.id .inmempool)
    (hopens : Opens ((s.startup env).db.getTransactionsByStatusForRelayer s.relayer.id .inmempool)
      t c) : Book.SoundEntry s.chain c.entry := by
  cases hopens with
  | @paired id competitor hlink hfind =>
    have hmem := List.mem_of_find?_eq_some hfind
    have hid : competitor.id = id := by simpa using List.find?_some hfind
    constructor
    · exact h.shown competitor hmem
    · exact h.linked t ht competitor hmem (hid ▸ hlink)
    · rintro _ ⟨⟩ hsame
      have hsame : competitor.id = t.id := hsame
      exact h.flat t ht competitor hmem (hid ▸ hlink) t ht (hsame ▸ hid ▸ hlink)
  | dangling | single =>
    constructor
    · exact h.shown t ht
    · exact Nat.le_refl _
    · exact nofun

/-- A nonce that a live row holds is held in the queue that is read from the rows. -/
theorem GaplessStart.held (h : s.GaplessStart env) (onchainNonce : ℕ) {n : ℕ}
    (hn : (s.startup env).db.LiveAt s.relayer.id n) :
    ∃ t ∈ (repopulatedQueue s.relayer env (s.startup env).db onchainNonce).liveTransactions,
      t.nonce = n := by
  have hnodup : (((s.startup env).db.getTransactionsByStatusForRelayer s.relayer.id
      .inmempool).map (·.id)).Nodup :=
    Db.getTransactionsByStatus_nodup ((startup_sameIds s env).primaryKey h.key)
  obtain ⟨r, hr, hrelayer, hstatus, rfl⟩ := hn
  rcases hstatus with hstatus | hstatus
  · have hmem := Db.mem_getTransactionsByStatus_iff.mpr ⟨r, hr, hrelayer, hstatus, rfl⟩
    exact ⟨r.toTransaction, List.mem_append_left _ ((List.mem_insertionSort _).mpr hmem), rfl⟩
  · have hmem := Db.mem_getTransactionsByStatus_iff.mpr ⟨r, hr, hrelayer, hstatus, rfl⟩
    obtain ⟨c, hc, u, hu, hid⟩ := repopulateLoop_holds hnodup h.flat hmem
    obtain ⟨v, hv, hrow⟩ := mem_repopulateLoop (fun _ ht => ht) hc u hu
    have hid' : v.id = r.toTransaction.id := by
      rw [hrow] at hid
      exact hid
    obtain rfl := List.inj_on_of_nodup_map hnodup hv hmem hid'
    refine ⟨u, List.mem_append_right _ (List.mem_flatMap.mpr ⟨c, hc, hu⟩), ?_⟩
    rw [hrow]

/-- What is live in the queue is at the nonce of a live row. -/
theorem liveAt_of_repopulated {db : Db} {relayer : Relayer} {onchainNonce : ℕ} {t : Transaction}
    (ht : t ∈ (repopulatedQueue relayer env db onchainNonce).liveTransactions) :
    db.LiveAt relayer.id t.nonce := by
  rcases List.mem_append.mp ht with ht | ht
  · obtain ⟨r, hr, hrelayer, hstatus, rfl⟩ :=
      Db.mem_getTransactionsByStatus_iff.mp ((List.mem_insertionSort _).mp ht)
    exact ⟨r, hr, hrelayer, .inl hstatus, rfl⟩
  · obtain ⟨c, hc, ht⟩ := List.mem_flatMap.mp ht
    obtain ⟨v, hv, hrow⟩ := mem_repopulateLoop (fun _ ht => ht) hc t ht
    obtain ⟨r, hr, hrelayer, hstatus, rfl⟩ := Db.mem_getTransactionsByStatus_iff.mp hv
    refine ⟨r, hr, hrelayer, .inr hstatus, ?_⟩
    rw [hrow]

/-- Every nonce up to one that a live row holds is consumed or held by a live row. -/
theorem GaplessStart.liveAt_of_le (h : s.GaplessStart env) {m n : ℕ}
    (hm : (s.startup env).db.LiveAt s.relayer.id m) (hle : n ≤ m) :
    n < s.chain.length ∨ (s.startup env).db.LiveAt s.relayer.id n := by
  rcases Nat.lt_or_ge n s.chain.length with hconsumed | hopen
  · exact .inl hconsumed
  · obtain ⟨r, hr, hrelayer, hlive, rfl⟩ := hm
    exact .inr (h.contiguous r hr hrelayer hlive n hle hopen)

theorem sound_startup (h : s.GaplessStart env) : (s.startup env).Sound := by
  intro q hq
  obtain ⟨onchainNonce, hanswer, rfl⟩ := startupTransactionsQueues_queue hq
  obtain ⟨hcaughtUp, hcounted⟩ := h.counted onchainNonce hanswer
  have hbelow : ∀ t ∈ (repopulatedQueue s.relayer env (s.startup env).db
      onchainNonce).liveTransactions, t.nonce < (repopulatedQueue s.relayer env (s.startup env).db
        onchainNonce).nonceManager.nonce := by
    intro t ht
    apply lt_effectiveStartupNonce
    rcases List.mem_append.mp ht with ht | ht
    · exact List.mem_append_left _ ((List.mem_insertionSort _).mp ht)
    · exact List.mem_append_right _ ht
  have hentries : ∀ e ∈ (repopulatedQueue s.relayer env (s.startup env).db
      onchainNonce).book.inmempool, Book.SoundEntry s.chain e := by
    intro e he
    obtain ⟨c, hc, rfl⟩ := List.mem_map.mp he
    obtain ⟨t, ht, hopens⟩ := repopulateLoop_from hc
    exact h.opens ht hopens
  have hnext : s.chain.length ≤ (repopulatedQueue s.relayer env (s.startup env).db
      onchainNonce).nonceManager.nonce := Nat.le_trans hcaughtUp (Nat.le_max_left ..)
  refine ⟨⟨?_, ?_, fun e he => (hentries e he).hashes, fun e he => (hentries e he).order,
    fun e he => (hentries e he).ids, hnext⟩, ?_⟩
  · intro n hn
    have haccounted : n < s.chain.length ∨ (s.startup env).db.LiveAt s.relayer.id n := by
      rcases lt_of_lt_effectiveStartupNonce hn with hlt | ⟨t, ht, hle⟩
      · rcases Nat.lt_or_ge n s.chain.length with hconsumed | hopen
        · exact .inl hconsumed
        · exact .inr (hcounted n hopen hlt)
      · have hlive : t ∈ (repopulatedQueue s.relayer env (s.startup env).db
            onchainNonce).liveTransactions := by
          rcases List.mem_append.mp ht with ht | ht
          · exact List.mem_append_left _ ((List.mem_insertionSort _).mpr ht)
          · exact List.mem_append_right _ ht
        exact h.liveAt_of_le (liveAt_of_repopulated hlive) hle
    rcases haccounted with hconsumed | hheld
    · exact .inl hconsumed
    · exact .inr (exists_holder.mpr (h.held onchainNonce hheld))
  · intro x n hx
    rw [TransactionsQueue.book_live] at hx
    obtain ⟨t, ht, hslot⟩ := List.mem_map.mp hx
    obtain rfl : t.nonce = n := congrArg Prod.snd hslot
    exact hbelow t ht
  · intro b hb
    rcases h.sent b hb with hconsumed | hheld
    · exact Nat.lt_of_lt_of_le hconsumed hnext
    · obtain ⟨t, ht, hnonce⟩ := h.held onchainNonce hheld
      rw [← hnonce]
      exact hbelow t ht

theorem Begins.sound (h : s.Begins) : s.Sound := by
  cases h with
  | created hqueue hsent =>
    intro q hq
    obtain ⟨hpending, hinmempool, hnext⟩ := hqueue q hq
    have hbook : q.book = ⟨q.nonceManager.nonce, [], []⟩ := by
      unfold TransactionsQueue.book
      rw [hpending, hinmempool]
      rfl
    rw [hbook, hnext]
    refine ⟨⟨?_, ?_, ?_, ?_, ?_, Nat.le_refl _⟩, hsent⟩
    · intro n hn
      exact .inl hn
    · intro x n hx
      cases hx
    · intro e he
      cases he
    · intro e he
      cases he
    · intro e he
      cases he
  | started hrows hstarted =>
    rw [hstarted]
    exact sound_startup hrows

end Startup

/-- No nonce is stranded: in a process that begins without a gap and whose steps give up no nonce
that is still to be consumed, each nonce from the chain's up to the next one is held by a live
transaction. -/
theorem held_up_to_next (s : TransactionsQueues) (es : List Event) (hbegins : s.Begins)
    (hown : EventMachine.Along step OwnKey s es)
    (hgives : EventMachine.Along step GivesUpConsumed s es) :
    ∀ q ∈ (s.run es).queue, ∀ n, (s.run es).chain.length ≤ n → n < q.nonceManager.nonce →
      ∃ t ∈ q.liveTransactions, t.nonce = n := by
  have hsound : (s.run es).Sound :=
    EventMachine.Along.invariant (P := Sound)
      (fun s e (hboth : OwnKey s e ∧ GivesUpConsumed s e) hs => sound_step hboth.1 hboth.2 hs)
      (hown.and hgives) hbegins.sound
  intro q hq n hle hlt
  rcases (hsound q hq).1.table n hlt with hconsumed | hholder
  · have hconsumed : n < (s.run es).chain.length := hconsumed
    omega
  · exact exists_holder.mp hholder

/-- The part of `OwnKey` that can be evaluated. -/
def ownKeyCheck (s : TransactionsQueues) (e : Event) : Bool :=
  !e.isRestart &&
    (match e with
      | .included signed => s.broadcasts.any (·.2 == signed)
      | _ => true) &&
    e.clients.all (fun c => match c.getTransactionCount with
      | .ok n => n ≤ s.chain.length
      | .error _ => true) &&
    decide (∀ q ∈ s.queue, ∀ t ∈ q.liveTransactions, ∀ id ∈ e.newId, t.id ≠ id)

theorem ownKey_of_check {s : TransactionsQueues} {e : Event} (h : s.ownKeyCheck e = true)
    (hreceipts : ∀ env, e = .processInmempool env → ∃ included, included ⊆ s.chain.entries ∧
      env.pollReceipt = servedReceipts included) : OwnKey s e := by
  simp only [ownKeyCheck, Bool.and_eq_true, Bool.not_eq_true', decide_eq_true_eq,
    List.all_eq_true] at h
  obtain ⟨⟨⟨hone, hincluded⟩, hcounts⟩, hids⟩ := h
  refine ⟨hone, ?_, ?_, ?_, hids⟩
  · rintro signed rfl
    obtain ⟨b, hb, hsigned⟩ := List.any_eq_true.mp hincluded
    exact ⟨b.1, by rw [← eq_of_beq hsigned]; exact hb⟩
  · intro c hc n hn
    have := hcounts c hc
    rw [hn] at this
    exact .inl (by simpa using this)
  · intro env he hash receipt hreceipt
    obtain ⟨included, hsubset, heq⟩ := hreceipts env he
    rw [heq] at hreceipt
    refine hsubset (Decidable.byContradiction fun hnot => ?_)
    simp [servedReceipts, hnot] at hreceipt

theorem freshRelayer_begins : freshRelayer.Begins := by
  apply Begins.created
  · rintro q ⟨⟩
    exact ⟨rfl, rfl, rfl⟩
  · intro b hb
    cases hb

/-- A payment in the mempool, with a cancel racing it, when the process ends. -/
def stoppedRelayer : TransactionsQueues := freshRelayer.run [
  .add (servedAdd 0) (payment 0 5),
  .processPending (servedPending (.ok ()) (servedClient [] 0) []),
  .cancel (servedCompete 2 (.ok ()) (servedClient [] 0)) 0]

theorem stoppedRelayer_gapless : stoppedRelayer.GaplessStart (servedStartup (servedClient [] 1)) := by
  constructor
  · decide +kernel
  · decide +kernel
  · intro n hn
    have hcount : pendingNonceAcrossClients
        (servedStartup (servedClient [] 1)).startupClients = .ok 1 := by decide +kernel
    obtain rfl := Except.ok.inj (hcount.symm.trans hn)
    refine ⟨by decide +kernel, ?_⟩
    intro m _ hlt
    obtain rfl : m = 0 := by omega
    decide +kernel
  · decide +kernel
  · unfold FlatLinks
    decide +kernel
  · decide +kernel
  · decide +kernel

/-- The process started over these rows admits another payment, and the first one is included. -/
def consumedRun : List Event :=
  [.add (servedAdd 0) (payment 1 6), .included (paymentEnvelope 0 5 1 10)]

theorem held_up_to_next_consumed :
    ∃ q ∈ ((stoppedRelayer.startup (servedStartup (servedClient [] 1))).run consumedRun).queue,
      ∀ n, ((stoppedRelayer.startup (servedStartup (servedClient [] 1))).run
          consumedRun).chain.length ≤ n → n < q.nonceManager.nonce →
        ∃ t ∈ q.liveTransactions, t.nonce = n := by
  have hsome : ((stoppedRelayer.startup (servedStartup (servedClient [] 1))).run
      consumedRun).queue.isSome = true := by decide +kernel
  obtain ⟨q, hq⟩ := Option.isSome_iff_exists.mp hsome
  refine ⟨q, hq, held_up_to_next _ consumedRun (.started stoppedRelayer_gapless rfl) ?_
    (by decide +kernel) q hq⟩
  refine ⟨?_, ?_, trivial⟩
  · exact ownKey_of_check (by decide +kernel) (fun _ h => nomatch h)
  · exact ownKey_of_check (by decide +kernel) (fun _ h => nomatch h)

/-- The first payment is included between the receipt lookup and the bump of one pass: it gets a
new nonce but keeps the included hash, and the next pass takes it off the queue. -/
def strandingRun : List Event :=
  [.add (servedAdd 0) (payment 0 5), .processPending (servedPending (.ok ()) (servedClient [] 0) []),
    .included (paymentEnvelope 0 5 1 10),
    .processInmempool (servedInmempool [] nonceTooLow (servedClient [] 1) []),
    .processInmempool (servedInmempool [paymentEnvelope 0 5 1 10] nonceTooLow (servedClient [] 1) [])]

theorem held_up_to_next_stranded :
    ¬ ∀ es, EventMachine.Along step OwnKey freshRelayer es → freshRelayer.Begins →
      ∀ q ∈ (freshRelayer.run es).queue, ∀ n, (freshRelayer.run es).chain.length ≤ n →
        n < q.nonceManager.nonce → ∃ t ∈ q.liveTransactions, t.nonce = n := by
  intro hheld
  have hown : EventMachine.Along step OwnKey freshRelayer strandingRun := by
    refine ⟨?_, ?_, ?_, ?_, ?_, trivial⟩
    · exact ownKey_of_check (by decide +kernel) (fun _ h => nomatch h)
    · exact ownKey_of_check (by decide +kernel) (fun _ h => nomatch h)
    · exact ownKey_of_check (by decide +kernel) (fun _ h => nomatch h)
    · apply ownKey_of_check (by decide +kernel)
      rintro env ⟨⟩
      exact ⟨[], by simp, rfl⟩
    · apply ownKey_of_check (by decide +kernel)
      rintro env ⟨⟩
      exact ⟨[paymentEnvelope 0 5 1 10], by decide +kernel, rfl⟩
  have hfinal : ∃ q ∈ (freshRelayer.run strandingRun).queue,
      (freshRelayer.run strandingRun).chain.length ≤ 1 ∧ 1 < q.nonceManager.nonce ∧
        q.liveTransactions = [] := by decide +kernel
  obtain ⟨q, hq, hle, hlt, hlive⟩ := hfinal
  obtain ⟨t, ht, -⟩ := hheld strandingRun hown freshRelayer_begins q hq 1 hle hlt
  rw [hlive] at ht
  cases ht

end TransactionsQueues
end Rrelayer
