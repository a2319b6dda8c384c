import Rrelayer.MirroredRows

/-! Which operations keep rows and entries in mirror. -/
namespace Rrelayer

/-- What a preparation keeps: the link, the sender, and a no-op as it is. -/
structure Transaction.SameLink (t t' : Transaction) : Prop where
  link : t'.cancelledByTransactionId = t.cancelledByTransactionId
  fromAddress : t'.fromAddress = t.fromAddress
  noop : t.isNoop = true → t'.isNoop = true ∧ t'.toAddress = t.toAddress

/-- Both carry the same payload. -/
structure Transaction.SamePayload (t t' : Transaction) : Prop where
  toAddress : t'.toAddress = t.toAddress
  fromAddress : t'.fromAddress = t.fromAddress
  value : t'.value = t.value
  data : t'.data = t.data
  isNoop : t'.isNoop = t.isNoop

theorem Transaction.SameLink.refl (t : Transaction) : t.SameLink t := ⟨rfl, rfl, fun h => ⟨h, rfl⟩⟩

theorem Transaction.SameLink.trans {t t' t'' : Transaction} (h : t.SameLink t')
    (h' : t'.SameLink t'') : t.SameLink t'' := by
  refine ⟨h'.link.trans h.link, h'.fromAddress.trans h.fromAddress, ?_⟩
  intro hnoop
  obtain ⟨hnoop', hto⟩ := h.noop hnoop
  obtain ⟨hnoop'', hto'⟩ := h'.noop hnoop'
  exact ⟨hnoop'', hto'.trans hto⟩

theorem expireToNoop_sameLink (config : SendConfig) (w : Bool) (g : GasPriceResult) (now : DateTime)
    (p : Prepared) : p.transaction.SameLink (expireToNoop config w g now p).transaction := by
  unfold expireToNoop
  dsimp only
  split
  · rename_i hdue
    refine ⟨rfl, rfl, ?_⟩
    intro hnoop
    rw [hnoop] at hdue
    simp at hdue
  · exact .refl _

theorem prepareSend_sameLink (config : SendConfig) (env : SendEnv) (t : Transaction) :
    t.SameLink (prepareSend config env t).1 := by
  unfold prepareSend
  split
  · exact .refl t
  · rename_i gasPrice working gasLimit hprice
    have hlimited : t.SameLink { t with gasLimit := some gasLimit } := ⟨rfl, rfl, fun h => ⟨h, rfl⟩⟩
    dsimp only
    split
    · exact hlimited
    · rename_i request blobGas hbuild
      have hfirst := expireToNoop_sameLink config t.sentWithGas.isSome gasPrice
        env.nowBeforeSigning ⟨{ t with gasLimit := some gasLimit }, request, blobGas⟩
      generalize expireToNoop config t.sentWithGas.isSome gasPrice env.nowBeforeSigning
        ⟨{ t with gasLimit := some gasLimit }, request, blobGas⟩ = first at hfirst ⊢
      have hlast := expireToNoop_sameLink config t.sentWithGas.isSome gasPrice
        env.nowAfterSigning first
      generalize expireToNoop config t.sentWithGas.isSome gasPrice env.nowAfterSigning first = last
        at hlast ⊢
      split
      · exact hlimited.trans hfirst
      · split
        · exact (hlimited.trans hfirst).trans hlast
        · exact (hlimited.trans hfirst).trans hlast

section Statements

variable {db db' : Db} {x : TransactionId} {P : Row → Prop} {relayerId : RelayerId}

theorem Db.rewrites_log {y : TransactionId} {f : Row → Row} (h : Rewrites x P db db') :
    Rewrites x P db (db'.log y f) := ⟨h.others, h.own, h.kept⟩

/-- An attempt writes the row of its transaction, or inserts it. -/
theorem Db.rewrites_attempt {t : Transaction} {hash : TransactionHash} {gas : GasPriceResult}
    {blobGas : Option BlobGasPriceResult} {legacy : Bool} {now : DateTime}
    (h : db.transactionBroadcastAttempt relayerId t hash gas blobGas legacy now = some db')
    (hP : ∀ r : Row, r.id = t.id → P (r.withAttempt relayerId t hash gas blobGas legacy now)) :
    Rewrites t.id P db db' ∧ ∃ r ∈ db'.rows, r.id = t.id := by
  unfold transactionBroadcastAttempt at h
  dsimp only at h
  split at h
  · rename_i r hr
    cases h
    have hrewrites : Rewrites t.id P db ((db.update t.id fun r => r.withAttempt relayerId t hash gas
        blobGas legacy now).log t.id fun r => { r with requestDigest := none }) :=
      Rewrites.update (by intro; rfl) fun r _ hid => hP r hid
    exact ⟨hrewrites, hrewrites.kept ⟨r, mem_of_row hr, row_id hr⟩⟩
  · obtain ⟨db₁, hinsert, rfl⟩ := Option.map_eq_some_iff.mp h
    refine ⟨rewrites_log (Rewrites.insert hinsert rfl (hP _ rfl)), ?_⟩
    unfold Db.insert at hinsert
    split at hinsert
    · cases hinsert
    · cases hinsert
      exact ⟨_, List.mem_append_right _ (List.mem_singleton_self _), rfl⟩

end Statements

theorem Db.Within.mem_rows {db db' : Db} {P : TransactionId → ℕ → Prop} (h : db.Within P db') {r : Row}
    (hr : ∀ n, ¬ P r.id n) : r ∈ db'.rows ↔ r ∈ db.rows := by
  have hframe := h.rowsFrame r.id hr
  have hmem (db : Db) : r ∈ db.rows ↔ r ∈ db.rows.filter (·.id == r.id) := by
    simp
  rw [hmem db', hmem db, hframe]

/-- The link that the original's row gets, in the mempool as the row is. -/
theorem Db.rewrites_link (db : Db) (x : TransactionId) (now : DateTime) {original : Transaction}
    {relayerId : RelayerId} (hrelayer : original.relayerId = relayerId)
    (hstatus : original.status = .inmempool) :
    db.Rewrites original.id (Row.InMempool relayerId (some x))
      (db.transactionUpdate { original with cancelledByTransactionId := some x } now) :=
  Db.Rewrites.update (by intro; rfl) fun _ _ _ => ⟨hrelayer, hstatus, rfl⟩

/-- The rows of a race once its original is linked to a competitor shown in the mempool. -/
theorem Mirrored.linked {db db' : Db} {relayerId : RelayerId} {now : DateTime}
    {front : CompetitiveTransaction} {tracked : Transaction} {type : CompetitionType}
    (hfirst : Mirrored db relayerId front) (hstatus : front.original.status = .inmempool)
    (hkept : ∃ r ∈ db'.rows, r.id = front.original.id) (hne : tracked.id ≠ front.original.id)
    (hrow : db'.Member tracked.id fun r =>
      (r.Plain relayerId ∧ type.Marks r.toTransaction) ∧ r.status = .inmempool)
    (hlink : tracked.cancelledByTransactionId = none) (howner : tracked.relayerId = relayerId)
    (hmarks : type.Marks tracked) :
    Mirrored (db'.transactionUpdate
        { front.original with cancelledByTransactionId := some tracked.id } now)
      relayerId (front.addCompetitor tracked type) := by
  have hlinked := db'.rewrites_link tracked.id now hfirst.originalRelayer hstatus
  refine ⟨hlinked.member hkept, rfl, hfirst.originalRelayer, ?_⟩
  rintro p ⟨⟩
  refine ⟨?_, hlink, howner, hmarks⟩
  obtain ⟨hexists, hall⟩ := hrow.of_rewrites hlinked hne
  refine ⟨hexists, ?_⟩
  intro r hr hrid
  obtain ⟨⟨hplain, hmarked⟩, hshown⟩ := hall r hr hrid
  exact ⟨⟨hplain.relayerId, hshown, hplain.link⟩, hmarked⟩

namespace Locked

/-- A pending copy and its row, neither of them linked. -/
structure Waits (db : Db) (relayerId : RelayerId) (t : Transaction) : Prop where
  link : t.cancelledByTransactionId = none
  owner : t.relayerId = relayerId
  row : db.Member t.id (Row.Plain relayerId)

/-- Memory and rows say the same of every transaction that is pending or in the mempool. -/
structure Mirrors (l : Locked) : Prop where
  nodup : l.queue.entryIds.Nodup
  entries : ∀ c ∈ l.queue.inmempoolTransactions, Mirrored l.db l.queue.relayer.id c
  pending : ∀ t ∈ l.queue.pendingTransactions, Waits l.db l.queue.relayer.id t
  unlinked : ∀ r ∈ l.db.rows, r.status = .pending → r.cancelledByTransactionId = none
  apart : ∀ t ∈ l.queue.pendingTransactions, t.id ∉ l.queue.entryIds
  mined : ∀ t ∈ l.queue.minedTransactions, t.id ∉ l.queue.entryIds ∧
    ∀ p ∈ l.queue.pendingTransactions, p.id ≠ t.id

variable {l l' : Locked} {x : TransactionId} {P : Row → Prop}

theorem member_of_frame {db db' : Db} {touched : TransactionId → Prop}
    (hrows : ∀ r, ¬ touched r.id → (r ∈ db'.rows ↔ r ∈ db.rows)) (hx : ¬ touched x)
    (h : db.Member x P) : db'.Member x P := by
  obtain ⟨⟨r, hr, hid⟩, hall⟩ := h
  refine ⟨⟨r, (hrows r (hid ▸ hx)).mpr hr, hid⟩, ?_⟩
  intro r' hr' hid'
  exact hall r' ((hrows r' (hid' ▸ hx)).mp hr') hid'

theorem mirrored_of_frame {db db' : Db} {relayerId : RelayerId} {c : CompetitiveTransaction}
    {touched : TransactionId → Prop} (hrows : ∀ r, ¬ touched r.id → (r ∈ db'.rows ↔ r ∈ db.rows))
    (hc : ∀ x ∈ c.ids, ¬ touched x) (h : Mirrored db relayerId c) : Mirrored db' relayerId c := by
  refine ⟨member_of_frame hrows (hc _ (original_mem_ids c)) h.original, h.originalLink,
    h.originalRelayer, ?_⟩
  intro p hp
  obtain ⟨hrow, hcopy⟩ := h.competitor p hp
  exact ⟨member_of_frame hrows (hc _ (competitor_mem_ids hp)) hrow, hcopy⟩

/-- An operation keeps the mirror when it does so for the transactions it touches. -/
theorem Mirrors.of_frame (h : l.Mirrors) (touched : TransactionId → Prop)
    (hrelayer : l'.queue.relayer.id = l.queue.relayer.id)
    (hrows : ∀ r, ¬ touched r.id → (r ∈ l'.db.rows ↔ r ∈ l.db.rows))
    (hnodup : l'.queue.entryIds.Nodup)
    (hentries : ∀ c ∈ l'.queue.inmempoolTransactions,
      (c ∈ l.queue.inmempoolTransactions ∧ ∀ x ∈ c.ids, ¬ touched x) ∨
        Mirrored l'.db l.queue.relayer.id c)
    (hpending : ∀ t ∈ l'.queue.pendingTransactions,
      (t ∈ l.queue.pendingTransactions ∧ ¬ touched t.id) ∨ Waits l'.db l.queue.relayer.id t)
    (hunlinked : ∀ r ∈ l'.db.rows, touched r.id → r.status = .pending →
      r.cancelledByTransactionId = none)
    (hapart : ∀ t ∈ l'.queue.pendingTransactions, t.id ∉ l'.queue.entryIds)
    (hmined : ∀ t ∈ l'.queue.minedTransactions, t.id ∉ l'.queue.entryIds ∧
      ∀ p ∈ l'.queue.pendingTransactions, p.id ≠ t.id) : l'.Mirrors := by
  constructor
  · exact hnodup
  · intro c hc
    rw [hrelayer]
    rcases hentries c hc with ⟨hold, hapart⟩ | hnew
    · exact mirrored_of_frame hrows hapart (h.entries c hold)
    · exact hnew
  · intro t ht
    rw [hrelayer]
    rcases hpending t ht with ⟨hold, hapart⟩ | hnew
    · obtain ⟨hlink, howner, hrow⟩ := h.pending t hold
      exact ⟨hlink, howner, member_of_frame hrows hapart hrow⟩
    · exact hnew
  · intro r hr hstatus
    by_cases hin : touched r.id
    · exact hunlinked r hr hin hstatus
    · exact h.unlinked r ((hrows r hin).mp hr) hstatus
  · exact hapart
  · exact hmined

/-- An operation on one transaction that is not in the mempool, before or after. -/
theorem Mirrors.of_plain (h : l.Mirrors) (hx : x ∉ l.queue.entryIds)
    (hfree : ∀ t ∈ l.queue.minedTransactions, t.id ≠ x)
    (hrelayer : l'.queue.relayer = l.queue.relayer)
    (hentries : l'.queue.inmempoolTransactions = l.queue.inmempoolTransactions)
    (hmined : l'.queue.minedTransactions = l.queue.minedTransactions)
    (hdb : l.db.Rewrites x (Row.Plain l.queue.relayer.id) l'.db)
    (hpending : ∀ t ∈ l'.queue.pendingTransactions,
      (t ∈ l.queue.pendingTransactions ∧ t.id ≠ x) ∨
        t.id = x ∧ t.cancelledByTransactionId = none ∧ t.relayerId = l.queue.relayer.id ∧
          ∃ r ∈ l'.db.rows, r.id = x) : l'.Mirrors := by
  have hids : l'.queue.entryIds = l.queue.entryIds := by
    unfold TransactionsQueue.entryIds
    rw [hentries]
  refine h.of_frame (fun y => y = x) (congrArg Relayer.id hrelayer) hdb.others ?_ ?_ ?_ ?_ ?_ ?_
  · rw [hids]
    exact h.nodup
  · intro c hc
    rw [hentries] at hc
    refine .inl ⟨hc, ?_⟩
    rintro y hy rfl
    exact hx (List.mem_flatMap.mpr ⟨c, hc, hy⟩)
  · intro t ht
    rcases hpending t ht with hold | ⟨hid, hlink, howner, hrow⟩
    · exact .inl hold
    · refine .inr ⟨hlink, howner, ?_⟩
      rw [hid]
      exact ⟨hrow, hdb.own⟩
  · intro r hr hid _
    exact (hdb.own r hr hid).link
  · intro t ht
    rw [hids]
    rcases hpending t ht with ⟨hold, -⟩ | ⟨hid, -⟩
    · exact h.apart t hold
    · rw [hid]
      exact hx
  · intro t ht
    rw [hmined] at ht
    rw [hids]
    obtain ⟨hout, hother⟩ := h.mined t ht
    refine ⟨hout, ?_⟩
    intro p hp
    rcases hpending p hp with ⟨hold, -⟩ | ⟨hid, -⟩
    · exact hother p hold
    · rw [hid]
      exact (hfree t ht).symm

section Send

variable {env : SendEnv} {t t' : Transaction} {result : SendResult TransactionSentWithRelayer}

theorem send_sameLink (h : l.send env t = (t', l', result)) :
    t.SameLink t' ∧ t'.relayerId = t.relayerId := by
  have hlink := prepareSend_sameLink l.queue.toSendConfig env t
  have hslot := (prepareSend_spec l.queue.toSendConfig env t).1
  have hends := l.send_ends env t
  rw [h] at hends
  cases hends with
  | unprepared hp | unrecorded hp =>
    rw [hp] at hlink hslot
    exact ⟨hlink, hslot.relayerId⟩
  | refused hp | unmarked hp | marked hp =>
    rw [hp] at hlink hslot
    exact ⟨⟨hlink.link, hlink.fromAddress, hlink.noop⟩, hslot.relayerId⟩

/-- A send rewrites its transaction's row only, and a send that succeeds shows it in the mempool. -/
theorem send_rewrites (h : l.send env t = (t', l', result))
    (hold : ∀ r ∈ l.db.rows, r.id = t.id → P r)
    (hattempt : ∀ (r : Row) (u : Transaction) (hash : TransactionHash) (gas : GasPriceResult)
      (blobGas : Option BlobGasPriceResult) (legacy : Bool) (now : DateTime),
      (prepareSend l.queue.toSendConfig env t).1 = u →
        P (r.withAttempt l.queue.relayer.id u hash gas blobGas legacy now))
    (hsent : ∀ (r : Row) (hash : TransactionHash) (gas : GasPriceResult)
      (blobGas : Option BlobGasPriceResult) (legacy : Bool) (now : DateTime), P r →
        P (({ r with status := .inmempool, sentAt := some now } : Row).withGas hash gas blobGas
          legacy)) :
    l.db.Rewrites t.id P l'.db ∧ ∀ sent, result = .ok sent →
      l'.db.Member t.id fun r => P r ∧ r.status = .inmempool := by
  have hprepare := prepareSend_spec l.queue.toSendConfig env t
  have hattempted {t₀ : Transaction} {signed : SignedTransaction}
      {sent : TransactionSentWithRelayer} {db : Db}
      (hp : prepareSend l.queue.toSendConfig env t = (t₀, .ok (signed, sent)))
      (hrecorded : l.db.transactionBroadcastAttempt l.queue.toSendConfig.relayer.id t₀ sent.hash
        sent.sentWithGas sent.sentWithBlobGas l.queue.toSendConfig.isLegacyTransactions
        env.nowSent = some db) : l.db.Rewrites t.id P db ∧ ∃ r ∈ db.rows, r.id = t.id := by
    rw [hp] at hprepare hattempt
    obtain ⟨hwritten, hexists⟩ := Db.rewrites_attempt (P := P) hrecorded
      fun r _ => hattempt r t₀ _ _ _ _ _ rfl
    have hid : t₀.id = t.id := hprepare.1.id
    rw [hid] at hwritten hexists
    exact ⟨hwritten, hexists⟩
  have hends := l.send_ends env t
  rw [h] at hends
  cases hends with
  | unprepared | unrecorded => exact ⟨.refl hold, fun _ h => nomatch h⟩
  | refused hp hrecorded | unmarked hp hrecorded =>
    exact ⟨(hattempted hp hrecorded).1, fun _ h => nomatch h⟩
  | @marked t₀ signed sent db hp hrecorded =>
    obtain ⟨hwritten, hexists⟩ := hattempted hp hrecorded
    rw [hp] at hprepare
    have hsentId : sent.id = t.id := (hprepare.2 signed sent rfl).id
    have hmarked : db.Rewrites t.id (fun r => P r ∧ r.status = .inmempool)
        (db.transactionSent sent.id sent.hash sent.sentWithGas sent.sentWithBlobGas
          l.queue.toSendConfig.isLegacyTransactions env.nowSent) := by
      rw [hsentId]
      exact Db.Rewrites.update (by intro; rfl)
        fun r hr hrid => ⟨hsent r _ _ _ _ _ (hwritten.own r hr hrid), rfl⟩
    refine ⟨(hwritten.trans hmarked).mono fun r h => h.1, ?_⟩
    intro _ _
    exact hmarked.member hexists

end Send

section Pending

variable {env : PendingEnv} {t head : Transaction} {rest : List Transaction}

/-- What an operation on the pending head knows of the working copy. -/
structure HeadCopy (l : Locked) (head : Transaction) (rest : List Transaction) (t : Transaction) :
    Prop where
  front : l.queue.pendingTransactions = head :: rest
  nodup : (l.queue.pendingTransactions.map (·.id)).Nodup
  id : t.id = head.id
  link : t.cancelledByTransactionId = none
  owner : t.relayerId = l.queue.relayer.id

theorem HeadCopy.rest_ne (h : l.HeadCopy head rest t) : ∀ u ∈ rest, u.id ≠ t.id := by
  intro u hu hid
  have hnodup := h.nodup
  rw [h.front, List.map_cons, List.nodup_cons] at hnodup
  apply hnodup.1
  rw [← h.id, ← hid]
  exact List.mem_map_of_mem hu

theorem HeadCopy.outside (h : l.HeadCopy head rest t) (hl : l.Mirrors) :
    t.id ∉ l.queue.entryIds ∧ (∀ u ∈ l.queue.minedTransactions, u.id ≠ t.id) ∧
      l.db.Member t.id (Row.Plain l.queue.relayer.id) := by
  have hmem : head ∈ l.queue.pendingTransactions := by
    rw [h.front]
    exact List.mem_cons_self ..
  rw [h.id]
  exact ⟨hl.apart head hmem, fun u hu hid => (hl.mined u hu).2 head hmem hid.symm,
    (hl.pending head hmem).row⟩

/-- The head's rows change, its place among the pending ones stays or is rewritten. -/
theorem Mirrors.rewritten (hl : l.Mirrors) (h : l.HeadCopy head rest t)
    (hrelayer : l'.queue.relayer = l.queue.relayer)
    (hentries : l'.queue.inmempoolTransactions = l.queue.inmempoolTransactions)
    (hmined : l'.queue.minedTransactions = l.queue.minedTransactions)
    (hdb : l.db.Rewrites t.id (Row.Plain l.queue.relayer.id) l'.db)
    (hpending : ∀ u ∈ l'.queue.pendingTransactions, u ∈ rest ∨
      u.id = t.id ∧ u.cancelledByTransactionId = none ∧ u.relayerId = l.queue.relayer.id) :
    l'.Mirrors := by
  obtain ⟨hout, hfree, hrow⟩ := h.outside hl
  apply hl.of_plain hout hfree hrelayer hentries hmined hdb
  intro u hu
  rcases hpending u hu with hin | ⟨hid, hlink, howner⟩
  · left
    refine ⟨?_, h.rest_ne u hin⟩
    rw [h.front]
    exact List.mem_cons_of_mem _ hin
  · exact .inr ⟨hid, hlink, howner, hdb.kept hrow.1⟩

/-- A change of the database alone. -/
theorem Mirrors.of_db (hl : l.Mirrors) (h : l.HeadCopy head rest t) {db : Db}
    (hdb : l.db.Rewrites t.id (Row.Plain l.queue.relayer.id) db) :
    ({ l with db := db } : Locked).Mirrors := by
  refine hl.rewritten h ?_ ?_ ?_ hdb ?_
  · rfl
  · rfl
  · rfl
  intro u hu
  have hu : u ∈ l.queue.pendingTransactions := hu
  rw [h.front] at hu
  rcases List.mem_cons.mp hu with rfl | hu
  · have howned := hl.pending u (by rw [h.front]; exact List.mem_cons_self ..)
    exact .inr ⟨h.id.symm, howned.link, howned.owner⟩
  · exact .inl hu

/-- The head that is moved opens an entry; its row is in the mempool. -/
theorem moveSent_mirrors {sent : TransactionSentWithRelayer}
    {result : ProcessResult ProcessPendingStatus} (hl : l.Mirrors) (h : l.HeadCopy head rest t)
    (hsent : sent.id = t.id)
    (hrow : l.db.Member t.id fun r => r.Plain l.queue.relayer.id ∧ r.status = .inmempool) :
    (l.moveSent env t sent result).1.Mirrors := by
  obtain ⟨hout, hfree, -⟩ := h.outside hl
  have hmove : l.queue.movePendingToInmempool t sent env.nowMoved = .ok { l.queue with
      pendingTransactions := rest
      inmempoolTransactions := l.queue.inmempoolTransactions ++
        [.new (TransactionsQueue.sentTransaction t sent env.nowMoved)] } := by
    unfold TransactionsQueue.movePendingToInmempool
    rw [h.front]
    simp [h.id, hsent]
  unfold moveSent
  rw [hmove]
  dsimp only
  have hids : TransactionsQueue.entryIds { l.queue with
      pendingTransactions := rest
      inmempoolTransactions := l.queue.inmempoolTransactions ++
        [.new (TransactionsQueue.sentTransaction t sent env.nowMoved)] } =
      l.queue.entryIds ++ [t.id] := by
    unfold TransactionsQueue.entryIds
    rw [List.flatMap_append]
    rfl
  refine hl.of_frame (fun y => y = t.id) ?_ ?_ ?_ ?_ ?_ ?_ ?_ ?_
  · rfl
  · exact fun _ _ => Iff.rfl
  · rw [hids]
    apply List.nodup_append.mpr
    refine ⟨hl.nodup, List.nodup_singleton _, ?_⟩
    intro y hy z hz hsame
    rw [List.mem_singleton.mp hz] at hsame
    exact hout (hsame ▸ hy)
  · intro c hc
    rcases List.mem_append.mp hc with hc | hc
    · refine .inl ⟨hc, ?_⟩
      rintro y hy rfl
      exact hout (List.mem_flatMap.mpr ⟨c, hc, hy⟩)
    · right
      rw [List.mem_singleton.mp hc]
      refine ⟨?_, h.link, h.owner, ?_⟩
      · refine ⟨hrow.1, ?_⟩
        intro r hr hid
        obtain ⟨hplain, hstatus⟩ := hrow.2 r hr hid
        exact ⟨hplain.relayerId, hstatus, hplain.link⟩
      · intro p hp
        cases hp
  · intro u hu
    left
    refine ⟨?_, h.rest_ne u hu⟩
    rw [h.front]
    exact List.mem_cons_of_mem _ hu
  · intro r hr _ hstatus
    exact hl.unlinked r hr hstatus
  · intro u hu
    rw [hids]
    intro hmem
    rcases List.mem_append.mp hmem with hmem | hmem
    · exact hl.apart u (by rw [h.front]; exact List.mem_cons_of_mem _ hu) hmem
    · exact h.rest_ne u hu (List.mem_singleton.mp hmem)
  · intro u hu
    rw [hids]
    obtain ⟨huout, huother⟩ := hl.mined u hu
    constructor
    · intro hmem
      rcases List.mem_append.mp hmem with hmem | hmem
      · exact huout hmem
      · exact hfree u hu (List.mem_singleton.mp hmem)
    · intro p hp
      exact huother p (by rw [h.front]; exact List.mem_cons_of_mem _ hp)

theorem mem_updateFirst_head {f : Transaction → Transaction} {u : Transaction}
    (h : l.HeadCopy head rest t) {y : TransactionId} (hy : y = t.id)
    (hu : u ∈ updateFirst (·.id == y) f l.queue.pendingTransactions) : u ∈ rest ∨ u = f head := by
  rw [h.front, updateFirst_cons_pos (by simp [hy, h.id])] at hu
  exact (List.mem_cons.mp hu).symm

theorem mem_renumbered {q : TransactionsQueue} {u : Transaction} {m : ℕ}
    (hfront : q.pendingTransactions = head :: rest)
    (hu : u ∈ (q.updatePendingTransactionNonce head.id m).pendingTransactions) :
    u ∈ rest ∨ u = { head with nonce := m } := by
  have hany : q.pendingTransactions.any (·.id == head.id) = true := by
    rw [hfront]
    simp
  unfold TransactionsQueue.updatePendingTransactionNonce at hu
  rw [if_pos hany] at hu
  have hu := (List.mem_insertionSort fun a b : Transaction => a.nonce ≤ b.nonce).mp hu
  rw [hfront, updateFirst_cons_pos (by simp)] at hu
  exact (List.mem_cons.mp hu).symm

/-- An adopted attempt moves the head with its row. -/
theorem adopted_mirrors {attempt : RecordedTransactionAttempt} {gas : GasPriceResult}
    {result : ProcessResult ProcessPendingStatus} {db : Db} (hl : l.Mirrors)
    (h : l.HeadCopy head rest t)
    (hdb : l.db.Rewrites t.id (fun r => r.Plain l.queue.relayer.id ∧ r.status = .inmempool) db) :
    (({ l with db := db } : Locked).moveSent env t (attemptSent t attempt gas) result).1.Mirrors := by
  obtain ⟨-, -, hrow⟩ := h.outside hl
  have hmirrors := hl.of_db h (hdb.mono fun _ h => h.1)
  have hcopy : ({ l with db := db } : Locked).HeadCopy head rest t :=
    ⟨h.front, h.nodup, h.id, h.link, h.owner⟩
  exact moveSent_mirrors hmirrors hcopy rfl (hdb.member hrow.1)

theorem pendingFailed_mirrors {error : TransactionQueueSendTransactionError} (hl : l.Mirrors)
    (h : l.HeadCopy head rest t) : (l.pendingFailed env t error).1.Mirrors := by
  obtain ⟨-, -, hrow⟩ := h.outside hl
  have howned := hl.pending head (by rw [h.front]; exact List.mem_cons_self ..)
  have hkeeps {r r' : Row} (hr : r ∈ l.db.rows) (hid : r.id = t.id)
      (howner : r'.relayerId = r.relayerId)
      (hlink : r'.cancelledByTransactionId = r.cancelledByTransactionId) :
      r'.Plain l.queue.relayer.id :=
    ⟨howner.trans (hrow.2 r hr hid).relayerId, hlink.trans (hrow.2 r hr hid).link⟩
  have hleaves := l.pendingFailed_leaves env t error
  generalize (l.pendingFailed env t error).1 = l' at hleaves ⊢
  cases hleaves with
  | kept => exact hl
  | closedOut reason =>
    refine hl.rewritten h ?_ ?_ ?_ ?_ ?_
    · rfl
    · rfl
    · rfl
    · exact Db.Rewrites.update (by intro; rfl) fun r _ _ => ⟨h.owner, h.link⟩
    · intro u hu
      rcases mem_updateFirst_head h rfl hu with hin | rfl
      · exact .inl hin
      · exact .inr ⟨rfl, h.link, h.owner⟩
  | reassigned newNonce =>
    refine hl.rewritten h ?_ ?_ ?_ ?_ ?_
    · exact TransactionsQueue.updatePendingTransactionNonce_relayer
    · exact TransactionsQueue.updatePendingTransactionNonce_inmempoolTransactions
    · exact TransactionsQueue.updatePendingTransactionNonce_minedTransactions
    · exact Db.Rewrites.update (by intro; rfl) fun r hr hid => hkeeps hr hid rfl rfl
    · intro u hu
      dsimp only at hu
      rw [h.id] at hu
      have hfront : (l.advanceTransactionNonce head.id newNonce).queue.pendingTransactions =
          head :: rest := h.front
      rcases mem_renumbered hfront hu with hin | rfl
      · exact .inl hin
      · exact .inr ⟨h.id.symm, howned.link, howned.owner⟩
  | mined =>
    apply adopted_mirrors hl h
    exact Db.Rewrites.update (by intro; rfl) fun r hr hid => ⟨hkeeps hr hid rfl rfl, rfl⟩
  | recovered _ _ hserved =>
    have hdb := Db.recoverLanded_true hserved
    apply adopted_mirrors hl h
    rw [hdb]
    exact Db.Rewrites.update (by intro; rfl) fun r hr hid => ⟨hkeeps hr hid rfl rfl, rfl⟩

theorem processSinglePending_mirrors (l : Locked) (env : PendingEnv) (hl : l.Mirrors)
    (hnodup : (l.queue.pendingTransactions.map (·.id)).Nodup) :
    (l.processSinglePending env).1.Mirrors := by
  unfold processSinglePending
  split
  · exact hl
  · split
    · exact hl
    · rename_i head hnext
      obtain ⟨rest, hhead⟩ := TransactionsQueue.getNextPending_some hnext
      have howned := hl.pending head (by rw [hhead]; exact List.mem_cons_self ..)
      have hslot := pendingCopy_sameSlot l env head
      have hlink : (l.pendingCopy env head).cancelledByTransactionId = none := by
        unfold pendingCopy
        split
        · exact howned.link
        · exact howned.link
      have hcopy : l.HeadCopy head rest (l.pendingCopy env head) :=
        ⟨hhead, hnodup, hslot.id, hlink, hslot.relayerId.trans howned.owner⟩
      split
      · exact hl
      · rcases hsend : l.send env.send (l.pendingCopy env head) with ⟨t', l₁, result⟩
        have hspec := send_spec l env.send (l.pendingCopy env head)
        rw [hsend] at hspec
        have hqueue : l₁.queue = l.queue := hspec.queue
        have hid : t'.id = (l.pendingCopy env head).id := hspec.id
        obtain ⟨hsame, howner⟩ := send_sameLink hsend
        have hprepared := prepareSend_sameLink l.queue.toSendConfig env.send (l.pendingCopy env head)
        obtain ⟨hdb, hok⟩ := send_rewrites (P := Row.Plain l.queue.relayer.id) hsend
          (hcopy.outside hl).2.2.2
          (by
            rintro r u hash gas blobGas legacy now rfl
            exact ⟨rfl, hprepared.link.trans hlink⟩)
          (fun r _ _ _ _ _ h => ⟨h.relayerId, h.link⟩)
        have hpending : l₁.queue.pendingTransactions = head :: rest := by
          rw [hqueue]
          exact hhead
        have hmirrors : l₁.Mirrors := by
          refine hl.rewritten hcopy (congrArg (·.relayer) hqueue)
            (congrArg (·.inmempoolTransactions) hqueue) (congrArg (·.minedTransactions) hqueue)
            hdb ?_
          intro u hu
          rw [hpending] at hu
          rcases List.mem_cons.mp hu with rfl | hu
          · exact .inr ⟨hslot.id.symm, howned.link, howned.owner⟩
          · exact .inl hu
        have hcopy' : l₁.HeadCopy head rest t' := by
          constructor
          · exact hpending
          · rw [hqueue]
            exact hnodup
          · exact hid.trans hslot.id
          · exact hsame.link.trans hlink
          · rw [hqueue]
            exact howner.trans hcopy.owner
        cases result with
        | ok sent =>
          have hsentId : sent.id = t'.id := (hspec.ok sent rfl).1.trans hid.symm
          have hrow := hok sent rfl
          rw [← hid] at hrow
          rw [← hqueue] at hrow
          exact moveSent_mirrors hmirrors hcopy' hsentId hrow
        | error e => exact pendingFailed_mirrors hmirrors hcopy'

end Pending

end Locked

end Rrelayer
