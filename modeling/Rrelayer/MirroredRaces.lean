import Rrelayer.MirroredEntries

/-! The races of the mempool: passes over its front, competitors, admissions and confirmations keep
rows and entries in mirror. -/
namespace Rrelayer

namespace Locked

variable {l l' : Locked}

section Inmempool

variable {env : InmempoolEnv} {front front' : CompetitiveTransaction}
  {rest : List CompetitiveTransaction} {f : Transaction → Transaction}

theorem front_apart (hl : l.Mirrors) (hfront : l.queue.inmempoolTransactions = front :: rest) :
    front.ids.Nodup ∧ (rest.flatMap (·.ids)).Nodup ∧ ∀ x ∈ front.ids, x ∉ rest.flatMap (·.ids) := by
  have hnodup := hl.nodup
  unfold TransactionsQueue.entryIds at hnodup
  rw [hfront, List.flatMap_cons] at hnodup
  obtain ⟨hfirst, hlast, hdisjoint⟩ := List.nodup_append.mp hnodup
  exact ⟨hfirst, hlast, fun x hx hmem => hdisjoint x hx x hmem rfl⟩

theorem mem_front_ids (hfront : l.queue.inmempoolTransactions = front :: rest) {y : TransactionId}
    (hy : y ∈ front.ids) : y ∈ l.queue.entryIds := by
  unfold TransactionsQueue.entryIds
  rw [hfront, List.flatMap_cons]
  exact List.mem_append_left _ hy

/-- An operation on the front entry that keeps its transactions. -/
theorem Mirrors.of_front (hl : l.Mirrors) (hfront : l.queue.inmempoolTransactions = front :: rest)
    (hfront' : l'.queue.inmempoolTransactions = front' :: rest) (hids : front'.ids = front.ids)
    (hrelayer : l'.queue.relayer = l.queue.relayer)
    (hpending : l'.queue.pendingTransactions = l.queue.pendingTransactions)
    (hmined : l'.queue.minedTransactions = l.queue.minedTransactions)
    (hrows : ∀ r, r.id ∉ front.ids → (r ∈ l'.db.rows ↔ r ∈ l.db.rows))
    (hmirrored : Mirrored l'.db l.queue.relayer.id front') : l'.Mirrors := by
  obtain ⟨-, -, hapart⟩ := front_apart hl hfront
  have hentryIds : l'.queue.entryIds = l.queue.entryIds := by
    unfold TransactionsQueue.entryIds
    rw [hfront, hfront', List.flatMap_cons, List.flatMap_cons, hids]
  refine hl.of_frame (fun y => y ∈ front.ids) (congrArg Relayer.id hrelayer) hrows ?_ ?_ ?_ ?_ ?_ ?_
  · rw [hentryIds]
    exact hl.nodup
  · intro c hc
    rw [hfront'] at hc
    rcases List.mem_cons.mp hc with rfl | hc
    · exact .inr hmirrored
    · left
      constructor
      · rw [hfront]
        exact List.mem_cons_of_mem _ hc
      · intro y hy hin
        exact hapart y hin (List.mem_flatMap.mpr ⟨c, hc, hy⟩)
  · intro u hu
    rw [hpending] at hu
    exact .inl ⟨hu, fun hin => hl.apart u hu (mem_front_ids hfront hin)⟩
  · intro r hr hin hstatus
    rw [← hids, race_ids] at hin
    rcases List.mem_cons.mp hin with hid | hin
    · rw [(hmirrored.original.2 r hr hid).status] at hstatus
      cases hstatus
    · unfold CompetitiveTransaction.race at hin
      obtain ⟨p, hp, hid⟩ : ∃ p ∈ front'.competitive, p.1.id = r.id := by
        rcases hcompetitive : front'.competitive with _ | p
        · rw [hcompetitive] at hin
          simp at hin
        · rw [hcompetitive] at hin
          exact ⟨p, rfl, by simpa [eq_comm] using hin⟩
      obtain ⟨hin, -⟩ := (hmirrored.competitor p hp).1.2 r hr hid.symm
      rw [hin.status] at hstatus
      cases hstatus
  · intro u hu
    rw [hpending] at hu
    rw [hentryIds]
    exact hl.apart u hu
  · intro u hu
    rw [hmined] at hu
    rw [hentryIds, hpending]
    exact hl.mined u hu

/-- The front entry leaves the mempool. -/
theorem Mirrors.dropped (hl : l.Mirrors) (hfront : l.queue.inmempoolTransactions = front :: rest)
    (hrest : l'.queue.inmempoolTransactions = rest)
    (hrelayer : l'.queue.relayer = l.queue.relayer)
    (hpending : l'.queue.pendingTransactions = l.queue.pendingTransactions)
    (hmined : ∀ u ∈ l'.queue.minedTransactions,
      u ∈ l.queue.minedTransactions ∨ u.id ∈ front.ids)
    (hrows : ∀ r, r.id ∉ front.ids → (r ∈ l'.db.rows ↔ r ∈ l.db.rows))
    (hleft : ∀ r ∈ l'.db.rows, r.id ∈ front.ids → r.status ≠ .pending) : l'.Mirrors := by
  obtain ⟨-, hnodup, hapart⟩ := front_apart hl hfront
  have hentryIds : l'.queue.entryIds = rest.flatMap (·.ids) := by
    unfold TransactionsQueue.entryIds
    rw [hrest]
  have hinrest {y : TransactionId} (hy : y ∈ rest.flatMap (·.ids)) : y ∈ l.queue.entryIds := by
    unfold TransactionsQueue.entryIds
    rw [hfront, List.flatMap_cons]
    exact List.mem_append_right _ hy
  refine hl.of_frame (fun y => y ∈ front.ids) (congrArg Relayer.id hrelayer) hrows ?_ ?_ ?_ ?_ ?_ ?_
  · rw [hentryIds]
    exact hnodup
  · intro c hc
    rw [hrest] at hc
    left
    constructor
    · rw [hfront]
      exact List.mem_cons_of_mem _ hc
    · intro y hy hin
      exact hapart y hin (List.mem_flatMap.mpr ⟨c, hc, hy⟩)
  · intro u hu
    rw [hpending] at hu
    exact .inl ⟨hu, fun hin => hl.apart u hu (mem_front_ids hfront hin)⟩
  · intro r hr hin hstatus
    exact absurd hstatus (hleft r hr hin)
  · intro u hu
    rw [hpending] at hu
    rw [hentryIds]
    exact fun hin => hl.apart u hu (hinrest hin)
  · intro u hu
    rw [hentryIds, hpending]
    rcases hmined u hu with hold | hin
    · obtain ⟨hout, hother⟩ := hl.mined u hold
      exact ⟨fun hin => hout (hinrest hin), hother⟩
    · refine ⟨hapart u.id hin, ?_⟩
      intro p hp hsame
      exact hl.apart p hp (hsame ▸ mem_front_ids hfront hin)

/-- The row of an entry's active transaction. -/
structure ActiveRow (relayerId : RelayerId) (c : CompetitiveTransaction) (r : Row) : Prop where
  inMempool : r.InMempool relayerId none
  marks : ∀ p ∈ c.competitive, p.2.Marks r.toTransaction

/-- The copy of an entry's active transaction. -/
structure ActiveCopy (relayerId : RelayerId) (c : CompetitiveTransaction) (t : Transaction) :
    Prop where
  link : t.cancelledByTransactionId = none
  owner : t.relayerId = relayerId
  marks : ∀ p ∈ c.competitive, p.2.Marks t

theorem mirrored_active {db : Db} {relayerId : RelayerId} {c : CompetitiveTransaction}
    (h : Mirrored db relayerId c) :
    ActiveCopy relayerId c c.getActiveTransaction ∧
      db.Member c.getActiveTransaction.id (ActiveRow relayerId c) := by
  rcases hcompetitive : c.competitive with _ | p
  · have hactive : c.getActiveTransaction = c.original := by
      unfold CompetitiveTransaction.getActiveTransaction
      rw [hcompetitive]
    obtain ⟨hexists, hall⟩ := h.original
    have hlink := h.originalLink
    rw [hcompetitive] at hall hlink
    rw [hactive]
    refine ⟨⟨hlink, h.originalRelayer, ?_⟩, hexists, ?_⟩
    · rw [hcompetitive]
      exact fun _ hp => nomatch hp
    · intro r hr hid
      refine ⟨hall r hr hid, ?_⟩
      rw [hcompetitive]
      exact fun _ hp => nomatch hp
  · have hactive : c.getActiveTransaction = p.1 := by
      unfold CompetitiveTransaction.getActiveTransaction
      rw [hcompetitive]
    obtain ⟨⟨hexists, hall⟩, hlink, howner, hmarks⟩ := h.competitor p hcompetitive
    rw [hactive]
    refine ⟨⟨hlink, howner, ?_⟩, hexists, ?_⟩
    · rw [hcompetitive]
      rintro p' ⟨⟩
      exact hmarks
    · intro r hr hid
      obtain ⟨hin, hmarked⟩ := hall r hr hid
      refine ⟨hin, ?_⟩
      rw [hcompetitive]
      rintro p' ⟨⟩
      exact hmarked

/-- An entry whose active transaction is rewritten, in its row and in its copy. -/
theorem mirrored_rewritten {db db' : Db} {relayerId : RelayerId} {c : CompetitiveTransaction}
    (h : Mirrored db relayerId c) (hnodup : c.ids.Nodup)
    (hid : (f c.getActiveTransaction).id = c.getActiveTransaction.id)
    (hcopy : ActiveCopy relayerId c (f c.getActiveTransaction))
    (hdb : db.Rewrites c.getActiveTransaction.id (ActiveRow relayerId c) db') :
    Mirrored db' relayerId (c.updateTransactionById c.getActiveTransaction.id f) ∧
      (c.updateTransactionById c.getActiveTransaction.id f).ids = c.ids := by
  obtain ⟨original, _ | ⟨competitor, type⟩⟩ := c
  · have hupdated : (⟨original, none⟩ : CompetitiveTransaction).updateTransactionById original.id f =
        ⟨f original, none⟩ := by simp [CompetitiveTransaction.updateTransactionById]
    dsimp only [CompetitiveTransaction.getActiveTransaction] at *
    rw [hupdated]
    refine ⟨⟨?_, hcopy.link, hcopy.owner, by simp⟩, ?_⟩
    · dsimp only
      rw [hid]
      obtain ⟨hexists, hall⟩ := hdb.member h.original.1
      exact ⟨hexists, fun r hr hrid => (hall r hr hrid).inMempool⟩
    · show [(f original).id] = [original.id]
      rw [hid]
  · have hne : original.id ≠ competitor.id := by
      intro hsame
      have hids : [original.id, competitor.id].Nodup := hnodup
      simp [hsame] at hids
    obtain ⟨hrow, -⟩ := h.competitor (competitor, type) rfl
    have hupdated : (⟨original, some (competitor, type)⟩ :
        CompetitiveTransaction).updateTransactionById competitor.id f =
          ⟨original, some (f competitor, type)⟩ := by
      simp [CompetitiveTransaction.updateTransactionById, hne]
    dsimp only [CompetitiveTransaction.getActiveTransaction] at *
    rw [hupdated]
    refine ⟨⟨?_, ?_, h.originalRelayer, ?_⟩, ?_⟩
    · have horiginal := h.original.of_rewrites hdb hne
      dsimp only [Option.map_some] at horiginal ⊢
      rw [hid]
      exact horiginal
    · have hlink := h.originalLink
      dsimp only [Option.map_some] at hlink ⊢
      rw [hid]
      exact hlink
    · rintro p ⟨⟩
      dsimp only
      rw [hid]
      obtain ⟨hexists, hall⟩ := hdb.member hrow.1
      refine ⟨⟨hexists, ?_⟩, hcopy.link, hcopy.owner, hcopy.marks _ rfl⟩
      intro r hr hrid
      exact ⟨(hall r hr hrid).inMempool, (hall r hr hrid).marks _ rfl⟩
    · show [original.id, (f competitor).id] = [original.id, competitor.id]
      rw [hid]

/-- An operation on the active transaction of the front entry. -/
theorem Mirrors.of_active (hl : l.Mirrors) (hfront : l.queue.inmempoolTransactions = front :: rest)
    (hentries : l'.queue.inmempoolTransactions =
      front.updateTransactionById front.getActiveTransaction.id f :: rest)
    (hrelayer : l'.queue.relayer = l.queue.relayer)
    (hpending : l'.queue.pendingTransactions = l.queue.pendingTransactions)
    (hmined : l'.queue.minedTransactions = l.queue.minedTransactions)
    (hid : (f front.getActiveTransaction).id = front.getActiveTransaction.id)
    (hcopy : ActiveCopy l.queue.relayer.id front (f front.getActiveTransaction))
    (hdb : l.db.Rewrites front.getActiveTransaction.id (ActiveRow l.queue.relayer.id front) l'.db) :
    l'.Mirrors := by
  obtain ⟨hnodup, -, -⟩ := front_apart hl hfront
  have hfirst : Mirrored l.db l.queue.relayer.id front := by
    apply hl.entries
    rw [hfront]
    exact List.mem_cons_self ..
  obtain ⟨hmirrored, hids⟩ := mirrored_rewritten hfirst hnodup hid hcopy hdb
  refine hl.of_front hfront hentries hids hrelayer hpending hmined ?_ hmirrored
  intro r hr
  apply hdb.others
  intro hsame
  rw [hsame] at hr
  exact hr (List.mem_map_of_mem (active_mem_transactions front))

/-- A change of the active copy alone. -/
theorem Mirrors.of_copy (hl : l.Mirrors) (hfront : l.queue.inmempoolTransactions = front :: rest)
    (hid : (f front.getActiveTransaction).id = front.getActiveTransaction.id)
    (hcopy : ActiveCopy l.queue.relayer.id front (f front.getActiveTransaction)) :
    ({ l with queue := l.queue.updateFrontById front.getActiveTransaction.id f } :
      Locked).Mirrors := by
  have hfirst : Mirrored l.db l.queue.relayer.id front := by
    apply hl.entries
    rw [hfront]
    exact List.mem_cons_self ..
  have hupdated : l.queue.updateFrontById front.getActiveTransaction.id f =
      { l.queue with inmempoolTransactions :=
          front.updateTransactionById front.getActiveTransaction.id f :: rest } := by
    unfold TransactionsQueue.updateFrontById
    rw [hfront]
  rw [hupdated]
  refine hl.of_active hfront ?_ ?_ ?_ ?_ hid hcopy (.refl (mirrored_active hfirst).2.2)
  · rfl
  · rfl
  · rfl
  · rfl

theorem updateTransactionById_same (c : CompetitiveTransaction) (y : TransactionId) :
    c.updateTransactionById y (fun u => u) = c := by
  unfold CompetitiveTransaction.updateTransactionById
  split
  · rfl
  · split
    · rename_i hcompetitive
      split
      · rw [← hcompetitive]
      · rfl
    · rfl

theorem updateTransactionById_active_competitive {y : TransactionId} :
    ∀ p' ∈ (front.updateTransactionById y f).competitive, ∃ p ∈ front.competitive, p'.2 = p.2 := by
  intro p' hp'
  unfold CompetitiveTransaction.updateTransactionById at hp'
  split at hp'
  · exact ⟨p', hp', rfl⟩
  · split at hp'
    · rename_i competitor type hcompetitive
      split at hp'
      · cases hp'
        exact ⟨_, hcompetitive, rfl⟩
      · exact ⟨p', hp', rfl⟩
    · exact ⟨p', hp', rfl⟩

/-- The send leaves the payload of a replace one that a startup takes for a replace. -/
def KeepsKind (l : Locked) (env : SendEnv) (type : CompetitionType) (t : Transaction) : Prop :=
  type = .replace → CompetitionType.replace.Marks (prepareSend l.queue.toSendConfig env t).1

theorem marks_congr {type : CompetitionType} {t t' : Transaction} (h : type.Marks t)
    (hsame : t.SamePayload t') : type.Marks t' := by
  obtain ⟨hto, hfrom, hvalue, hdata, hnoop⟩ := hsame
  cases type with
  | cancel => exact ⟨hnoop.trans h.1, hto.trans (h.2.trans hfrom.symm)⟩
  | replace =>
    obtain ⟨hno, hne, hpayload⟩ := h
    refine ⟨hnoop.trans hno, ?_, ?_⟩
    · rw [hto, hfrom]
      exact hne
    · rw [hvalue, hdata]
      exact hpayload

theorem marks_prepared {env : SendEnv} {type : CompetitionType} {t : Transaction}
    (h : type.Marks t) (hkeeps : l.KeepsKind env type t) :
    type.Marks (prepareSend l.queue.toSendConfig env t).1 := by
  cases type with
  | cancel =>
    have hsame := prepareSend_sameLink l.queue.toSendConfig env t
    obtain ⟨hnoop, hto⟩ := hsame.noop h.1
    exact ⟨hnoop, hto.trans (h.2.trans hsame.fromAddress.symm)⟩
  | replace => exact hkeeps rfl

theorem marks_withAttempt {type : CompetitionType} {r : Row} {relayerId : RelayerId}
    {u : Transaction} {hash : TransactionHash} {gas : GasPriceResult}
    {blobGas : Option BlobGasPriceResult} {legacy : Bool} {now : DateTime} (h : type.Marks u) :
    type.Marks (r.withAttempt relayerId u hash gas blobGas legacy now).toTransaction := by
  cases type with
  | cancel => exact ⟨by simpa [Row.withAttempt, Row.withGas] using h.2, h.2⟩
  | replace => exact ⟨by simpa [Row.withAttempt, Row.withGas] using h.2.1, h.2⟩

theorem active_updated {c : CompetitiveTransaction} (hnodup : c.ids.Nodup) :
    (c.updateTransactionById c.getActiveTransaction.id f).getActiveTransaction =
      f c.getActiveTransaction := by
  obtain ⟨original, _ | ⟨competitor, type⟩⟩ := c
  · simp [CompetitiveTransaction.updateTransactionById, CompetitiveTransaction.getActiveTransaction]
  · have hne : original.id ≠ competitor.id := by
      intro hsame
      have hids : [original.id, competitor.id].Nodup := hnodup
      simp [hsame] at hids
    simp [CompetitiveTransaction.updateTransactionById, CompetitiveTransaction.getActiveTransaction,
      hne]

/-- The working copy of a send has the payload that was prepared. -/
theorem send_payload {env : SendEnv} {t t' : Transaction}
    {result : SendResult TransactionSentWithRelayer} (h : l.send env t = (t', l', result)) :
    (prepareSend l.queue.toSendConfig env t).1.SamePayload t' := by
  have hends := l.send_ends env t
  rw [h] at hends
  cases hends with
  | unprepared hp | unrecorded hp | refused hp | unmarked hp | marked hp =>
    rw [hp]
    exact ⟨rfl, rfl, rfl, rfl, rfl⟩

variable {t bumped : Transaction}

/-- A bump that was accepted. -/
theorem bumpSent_mirrors {wasNoop : Bool} {sent : TransactionSentWithRelayer} (hl : l.Mirrors)
    (hfront : l.queue.inmempoolTransactions = front :: rest)
    (hbumped : bumped.id = front.getActiveTransaction.id)
    (hsent : sent.id = front.getActiveTransaction.id)
    (hnoop : (!wasNoop && bumped.isNoop) = true → front.competitive = none) :
    (l.bumpSent env bumped wasNoop sent).1.Mirrors := by
  obtain ⟨hnodup, -, -⟩ := front_apart hl hfront
  have hcopy : ActiveCopy l.queue.relayer.id front front.getActiveTransaction := by
    have hfirst : Mirrored l.db l.queue.relayer.id front := by
      apply hl.entries
      rw [hfront]
      exact List.mem_cons_self ..
    exact (mirrored_active hfirst).1
  have hgas : ({ l with queue := l.queue.updateInmempoolTransactionGas sent env.nowWrite } :
      Locked).Mirrors := by
    unfold TransactionsQueue.updateInmempoolTransactionGas
    rw [hsent]
    refine hl.of_copy hfront ?_ ⟨hcopy.link, hcopy.owner, ?_⟩
    · rfl
    · intro p hp
      exact marks_congr (hcopy.marks p hp) ⟨rfl, rfl, rfl, rfl, rfl⟩
  unfold bumpSent
  dsimp only
  split
  · rename_i hexpired
    have halone := hnoop hexpired
    -- The entry that expired has no competitor.
    have hfront' : (l.queue.updateInmempoolTransactionGas sent env.nowWrite).inmempoolTransactions =
        front.updateTransactionById front.getActiveTransaction.id
          (fun u => u.exposeAttempt sent env.nowWrite) :: rest := by
      unfold TransactionsQueue.updateInmempoolTransactionGas TransactionsQueue.updateFrontById
      rw [hfront, hsent]
    have hactive := @active_updated (fun u => u.exposeAttempt sent env.nowWrite) front hnodup
    have hmoved := @Mirrors.of_copy
      { l with queue := l.queue.updateInmempoolTransactionGas sent env.nowWrite } _ rest
      (fun t => { transactionToNoop (l.queue.updateInmempoolTransactionGas sent
        env.nowWrite).relayer.address t with
          knownTransactionHash := some sent.hash, sentAt := some env.nowWrite }) hgas hfront'
    rw [hactive] at hmoved
    unfold TransactionsQueue.updateInmempoolTransactionNoop
    rw [hbumped]
    apply hmoved
    · rfl
    · refine ⟨hcopy.link, ?_, ?_⟩
      · have hrelayer : (l.queue.updateInmempoolTransactionGas sent env.nowWrite).relayer =
            l.queue.relayer := by
          unfold TransactionsQueue.updateInmempoolTransactionGas TransactionsQueue.updateFrontById
          split
          · rfl
          · rfl
        dsimp only
        rw [hrelayer]
        exact hcopy.owner
      · intro p' hp'
        obtain ⟨p, hp, -⟩ := updateTransactionById_active_competitive p' hp'
        rw [halone] at hp
        cases hp
  · exact hgas

theorem bumpFailed_mirrors {error : TransactionQueueSendTransactionError} (hl : l.Mirrors)
    (hfront : l.queue.inmempoolTransactions = front :: rest)
    (hid : t.id = front.getActiveTransaction.id) : (l.bumpFailed env t error).1.Mirrors := by
  have hfirst : Mirrored l.db l.queue.relayer.id front := by
    apply hl.entries
    rw [hfront]
    exact List.mem_cons_self ..
  obtain ⟨hcopy, hrow⟩ := mirrored_active hfirst
  have hleaves := l.bumpFailed_leaves env t error
  generalize (l.bumpFailed env t error).1 = l' at hleaves ⊢
  cases hleaves with
  | kept => exact hl
  | reassigned newNonce =>
    refine @Mirrors.of_active l _ front rest (fun u => { u with nonce := newNonce }) hl hfront
      ?_ ?_ ?_ ?_ ?_ ?_ ?_
    · dsimp only [TransactionsQueue.updateInmempoolTransactionNonce, advanceTransactionNonce]
      rw [hfront, hid]
      exact updateFirst_cons_pos (p := fun c : CompetitiveTransaction =>
        (c.getTransactionById front.getActiveTransaction.id).isSome)
        front.getTransactionById_active
    · rfl
    · rfl
    · rfl
    · rfl
    · refine ⟨hcopy.link, hcopy.owner, ?_⟩
      intro p hp
      exact marks_congr (hcopy.marks p hp) ⟨rfl, rfl, rfl, rfl, rfl⟩
    · rw [← hid] at hrow ⊢
      refine Db.Rewrites.update (by intro; rfl) ?_
      intro r hr hrid
      obtain ⟨⟨howner, hstatus, hlink⟩, hmarks⟩ := hrow.2 r hr hrid
      refine ⟨⟨howner, hstatus, hlink⟩, ?_⟩
      intro p hp
      exact marks_congr (hmarks p hp) ⟨rfl, rfl, rfl, rfl, rfl⟩

/-- A bump keeps the kind of the race in the row when the send keeps it in the payload. -/
theorem bumpInmempool_mirrors (hl : l.Mirrors)
    (hfront : l.queue.inmempoolTransactions = front :: rest)
    (hstatus : front.getActiveTransaction.status = .inmempool)
    (hkeeps : ∀ p ∈ front.competitive, l.KeepsKind env.send p.2 front.getActiveTransaction) :
    (l.bumpInmempool env front.getActiveTransaction).1.Mirrors := by
  have hfirst : Mirrored l.db l.queue.relayer.id front := by
    apply hl.entries
    rw [hfront]
    exact List.mem_cons_self ..
  obtain ⟨hcopy, hrow⟩ := mirrored_active hfirst
  set t := front.getActiveTransaction with ht
  have hprepared : ∀ p ∈ front.competitive,
      p.2.Marks (prepareSend l.queue.toSendConfig env.send t).1 :=
    fun p hp => marks_prepared (hcopy.marks p hp) (hkeeps p hp)
  have hspec := send_spec l env.send t
  have hsame := prepareSend_sameLink l.queue.toSendConfig env.send t
  have hslot := (prepareSend_spec l.queue.toSendConfig env.send t).1
  rcases hsend : l.send env.send t with ⟨bumped, l₁, result⟩
  rw [hsend] at hspec
  have hqueue : l₁.queue = l.queue := hspec.queue
  have hid : bumped.id = t.id := hspec.id
  obtain ⟨hdb, -⟩ := send_rewrites (P := ActiveRow l.queue.relayer.id front) hsend hrow.2
    (by
      rintro r u hash gas blobGas legacy now rfl
      refine ⟨⟨rfl, hslot.status.trans hstatus, hsame.link.trans hcopy.link⟩, ?_⟩
      intro p hp
      exact marks_withAttempt (hprepared p hp))
    (by
      intro r hash gas blobGas legacy now h
      refine ⟨⟨h.inMempool.relayerId, rfl, h.inMempool.link⟩, ?_⟩
      intro p hp
      exact marks_congr (h.marks p hp) ⟨rfl, rfl, rfl, rfl, rfl⟩)
  have hmirrors : l₁.Mirrors := by
    refine @Mirrors.of_active l l₁ front rest (fun u => u) hl hfront ?_ ?_ ?_ ?_ ?_ hcopy hdb
    · rw [updateTransactionById_same, hqueue]
      exact hfront
    · rw [hqueue]
    · rw [hqueue]
    · rw [hqueue]
    · rfl
  have hfront₁ : l₁.queue.inmempoolTransactions = front :: rest := by
    rw [hqueue]
    exact hfront
  unfold bumpInmempool
  rw [hsend]
  cases result with
  | error e => exact bumpFailed_mirrors hmirrors hfront₁ hid
  | ok sent =>
    apply bumpSent_mirrors hmirrors hfront₁ hid (hspec.ok sent rfl).1
    intro hexpired
    simp only [Bool.and_eq_true, Bool.not_eq_true'] at hexpired
    obtain ⟨hwas, hnow⟩ := hexpired
    rw [(send_payload hsend).isNoop] at hnow
    by_contra hrace
    obtain ⟨⟨competitor, type⟩, hp⟩ := Option.ne_none_iff_exists'.mp hrace
    cases type with
    | cancel =>
      have hmarks := (hcopy.marks _ hp).1
      rw [hwas] at hmarks
      cases hmarks
    | replace =>
      have hmarks := (hprepared _ hp).1
      rw [hnow] at hmarks
      cases hmarks

/-- A decided race leaves the front of the queue. -/
theorem resolveInmempool_mirrors {receipt : Receipt} (hl : l.Mirrors)
    (hfront : l.queue.inmempoolTransactions = front :: rest)
    (hleft : ∀ u ∈ front.transactions, (l.resolveInmempool env t receipt).1.db.NotPending u.id) :
    (l.resolveInmempool env t receipt).1.Mirrors := by
  have htouched := @resolveInmempool_touched l env t receipt
  have hfrontIds {y : TransactionId} (hy : l.inFront y) : y ∈ front.ids := by
    obtain ⟨c, hc, u, hu, rfl⟩ := hy
    rw [hfront] at hc
    cases hc
    exact List.mem_map_of_mem hu
  rcases hmove : l.queue.moveInmempoolToMining t.id receipt env.now with e | ⟨r, q'⟩
  · unfold resolveInmempool
    rw [hmove]
    exact hl
  · have hmoved : q'.inmempoolTransactions = rest ∧ q'.relayer = l.queue.relayer := by
      unfold TransactionsQueue.moveInmempoolToMining at hmove
      rw [hfront] at hmove
      dsimp only at hmove
      split at hmove
      · cases hmove
      · cases hmove
        exact ⟨rfl, rfl⟩
    obtain ⟨⟨front₀, hfront₀, hresolve⟩, hpending, hmined⟩ := moveInmempoolToMining_lists hmove
    have hqueue : (l.resolveInmempool env t receipt).1.queue = q' := by
      obtain ⟨-, hwinner, hloser⟩ := TransactionsQueue.resolveCompetition_slots hresolve
      unfold resolveInmempool
      rw [hmove]
      exact (saveResolution_frame { l with queue := q' } env receipt r (P := fun _ _ => True)
        trivial fun _ _ => trivial).1
    refine hl.dropped hfront ?_ ?_ ?_ ?_ ?_ ?_
    · rw [hqueue]
      exact hmoved.1
    · rw [hqueue]
      exact hmoved.2
    · rw [hqueue]
      exact hpending
    · intro u hu
      exact (htouched.mined u hu).imp id hfrontIds
    · intro r hr
      exact htouched.db.mem_rows fun _ hin => hr (hfrontIds hin)
    · intro r hr hin
      obtain ⟨u, hu, hid⟩ := List.mem_map.mp hin
      exact hleft u hu r hr hid.symm

theorem processSingleInmempool_mirrors (l : Locked) (env : InmempoolEnv) (hl : l.Mirrors)
    (hstatus : ∀ c ∈ l.queue.inmempoolTransactions, ∀ u ∈ c.transactions, u.status = .inmempool)
    (hleft : ∀ c ∈ l.queue.inmempoolTransactions, ∀ u ∈ c.transactions,
      (l.processSingleInmempool env).1.db.NotPending u.id)
    (hkeeps : ∀ front ∈ l.queue.inmempoolTransactions.head?,
      (∃ hash, l.polled env = some (front.getActiveTransaction, hash) ∧
        env.pollReceipt hash = .ok none) → l.bumpDue env front.getActiveTransaction = true →
          ∀ p ∈ front.competitive, l.KeepsKind env.send p.2 front.getActiveTransaction) :
    (l.processSingleInmempool env).1.Mirrors := by
  rcases hpolled : l.polled env with _ | ⟨t, hash⟩
  · rw [processSingleInmempool_unpolled hpolled]
    exact hl
  obtain ⟨hguard, hknown, front, rest, hfront, ht⟩ := polled_some hpolled
  have hmem : front ∈ l.queue.inmempoolTransactions := by
    rw [hfront]
    exact List.mem_cons_self ..
  have hleft := hleft front hmem
  rw [processSingleInmempool_polled hpolled] at hleft ⊢
  split
  · exact hl
  · rename_i receipt hreceipt
    rw [hreceipt] at hleft
    exact resolveInmempool_mirrors hl hfront hleft
  · rename_i hreceipt
    split
    · rename_i hdue
      subst ht
      have hhead : front ∈ l.queue.inmempoolTransactions.head? := by
        rw [hfront]
        rfl
      exact bumpInmempool_mirrors hl hfront (hstatus front hmem _ (active_mem_transactions front))
        (hkeeps front hhead ⟨hash, hpolled, hreceipt⟩ hdue)
    · exact hl

end Inmempool

section Compete

variable {env : CompeteEnv} {front : CompetitiveTransaction} {rest : List CompetitiveTransaction}
  {original competitor tracked : Transaction} {type : CompetitionType}

theorem ids_of_alone (halone : front.competitive = none) : front.ids = [front.original.id] := by
  rw [race_ids]
  unfold CompetitiveTransaction.race
  rw [halone]
  rfl

/-- No later entry has an id of the front's new race. -/
theorem Mirrors.rest_apart (hl : l.Mirrors)
    (hfront : l.queue.inmempoolTransactions = front :: rest)
    (hunused : Unused l.db l.queue tracked.id) {y : TransactionId}
    (hy : y ∈ rest.flatMap (·.ids)) : ¬ (y = front.original.id ∨ y = tracked.id) := by
  obtain ⟨-, -, hapart⟩ := front_apart hl hfront
  rintro (rfl | rfl)
  · exact hapart _ (original_mem_ids front) hy
  · apply hunused.not_mem_entryIds
    unfold TransactionsQueue.entryIds
    rw [hfront, List.flatMap_cons]
    exact List.mem_append_right _ hy

theorem mem_attached_entryIds (hfront : l.queue.inmempoolTransactions = front :: rest)
    (halone : front.competitive = none)
    (hentries : l'.queue.inmempoolTransactions = front.addCompetitor tracked type :: rest)
    {y : TransactionId} : y ∈ l'.queue.entryIds ↔ y = tracked.id ∨ y ∈ l.queue.entryIds := by
  have hids' : (front.addCompetitor tracked type).ids = [front.original.id, tracked.id] := rfl
  unfold TransactionsQueue.entryIds
  rw [hentries, hfront, List.flatMap_cons, List.flatMap_cons, ids_of_alone halone, hids']
  simp only [List.cons_append, List.nil_append, List.mem_cons]
  tauto

theorem Mirrors.attached_nodup (hl : l.Mirrors)
    (hfront : l.queue.inmempoolTransactions = front :: rest) (halone : front.competitive = none)
    (hunused : Unused l.db l.queue tracked.id)
    (hentries : l'.queue.inmempoolTransactions = front.addCompetitor tracked type :: rest) :
    l'.queue.entryIds.Nodup := by
  have hids' : (front.addCompetitor tracked type).ids = [front.original.id, tracked.id] := rfl
  have hold : front.original.id ∈ l.queue.entryIds := mem_front_ids hfront (original_mem_ids front)
  have hnodup := hl.nodup
  unfold TransactionsQueue.entryIds at hnodup ⊢
  rw [hfront, List.flatMap_cons, ids_of_alone halone] at hnodup
  rw [hentries, List.flatMap_cons, hids']
  obtain ⟨hfirst, hlast⟩ := List.nodup_cons.mp hnodup
  refine List.nodup_cons.mpr ⟨?_, List.nodup_cons.mpr ⟨?_, hlast⟩⟩
  · intro hin
    rcases List.mem_cons.mp hin with hsame | hin
    · exact hunused.not_mem_entryIds (hsame ▸ hold)
    · exact hfirst hin
  · intro hin
    exact hl.rest_apart hfront hunused hin (.inr rfl)

/-- The front entry gets a new transaction as its competitor. -/
theorem Mirrors.attached (hl : l.Mirrors) (hfront : l.queue.inmempoolTransactions = front :: rest)
    (halone : front.competitive = none) (hunused : Unused l.db l.queue tracked.id)
    (hentries : l'.queue.inmempoolTransactions = front.addCompetitor tracked type :: rest)
    (hrelayer : l'.queue.relayer = l.queue.relayer)
    (hpending : l'.queue.pendingTransactions = l.queue.pendingTransactions)
    (hmined : l'.queue.minedTransactions = l.queue.minedTransactions)
    (hrows : ∀ r, ¬ (r.id = front.original.id ∨ r.id = tracked.id) →
      (r ∈ l'.db.rows ↔ r ∈ l.db.rows))
    (hmirrored : Mirrored l'.db l.queue.relayer.id (front.addCompetitor tracked type)) :
    l'.Mirrors := by
  have hold : front.original.id ∈ l.queue.entryIds := mem_front_ids hfront (original_mem_ids front)
  have hmem {y : TransactionId} : y ∈ l'.queue.entryIds ↔ y = tracked.id ∨ y ∈ l.queue.entryIds :=
    mem_attached_entryIds hfront halone hentries
  refine hl.of_frame (fun y => y = front.original.id ∨ y = tracked.id)
    (congrArg Relayer.id hrelayer) hrows ?_ ?_ ?_ ?_ ?_ ?_
  · exact hl.attached_nodup hfront halone hunused hentries
  · intro c hc
    rw [hentries] at hc
    rcases List.mem_cons.mp hc with rfl | hc
    · exact .inr hmirrored
    · left
      constructor
      · rw [hfront]
        exact List.mem_cons_of_mem _ hc
      · intro y hy
        exact hl.rest_apart hfront hunused (List.mem_flatMap.mpr ⟨c, hc, hy⟩)
  · intro u hu
    rw [hpending] at hu
    refine .inl ⟨hu, ?_⟩
    rintro (hid | hid)
    · exact hl.apart u hu (hid ▸ hold)
    · exact hunused.pending u hu hid
  · intro r hr htouched hstatus
    rcases htouched with hid | hid
    · rw [(hmirrored.original.2 r hr hid).status] at hstatus
      cases hstatus
    · obtain ⟨hin, -⟩ := (hmirrored.competitor (tracked, type) rfl).1.2 r hr hid
      rw [hin.status] at hstatus
      cases hstatus
  · intro u hu
    rw [hpending] at hu
    rw [hmem]
    rintro (hid | hin)
    · exact hunused.pending u hu hid
    · exact hl.apart u hu hin
  · intro u hu
    rw [hmined] at hu
    rw [hmem, hpending]
    refine ⟨?_, (hl.mined u hu).2⟩
    rintro (hid | hin)
    · exact hunused.mined u hu hid
    · exact (hl.mined u hu).1 hin

section Unused

variable {send : SendEnv} {t t' : Transaction} {result : SendResult TransactionSentWithRelayer}

/-- The send of a transaction with a new id writes that id's row only, unlinked. -/
theorem send_unused_rewrites (hunused : Unused l.db l.queue t.id)
    (hlink : t.cancelledByTransactionId = none) (hsend : l.send send t = (t', l', result)) :
    l.db.Rewrites t.id (Row.Plain l.queue.relayer.id) l'.db := by
  have hsame := prepareSend_sameLink l.queue.toSendConfig send t
  refine (send_rewrites hsend ?_ ?_ ?_).1
  · intro r hr hrid
    exact absurd hrid (hunused.absent r hr)
  · rintro r u hash gas blobGas legacy now rfl
    exact ⟨rfl, hsame.link.trans hlink⟩
  · intro r _ _ _ _ _ h
    exact ⟨h.relayerId, h.link⟩

/-- An accepted one is shown in the mempool with the payload of its kind. -/
theorem send_unused_marked (hunused : Unused l.db l.queue t.id)
    (hlink : t.cancelledByTransactionId = none)
    (hmarks : type.Marks (prepareSend l.queue.toSendConfig send t).1)
    {sent : TransactionSentWithRelayer} (hsend : l.send send t = (t', l', .ok sent)) :
    l'.db.Member t.id fun r =>
      (r.Plain l.queue.relayer.id ∧ type.Marks r.toTransaction) ∧ r.status = .inmempool := by
  have hsame := prepareSend_sameLink l.queue.toSendConfig send t
  refine (send_rewrites hsend ?_ ?_ ?_).2 sent rfl
  · intro r hr hrid
    exact absurd hrid (hunused.absent r hr)
  · rintro r u hash gas blobGas legacy now rfl
    exact ⟨⟨rfl, hsame.link.trans hlink⟩, marks_withAttempt hmarks⟩
  · intro r _ _ _ _ _ h
    exact ⟨⟨h.1.relayerId, h.1.link⟩, marks_congr h.2 ⟨rfl, rfl, rfl, rfl, rfl⟩⟩

theorem Mirrors.send_unused (hl : l.Mirrors) (hunused : Unused l.db l.queue t.id)
    (hlink : t.cancelledByTransactionId = none) (hsend : l.send send t = (t', l', result)) :
    l'.Mirrors := by
  have hspec := send_spec l send t
  rw [hsend] at hspec
  have hqueue : l'.queue = l.queue := hspec.queue
  refine hl.of_plain hunused.not_mem_entryIds hunused.mined ?_ ?_ ?_
    (send_unused_rewrites hunused hlink hsend) ?_
  · rw [hqueue]
  · rw [hqueue]
  · rw [hqueue]
  · intro u hu
    rw [hqueue] at hu
    exact .inl ⟨hu, hunused.pending u hu⟩

end Unused

/-- A competitor that is accepted is attached with the kind its payload shows. -/
theorem sendCompetitor_mirrors (hl : l.Mirrors) (hunused : Unused l.db l.queue competitor.id)
    {c : CompetitiveTransaction} (hc : c ∈ l.queue.inmempoolTransactions)
    (horiginal : c.original = original) (hstatus : original.status = .inmempool)
    (hlink : competitor.cancelledByTransactionId = none)
    (howner : competitor.relayerId = l.queue.relayer.id)
    (hattaches : l.Attaches env original competitor)
    (hmarks : l.Accepted env competitor →
      type.Marks (prepareSend l.queue.toSendConfig env.send competitor).1) :
    (l.sendCompetitor env original competitor type).1.Mirrors := by
  have hspec := send_spec l env.send competitor
  rcases hsend : l.send env.send competitor with ⟨sentCompetitor, l₁, result⟩
  rw [hsend] at hspec
  have hqueue : l₁.queue = l.queue := hspec.queue
  have hid : sentCompetitor.id = competitor.id := hspec.id
  have hdb := send_unused_rewrites hunused hlink hsend
  have hmirrors := hl.send_unused hunused hlink hsend
  unfold sendCompetitor
  rw [hsend]
  cases result with
  | ok sent =>
    have haccepted : l.Accepted env competitor :=
      (send_ok_iff_accepted.mp ⟨sent, by rw [hsend]⟩).1
    obtain ⟨-, hwrite, front, rest, hfront, hfrontId, halone⟩ := hattaches haccepted
    have hprepared := hmarks haccepted
    have hmem : front ∈ l.queue.inmempoolTransactions := by
      rw [hfront]
      exact List.mem_cons_self ..
    -- The entry found by the id is the one in front.
    obtain rfl : c = front := by
      apply entry_unique hl.nodup hc hmem (original_mem_ids c)
      rw [horiginal, ← hfrontId]
      exact original_mem_ids front
    have hfirst := hl.entries c hmem
    have hne : c.original.id ≠ competitor.id := by
      intro hsameId
      exact hunused.sent c hc c.original (List.mem_cons_self ..) hsameId
    have hrow := send_unused_marked hunused hlink hprepared hsend
    obtain ⟨hsentLink, hsentOwner⟩ := send_sameLink hsend
    have hsentMarks : type.Marks sentCompetitor := marks_congr hprepared (send_payload hsend)
    dsimp only
    rw [hqueue, TransactionsQueue.addCompetitor_front _ _ hfront hfrontId]
    simp only [hwrite, Bool.not_true, Bool.false_eq_true, if_false]
    subst horiginal
    have horiginalRow : ∃ r ∈ l₁.db.rows, r.id = c.original.id := by
      obtain ⟨⟨r, hr, hrid⟩, -⟩ := hfirst.original
      exact ⟨r, (hdb.others r (hrid ▸ hne)).mpr hr, hrid⟩
    rw [← hid] at hrow hdb hne hunused ⊢
    have hlinked := l₁.db.rewrites_link sentCompetitor.id env.nowWrite hfirst.originalRelayer
      hstatus
    let tracked : Transaction := { sentCompetitor with
      status := .inmempool
      knownTransactionHash := some sent.hash
      sentAt := some env.nowWrite }
    refine @Mirrors.attached l _ c rest tracked type hl hfront halone hunused rfl rfl rfl rfl ?_ ?_
    · intro r hr
      have hother : r.id ≠ c.original.id := fun hsameId => hr (.inl hsameId)
      have hnew : r.id ≠ sentCompetitor.id := fun hsameId => hr (.inr hsameId)
      exact (hlinked.others r hother).trans (hdb.others r hnew)
    · exact @Mirrored.linked _ _ _ _ c tracked type hfirst hstatus horiginalRow hne.symm hrow
        (hsentLink.link.trans hlink) (hsentOwner.trans howner)
        (marks_congr hsentMarks ⟨rfl, rfl, rfl, rfl, rfl⟩)
  | error e =>
    cases e with
    | transactionSendError e =>
      dsimp only
      split
      · split
        · exact hmirrors
        · exact hmirrors
      · exact hmirrors
    | _ => exact hmirrors

/-- A pending transaction that is rewritten in place. -/
theorem rewritePending_mirrors {u p : Transaction} (hl : l.Mirrors)
    (hp : p ∈ l.queue.pendingTransactions) (hid : u.id = p.id)
    (hlink : u.cancelledByTransactionId = p.cancelledByTransactionId)
    (howner : u.relayerId = p.relayerId) (h : l.rewritePending env u = some l') : l'.Mirrors := by
  have hwaits := hl.pending p hp
  unfold rewritePending at h
  split at h
  · cases h
    have hdb : l.db.Rewrites u.id (Row.Plain l.queue.relayer.id)
        (l.db.transactionUpdate u env.nowWrite) :=
      Db.Rewrites.update (by intro; rfl)
        fun _ _ _ => ⟨howner.trans hwaits.owner, hlink.trans hwaits.link⟩
    have hrow : ∃ r ∈ (l.db.transactionUpdate u env.nowWrite).rows, r.id = u.id := by
      apply hdb.kept
      rw [hid]
      exact hwaits.row.1
    refine @Mirrors.of_plain l _ u.id hl ?_ ?_ ?_ ?_ ?_ hdb ?_
    · rw [hid]
      exact hl.apart p hp
    · intro w hw hsame
      exact (hl.mined w hw).2 p hp (hid.symm.trans hsame.symm)
    · rfl
    · rfl
    · rfl
    · intro w hw
      rcases mem_updateFirst hw with hold | ⟨w₀, -, -, rfl⟩
      · by_cases hsame : w.id = u.id
        · have hheld := hl.pending w hold
          exact .inr ⟨hsame, hheld.link, hheld.owner, hrow⟩
        · exact .inl ⟨hold, hsame⟩
      · exact .inr ⟨rfl, hlink.trans hwaits.link, howner.trans hwaits.owner, hrow⟩
  · cases h

/-- What a cancel or replace needs so that its competitor is attached with the kind its payload
shows. -/
structure Pairs (l : Locked) (e : Event) : Prop where
  attaches : ∀ env original competitor, l.requested e = some (env, original, competitor) →
    l.Attaches env original competitor
  marks : ∀ env request id original competitor, e = .replace env request id →
    l.requested e = some (env, original, competitor) → l.Accepted env competitor →
      CompetitionType.replace.Marks (prepareSend l.queue.toSendConfig env.send competitor).1

theorem cancelTransaction_mirrors (l : Locked) (env : CompeteEnv) (id : TransactionId)
    (hl : l.Mirrors) (hunused : Unused l.db l.queue env.newId)
    (hstatus : ∀ c ∈ l.queue.inmempoolTransactions, ∀ u ∈ c.transactions, u.status = .inmempool)
    (hpairs : l.Pairs (.cancel env id)) : (l.cancelTransaction env id).1.Mirrors := by
  have hattaches := hpairs.attaches
  obtain hkept | ⟨t, heditable, hrewrite⟩ | ⟨original, competitor, hraced, hcompetitor, hsent⟩ :=
    l.cancelTransaction_cases env id
  · rw [hkept]
    exact hl
  · obtain ⟨hfind, -⟩ := TransactionsQueue.getEditable_pending heditable
    refine rewritePending_mirrors hl (List.mem_of_find?_eq_some hfind) ?_ ?_ ?_ hrewrite
    · rfl
    · rfl
    · rfl
  · obtain ⟨-, -, heditable⟩ := raced_some hraced
    obtain ⟨c, hfind, rfl, -⟩ := TransactionsQueue.getEditable_inmempool heditable
    have hc := List.mem_of_find?_eq_some hfind
    have hcompetes := cancelCompetitor_competes hcompetitor
    rw [← hcompetes.id] at hunused
    rw [hsent]
    refine sendCompetitor_mirrors hl hunused hc rfl ?_ hcompetes.link ?_ ?_ ?_
    · exact hstatus c hc c.original (List.mem_cons_self ..)
    · exact hcompetes.relayerId.trans (hl.entries c hc).originalRelayer
    · exact hattaches _ _ _ (requested_cancel hraced hcompetitor)
    · intro _
      obtain ⟨gas, -, rfl⟩ := Option.map_eq_some_iff.mp hcompetitor
      apply marks_prepared
      · exact ⟨rfl, rfl⟩
      · intro h
        cases h

theorem replaceTransaction_mirrors (l : Locked) (env : CompeteEnv)
    (request : RelayTransactionRequest) (id : TransactionId) (hl : l.Mirrors)
    (hunused : Unused l.db l.queue env.newId)
    (hstatus : ∀ c ∈ l.queue.inmempoolTransactions, ∀ u ∈ c.transactions, u.status = .inmempool)
    (hpairs : l.Pairs (.replace env request id)) :
    (l.replaceTransaction env request id).1.Mirrors := by
  have hattaches := hpairs.attaches
  have hmarks := hpairs.marks
  obtain hkept | ⟨t, blobs, heditable, hrewrite⟩ |
      ⟨original, competitor, hraced, hcompetitor, hsent⟩ := l.replaceTransaction_cases env request id
  · rw [hkept]
    exact hl
  · obtain ⟨hfind, -⟩ := TransactionsQueue.getEditable_pending heditable
    refine rewritePending_mirrors hl (List.mem_of_find?_eq_some hfind) ?_ ?_ ?_ hrewrite
    · rfl
    · rfl
    · rfl
  · obtain ⟨-, -, heditable⟩ := raced_some hraced
    obtain ⟨c, hfind, rfl, -⟩ := TransactionsQueue.getEditable_inmempool heditable
    have hc := List.mem_of_find?_eq_some hfind
    have hcompetes := replaceCompetitor_competes hcompetitor
    have hrequested := requested_replace hraced hcompetitor
    rw [← hcompetes.id] at hunused
    rw [hsent]
    refine sendCompetitor_mirrors hl hunused hc rfl ?_ hcompetes.link ?_ ?_ ?_
    · exact hstatus c hc c.original (List.mem_cons_self ..)
    · exact hcompetes.relayerId.trans (hl.entries c hc).originalRelayer
    · exact hattaches _ _ _ hrequested
    · exact hmarks env request id c.original competitor rfl hrequested

end Compete

/-- An admission inserts a row that is not linked. -/
theorem addTransaction_mirrors (l : Locked) (env : AdmissionEnv) (toSend : TransactionToSend)
    (hl : l.Mirrors) (hunused : Unused l.db l.queue toSend.id) :
    (l.addTransaction env toSend).1.Mirrors := by
  have hfresh : toSend.id ∉ l.queue.entryIds := hunused.not_mem_entryIds
  have hinserted {r : Row} {db : Db} {audit : List Row} (h : l.db.insert r = some db)
      (hid : r.id = toSend.id) (hr : r.Plain l.queue.relayer.id) :
      l.db.Rewrites toSend.id (Row.Plain l.queue.relayer.id) { db with audit := audit } ∧
        ∃ r ∈ db.rows, r.id = toSend.id := by
    have hdb := Db.Rewrites.insert h hid hr
    refine ⟨⟨hdb.others, hdb.own, hdb.kept⟩, r, ?_, hid⟩
    unfold Db.insert at h
    split at h
    · cases h
    · cases h
      exact List.mem_append_right _ (List.mem_singleton_self _)
  have hleaves := l.addTransaction_leaves env toSend
  generalize (l.addTransaction env toSend).1 = l' at hleaves ⊢
  cases hleaves with
  | kept => exact ⟨hl.nodup, hl.entries, hl.pending, hl.unlinked, hl.apart, hl.mined⟩
  | rejected manager hid _ h =>
    unfold Db.transactionFailedOnSend at h
    obtain ⟨inserted, hinsert, rfl⟩ := Option.map_eq_some_iff.mp h
    obtain ⟨hdb, -⟩ := hinserted hinsert hid ⟨rfl, rfl⟩
    refine hl.of_plain hfresh hunused.mined ?_ ?_ ?_ hdb ?_
    · rfl
    · rfl
    · rfl
    · intro u hu
      exact .inl ⟨hu, hunused.pending u hu⟩
  | saved manager hid hrelayer _ _ hlink h =>
    unfold Db.saveTransaction at h
    obtain ⟨inserted, hinsert, rfl⟩ := Option.map_eq_some_iff.mp h
    obtain ⟨hdb, hrow⟩ := hinserted hinsert hid ⟨rfl, hlink⟩
    refine hl.of_plain hfresh hunused.mined ?_ ?_ ?_ hdb ?_
    · rfl
    · rfl
    · rfl
    · intro u hu
      rcases (List.mem_orderedInsert _).mp hu with rfl | hu
      · exact .inr ⟨hid, hlink, hrelayer, hrow⟩
      · exact .inl ⟨hu, hunused.pending u hu⟩

theorem processSingleMined_mirrors (l : Locked) (env : MinedEnv) (hl : l.Mirrors) :
    (l.processSingleMined env).1.Mirrors := by
  rcases l.processSingleMined_cases env with hkept | ⟨t, hnext, hconfirmed⟩
  · rw [hkept]
    exact hl
  · obtain ⟨hout, hother⟩ := hl.mined t (List.mem_of_getElem? hnext)
    have hdb : l.db.Rewrites t.id (fun r => r.status = .confirmed)
        (l.db.transactionConfirmed t.id env.nowWrite) :=
      Db.Rewrites.update (by intro; rfl) fun _ _ _ => rfl
    rw [hconfirmed]
    refine hl.of_frame (fun y => y = t.id) ?_ hdb.others hl.nodup ?_ ?_ ?_ hl.apart ?_
    · rfl
    · intro c hc
      refine .inl ⟨hc, ?_⟩
      rintro y hy rfl
      exact hout (List.mem_flatMap.mpr ⟨c, hc, hy⟩)
    · intro u hu
      exact .inl ⟨hu, hother u hu⟩
    · intro r hr hid hstatus
      rw [hdb.own r hr hid] at hstatus
      cases hstatus
    · intro u hu
      exact hl.mined u (List.mem_filter.mp hu).1

end Locked

end Rrelayer
