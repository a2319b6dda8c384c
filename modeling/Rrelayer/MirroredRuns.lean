import Rrelayer.MirroredRaces
import Rrelayer.FailedCompetitors

/-! Runs in which a restart reads the in-mempool queue back as it was. -/
namespace Rrelayer

namespace Db

/-- A change that rewrites pending rows only, and none of their links. -/
structure Repairs (db db' : Db) (g : Row → Row) : Prop where
  rows : db'.rows = db.rows.map g
  changes : ∀ r ∈ db.rows, g r = r ∨ r.status = .pending ∧ (g r).id = r.id ∧
    (g r).cancelledByTransactionId = r.cancelledByTransactionId

/-- One repair after the other. -/
def Repaired (db db' : Db) : Prop := db.PrimaryKey → ∃ g, Repairs db db' g

variable {db db' db'' : Db}

theorem Repairs.primaryKey {g : Row → Row} (h : Repairs db db' g) (hkey : db.PrimaryKey) :
    db'.PrimaryKey := by
  unfold PrimaryKey at hkey ⊢
  have hids : db'.rows.map (·.id) = db.rows.map (·.id) := by
    rw [h.rows, List.map_map]
    apply List.map_congr_left
    intro r hr
    rcases h.changes r hr with hsame | ⟨-, hid, -⟩
    · exact congrArg (·.id) hsame
    · exact hid
  rw [hids]
  exact hkey

theorem Repaired.refl (db : Db) : Repaired db db :=
  fun _ => ⟨id, by simp, fun _ _ => .inl rfl⟩

theorem Repaired.trans (h : Repaired db db') (h' : Repaired db' db'') : Repaired db db'' := by
  intro hkey
  obtain ⟨g, hg⟩ := h hkey
  obtain ⟨g', hg'⟩ := h' (hg.primaryKey hkey)
  refine ⟨g' ∘ g, ?_, ?_⟩
  · rw [hg'.rows, hg.rows, List.map_map]
  · intro r hr
    have hmem : g r ∈ db'.rows := by
      rw [hg.rows]
      exact List.mem_map_of_mem hr
    rcases hg.changes r hr with hsame | ⟨hstatus, hid, hlink⟩
    · rw [hsame] at hmem
      show g' (g r) = r ∨ r.status = .pending ∧ (g' (g r)).id = r.id ∧
        (g' (g r)).cancelledByTransactionId = r.cancelledByTransactionId
      rw [hsame]
      exact hg'.changes r hmem
    · right
      refine ⟨hstatus, ?_⟩
      rcases hg'.changes (g r) hmem with hsame | ⟨-, hid', hlink'⟩
      · show (g' (g r)).id = r.id ∧ _
        rw [Function.comp_apply, hsame]
        exact ⟨hid, hlink⟩
      · exact ⟨hid'.trans hid, hlink'.trans hlink⟩

/-- A rewrite of the row of a pending transaction. -/
theorem Repaired.update {x : TransactionId} {r₀ : Row} {f g : Row → Row}
    (hrow : db.row x = some r₀) (hstatus : r₀.status = .pending) (hid : ∀ r, (f r).id = r.id)
    (hlink : ∀ r, (f r).cancelledByTransactionId = r.cancelledByTransactionId) :
    Repaired db ((db.update x f).log x g) := by
  intro hkey
  refine ⟨fun r => if r.id == x then f r else r, rfl, ?_⟩
  intro r hr
  by_cases hx : r.id = x
  · right
    have hsame : r = r₀ := by
      have hfound := row_of_mem hkey hr
      rw [hx, hrow] at hfound
      exact (Option.some.inj hfound).symm
    simp only [hx, BEq.rfl, if_true]
    exact ⟨hsame ▸ hstatus, hid r |>.trans hx, hlink r⟩
  · left
    simp [hx]

theorem repairPoisoned_repaired (db : Db) (relayerId : RelayerId) :
    Repaired db (db.repairPoisonedPendingTransactionsForRelayer relayerId) := by
  intro _
  refine ⟨_, rfl, ?_⟩
  intro r _
  dsimp only
  split
  · rename_i hpoisoned
    unfold poisoned at hpoisoned
    simp only [Bool.and_eq_true, beq_iff_eq] at hpoisoned
    exact .inr ⟨hpoisoned.1.1.1.2, rfl, rfl⟩
  · exact .inl rfl

theorem recoverLanded_repaired (db : Db) (relayerId : RelayerId) (id : TransactionId)
    (hash : TransactionHash) (gas : GasPriceResult) (blobGas : Option BlobGasPriceResult)
    (legacy : Bool) (now : DateTime) : Repaired db
      (db.recoverLandedTransactionAttempt relayerId id hash gas blobGas legacy now).2 := by
  unfold recoverLandedTransactionAttempt
  dsimp only
  split
  · rename_i r hr
    split
    · rename_i hguard
      simp only [Bool.and_eq_true, beq_iff_eq] at hguard
      exact Repaired.update hr hguard.1.1.2 (by intro; rfl) (by intro; rfl)
    · exact .refl db
  · exact .refl db

theorem repairAbsent_repaired (db : Db) (relayerId : RelayerId) (chainNonce : ℕ)
    (absent : List (TransactionId × List TransactionHash)) (reason : String) (now : DateTime) :
    Repaired db (db.repairAbsentPendingTransactionsForRelayer relayerId chainNonce absent reason
      now) := by
  unfold repairAbsentPendingTransactionsForRelayer
  induction absent generalizing db with
  | nil => exact .refl db
  | cons entry absent ih =>
    have hfirst : Repaired db (repairAbsentOne relayerId chainNonce reason now db entry) := by
      unfold repairAbsentOne
      dsimp only
      split
      · rename_i r hr
        split
        · rename_i hguard
          unfold absentGuard at hguard
          simp only [Bool.and_eq_true, beq_iff_eq] at hguard
          exact Repaired.update hr hguard.1.1.1.1.1.2 (by intro; rfl) (by intro; rfl)
        · exact .refl db
      · exact .refl db
    exact hfirst.trans (ih _)

end Db

section Startup

variable (relayer : Relayer) (env : StartupEnv)

theorem repairCandidates_repaired (chainNonce : ℕ) (db : Db) (ts : List Transaction) :
    Db.Repaired db (repairCandidates relayer env chainNonce db ts).1 := by
  induction ts generalizing db with
  | nil => exact .refl db
  | cons t ts ih =>
    have hfirst : Db.Repaired db (repairCandidate relayer env chainNonce db t).1 := by
      unfold repairCandidate
      split
      · exact .refl db
      · dsimp only
        split
        · exact .refl db
        · split
          · exact .refl db
          · split
            · exact .refl db
            · exact .refl db
          · split
            · exact .refl db
            · split
              · exact .refl db
              · rename_i attempt _ _ gas _ _
                have hrecovered := db.recoverLanded_repaired relayer.id t.id attempt.hash gas
                  attempt.sentWithBlobGas (!relayer.eip1559Enabled) env.nowRepair
                split
                · rename_i heq
                  rw [heq] at hrecovered
                  exact hrecovered
                · rename_i heq
                  rw [heq] at hrecovered
                  exact hrecovered
    unfold repairCandidates
    split
    · rename_i heq
      rw [heq] at hfirst
      exact hfirst
    · rename_i db₁ absent heq
      rw [heq] at hfirst
      have hrest := ih db₁
      split
      · rename_i heq'
        rw [heq'] at hrest
        exact hfirst.trans hrest
      · rename_i heq'
        rw [heq'] at hrest
        exact hfirst.trans hrest

theorem startup_repaired (db : Db) :
    Db.Repaired db (startupTransactionsQueues relayer env db).1 := by
  have hrecorded (db : Db) :
      Db.Repaired db (repairRecordedAttemptsForRelayer relayer env db).1 := by
    unfold repairRecordedAttemptsForRelayer
    split
    · exact .refl db
    · rename_i chainNonce _
      split
      · exact .refl db
      · have hcandidates := repairCandidates_repaired relayer env chainNonce db
          (db.getPendingTransactionsWithAttemptEvidenceForRelayer relayer.id)
        split
        · rename_i heq
          rw [heq] at hcandidates
          exact hcandidates
        · rename_i db₁ absent heq
          rw [heq] at hcandidates
          split
          · exact hcandidates
          · split
            · exact hcandidates
            · exact hcandidates.trans (db₁.repairAbsent_repaired relayer.id chainNonce absent
                absentRepairReason env.nowRepair)
  have hrepair : Db.Repaired db (startupRepair relayer env db).1 := by
    unfold startupRepair
    split
    · exact .refl db
    · have hpoisoned := db.repairPoisoned_repaired relayer.id
      have hattempts := hrecorded (db.repairPoisonedPendingTransactionsForRelayer relayer.id)
      split
      · rename_i heq
        rw [heq] at hattempts
        exact hpoisoned.trans hattempts
      · rename_i heq
        rw [heq] at hattempts
        exact hpoisoned.trans hattempts
  unfold startupTransactionsQueues
  split
  · exact .refl db
  · split
    · rename_i heq
      rw [heq] at hrepair
      exact hrepair
    · rename_i heq
      rw [heq] at hrepair
      split
      · exact hrepair
      · split
        · exact hrepair
        · exact hrepair

end Startup

/-- The links between the relayer's in-mempool rows pair each original with one competitor, whose
payload shows the kind of the race. -/
structure RowsPaired (db : Db) (relayerId : RelayerId) : Prop where
  linked : ∀ r ∈ db.rows, r.relayerId = relayerId → r.status = .inmempool →
    ∀ z, r.cancelledByTransactionId = some z → ∃ r' ∈ db.rows, r'.id = z ∧
      r'.InMempool relayerId none ∧ ∃ type : CompetitionType, type.Marks r'.toTransaction
  unique : ∀ r ∈ db.rows, r.relayerId = relayerId → r.status = .inmempool →
    ∀ r' ∈ db.rows, r'.relayerId = relayerId → r'.status = .inmempool →
      ∀ z, r.cancelledByTransactionId = some z → r'.cancelledByTransactionId = some z → r.id = r'.id
  unlinked : ∀ r ∈ db.rows, r.status = .pending → r.cancelledByTransactionId = none

section Paired

variable {db db' : Db} {relayerId : RelayerId}

theorem row_unique (hkey : db.PrimaryKey) {r r' : Row} (hr : r ∈ db.rows) (hr' : r' ∈ db.rows)
    (hid : r.id = r'.id) : r = r' := by
  have hfound := Db.row_of_mem hkey hr
  rw [hid, Db.row_of_mem hkey hr'] at hfound
  exact (Option.some.inj hfound).symm

theorem RowsPaired.repaired {g : Row → Row} (h : RowsPaired db relayerId)
    (hrepairs : db.Repairs db' g) : RowsPaired db' relayerId := by
  have hbefore : ∀ r' ∈ db'.rows, r' ∈ db.rows ∨ r'.cancelledByTransactionId = none := by
    intro r' hr'
    rw [hrepairs.rows] at hr'
    obtain ⟨r, hr, rfl⟩ := List.mem_map.mp hr'
    rcases hrepairs.changes r hr with hsame | ⟨hstatus, -, hlink⟩
    · rw [hsame]
      exact .inl hr
    · exact .inr (hlink.trans (h.unlinked r hr hstatus))
  have hlinkedBefore {r' : Row} {z : TransactionId} (hr' : r' ∈ db'.rows)
      (hlink : r'.cancelledByTransactionId = some z) : r' ∈ db.rows := by
    rcases hbefore r' hr' with hr | hnone
    · exact hr
    · rw [hlink] at hnone
      cases hnone
  constructor
  · intro r hr hrelayer hstatus z hlink
    obtain ⟨r', hr', hid, hin, hmarks⟩ := h.linked r (hlinkedBefore hr hlink) hrelayer hstatus z hlink
    refine ⟨r', ?_, hid, hin, hmarks⟩
    rw [hrepairs.rows]
    rcases hrepairs.changes r' hr' with hsame | ⟨hpending, -⟩
    · exact List.mem_map.mpr ⟨r', hr', hsame⟩
    · rw [hin.status] at hpending
      cases hpending
  · intro r hr hrelayer hstatus r' hr' hrelayer' hstatus' z hlink hlink'
    exact h.unique r (hlinkedBefore hr hlink) hrelayer hstatus r' (hlinkedBefore hr' hlink') hrelayer'
      hstatus' z hlink hlink'
  · intro r hr hstatus
    rcases hbefore r hr with hr | hnone
    · exact h.unlinked r hr hstatus
    · exact hnone

/-- Entries that mirror all the rows in the mempool pair them. -/
theorem Locked.Mirrors.rowsPaired {l : Locked} (h : l.Mirrors) (htracked : l.Tracked) :
    RowsPaired l.db l.queue.relayer.id := by
  have horiginal {r : Row} {z : TransactionId} (hr : r ∈ l.db.rows)
      (hrelayer : r.relayerId = l.queue.relayer.id) (hstatus : r.status = .inmempool)
      (hlink : r.cancelledByTransactionId = some z) :
      ∃ c ∈ l.queue.inmempoolTransactions, r.id = c.original.id ∧
        ∃ p ∈ c.competitive, p.1.id = z := by
    have ht : r.toTransaction ∈
        l.db.getTransactionsByStatusForRelayer l.queue.relayer.id .inmempool :=
      mem_byStatus.mpr ⟨r, hr, hrelayer, hstatus, rfl⟩
    exact mirrored_linked h.entries htracked ht hlink
  constructor
  · intro r hr hrelayer hstatus z hlink
    obtain ⟨c, hc, -, p, hp, rfl⟩ := horiginal hr hrelayer hstatus hlink
    obtain ⟨⟨⟨r', hr', hid⟩, hrows⟩, -⟩ := (h.entries c hc).competitor p hp
    obtain ⟨hin, hmarks⟩ := hrows r' hr' hid
    exact ⟨r', hr', hid, hin, p.2, hmarks⟩
  · intro r hr hrelayer hstatus r' hr' hrelayer' hstatus' z hlink hlink'
    obtain ⟨c, hc, hid, p, hp, hz⟩ := horiginal hr hrelayer hstatus hlink
    obtain ⟨c', hc', hid', p', hp', hz'⟩ := horiginal hr' hrelayer' hstatus' hlink'
    have hmem : p.1.id ∈ c'.ids := by
      rw [hz, ← hz']
      exact competitor_mem_ids hp'
    obtain rfl := entry_unique h.nodup hc hc' (competitor_mem_ids hp) hmem
    exact hid.trans hid'.symm
  · exact h.unlinked

theorem RowsPaired.flatLinks (h : RowsPaired db relayerId) (hkey : db.PrimaryKey) :
    FlatLinks (db.getTransactionsByStatusForRelayer relayerId .inmempool) := by
  intro a ha b _ hlink c hc hclink
  obtain ⟨ra, hra, -, -, rfl⟩ := mem_byStatus.mp ha
  obtain ⟨rc, hrc, hrelayer, hstatus, rfl⟩ := mem_byStatus.mp hc
  obtain ⟨r', hr', hid, hin, -⟩ := h.linked rc hrc hrelayer hstatus _ hclink
  have hsame : r' = ra := row_unique hkey hr' hra hid
  have hnone := hin.link
  rw [hsame] at hnone
  rw [hnone] at hlink
  cases hlink

/-- An entry that is read back mirrors its rows, and one without competitor is not linked to. -/
theorem RowsPaired.opens (h : RowsPaired db relayerId) (hkey : db.PrimaryKey) {t : Transaction}
    {c : CompetitiveTransaction}
    (ht : t ∈ db.getTransactionsByStatusForRelayer relayerId .inmempool)
    (hopens : Opens (db.getTransactionsByStatusForRelayer relayerId .inmempool) t c) :
    Mirrored db relayerId c ∧ (c.competitive = none →
      ∀ r ∈ db.rows, r.relayerId = relayerId → r.status = .inmempool →
        r.cancelledByTransactionId ≠ some c.original.id) := by
  obtain ⟨r, hr, howner, hstatus, rfl⟩ := mem_byStatus.mp ht
  cases hopens with
  | @paired id competitor hlink hfind =>
    obtain ⟨rc, hrc, -, -, rfl⟩ := mem_byStatus.mp (List.mem_of_find?_eq_some hfind)
    obtain ⟨r', hr', hid, hin, type, hmarks⟩ := h.linked r hr howner hstatus id hlink
    have hfound : rc.id = id := by simpa using List.find?_some hfind
    obtain rfl : r' = rc := row_unique hkey hr' hrc (hid.trans hfound.symm)
    have htype : competitionTypeOf r'.toTransaction = type := hmarks.typeOf
    refine ⟨⟨⟨⟨r, hr, rfl⟩, ?_⟩, rfl, howner, ?_⟩, fun hnone => nomatch hnone⟩
    · intro r₀ hr₀ hid₀
      obtain rfl : r₀ = r := row_unique hkey hr₀ hr hid₀
      refine ⟨howner, hstatus, ?_⟩
      rw [hlink, ← hid]
      rfl
    · rintro p ⟨⟩
      refine ⟨⟨⟨r', hr', rfl⟩, ?_⟩, hin.link, hin.relayerId, ?_⟩
      · intro r₀ hr₀ hid₀
        obtain rfl : r₀ = r' := row_unique hkey hr₀ hr' hid₀
        refine ⟨hin, ?_⟩
        dsimp only
        rw [htype]
        exact hmarks
      · dsimp only
        rw [htype]
        exact hmarks
  | @dangling id hlink hfind =>
    obtain ⟨r', hr', hid, hin, -⟩ := h.linked r hr howner hstatus id hlink
    have hmissing := List.find?_eq_none.mp hfind r'.toTransaction
      (mem_byStatus.mpr ⟨r', hr', hin.relayerId, hin.status, rfl⟩)
    exact absurd hid (by simpa using hmissing)
  | single hlink hunlinked =>
    refine ⟨⟨⟨⟨r, hr, rfl⟩, ?_⟩, hlink, howner, fun p hp => nomatch hp⟩, ?_⟩
    · intro r₀ hr₀ hid₀
      obtain rfl : r₀ = r := row_unique hkey hr₀ hr hid₀
      exact ⟨howner, hstatus, hlink⟩
    · intro _ r₀ hr₀ howner₀ hstatus₀
      exact hunlinked r₀.toTransaction (mem_byStatus.mpr ⟨r₀, hr₀, howner₀, hstatus₀, rfl⟩)

/-- A transaction of a mirrored entry has a row in the mempool. -/
theorem Mirrored.shows {c : CompetitiveTransaction} (h : Mirrored db relayerId c) {x : TransactionId}
    (hx : x ∈ c.ids) : Db.Shows relayerId db x := by
  rw [race_ids] at hx
  rcases List.mem_cons.mp hx with rfl | hx
  · obtain ⟨⟨r, hr, hid⟩, hrows⟩ := h.original
    have hin := hrows r hr hid
    exact ⟨r, hr, hid, hin.relayerId, hin.status⟩
  · obtain ⟨p, hp, rfl⟩ : ∃ p ∈ c.competitive, p.1.id = x := by
      unfold CompetitiveTransaction.race at hx
      rcases hcompetitive : c.competitive with _ | p
      · rw [hcompetitive] at hx
        cases hx
      · rw [hcompetitive] at hx
        exact ⟨p, rfl, (List.mem_singleton.mp hx).symm⟩
    obtain ⟨⟨r, hr, hid⟩, hrows⟩ := (h.competitor p hp).1
    obtain ⟨hin, -⟩ := hrows r hr hid
    exact ⟨r, hr, hid, hin.relayerId, hin.status⟩

theorem Mirrored.distinct {c : CompetitiveTransaction} (h : Mirrored db relayerId c)
    {p : Transaction × CompetitionType} (hp : p ∈ c.competitive) : c.original.id ≠ p.1.id := by
  intro hsame
  obtain ⟨⟨r, hr, hid⟩, hrows⟩ := h.original
  have hlink := (hrows r hr hid).link
  have hnone := ((h.competitor p hp).1.2 r hr (hid.trans hsame)).1.link
  rw [hnone, Option.mem_def.mp hp] at hlink
  cases hlink

/-- The entries that are read back hold each transaction once. -/
theorem RowsPaired.entries (h : RowsPaired db relayerId) (hkey : db.PrimaryKey) :
    ((repopulateCompetitiveTransactionQueue db relayerId).flatMap (·.ids)).Nodup ∧
      ∀ c ∈ repopulateCompetitiveTransactionQueue db relayerId, Mirrored db relayerId c := by
  unfold repopulateCompetitiveTransactionQueue
  set all := db.getTransactionsByStatusForRelayer relayerId .inmempool with hall
  have hopened : ∀ c ∈ repopulateLoop all all [], Mirrored db relayerId c ∧
      (c.competitive = none → ∀ r ∈ db.rows, r.relayerId = relayerId → r.status = .inmempool →
        r.cancelledByTransactionId ≠ some c.original.id) := by
    intro c hc
    obtain ⟨t, ht, hopens⟩ := repopulateLoop_from hc
    exact h.opens hkey ht hopens
  have horiginals : ((repopulateLoop all all []).map (·.original.id)).Nodup :=
    (Db.getTransactionsByStatus_nodup hkey).sublist (repopulateLoop_originals ..)
  -- A competitor's row is the one its original is linked to.
  have hcompetitor {c d : CompetitiveTransaction} (hc : c ∈ repopulateLoop all all [])
      (hd : d ∈ repopulateLoop all all []) {q : Transaction × CompetitionType}
      (hq : q ∈ d.competitive) : c.original.id ≠ q.1.id := by
    intro hsame
    obtain ⟨hmirrored, halone⟩ := hopened c hc
    obtain ⟨hmirrored', -⟩ := hopened d hd
    obtain ⟨⟨r, hr, hid⟩, hrows⟩ := hmirrored.original
    have hlink := (hrows r hr hid).link
    rw [((hmirrored'.competitor q hq).1.2 r hr (hid.trans hsame)).1.link] at hlink
    have hnone : c.competitive = none := Option.map_eq_none_iff.mp hlink.symm
    obtain ⟨⟨r', hr', hid'⟩, hrows'⟩ := hmirrored'.original
    obtain ⟨howner, hstatus, hlinked⟩ := hrows' r' hr' hid'
    apply halone hnone r' hr' howner hstatus
    rw [hlinked, Option.mem_def.mp hq, hsame]
    rfl
  refine ⟨List.nodup_flatMap.mpr ⟨?_, ?_⟩, fun c hc => (hopened c hc).1⟩
  · intro c hc
    rw [race_ids]
    unfold CompetitiveTransaction.race
    rcases hcompetitive : c.competitive with _ | p
    · exact List.nodup_singleton _
    · have hne := (hopened c hc).1.distinct hcompetitive
      simpa using hne
  · apply List.Nodup.pairwise_of_forall_ne (horiginals.of_map _)
    intro c hc d hd hne x hxc hxd
    have hapart : c.original.id ≠ d.original.id :=
      fun hsame => hne (List.inj_on_of_nodup_map horiginals hc hd hsame)
    have hmember {e : CompetitiveTransaction} (hx : x ∈ e.ids) :
        x = e.original.id ∨ ∃ p ∈ e.competitive, x = p.1.id := by
      rw [race_ids] at hx
      unfold CompetitiveTransaction.race at hx
      rcases List.mem_cons.mp hx with hx | hx
      · exact .inl hx
      · right
        rcases hcompetitive : e.competitive with _ | p
        · rw [hcompetitive] at hx
          cases hx
        · rw [hcompetitive] at hx
          exact ⟨p, rfl, List.mem_singleton.mp hx⟩
    rcases hmember hxc with hx | ⟨p, hp, hx⟩
    · rcases hmember hxd with hx' | ⟨q, hq, hx'⟩
      · exact hapart (hx.symm.trans hx')
      · exact hcompetitor hc hd hq (hx.symm.trans hx')
    · rcases hmember hxd with hx' | ⟨q, hq, hx'⟩
      · exact hcompetitor hd hc hp (hx'.symm.trans hx)
      · obtain ⟨⟨r, hr, hid⟩, hrows⟩ := (hopened c hc).1.original
        obtain ⟨⟨r', hr', hid'⟩, hrows'⟩ := (hopened d hd).1.original
        obtain ⟨howner, hstatus, hlink⟩ := hrows r hr hid
        obtain ⟨howner', hstatus', hlink'⟩ := hrows' r' hr' hid'
        apply hapart
        rw [← hid, ← hid']
        apply h.unique r hr howner hstatus r' hr' howner' hstatus' x
        · rw [hlink, Option.mem_def.mp hp, hx]
          rfl
        · rw [hlink', Option.mem_def.mp hq, hx']
          rfl

/-- A restarted relayer mirrors its rows. -/
theorem repopulatedQueue_mirrors {l : Locked} {relayer : Relayer} {env : StartupEnv}
    {onchainNonce : ℕ} (hqueue : l.queue = repopulatedQueue relayer env l.db onchainNonce)
    (h : RowsPaired l.db relayer.id) (hkey : l.db.PrimaryKey) : l.Mirrors := by
  obtain ⟨hnodup, hentries⟩ := h.entries hkey
  have hids : l.queue.entryIds =
      (repopulateCompetitiveTransactionQueue l.db relayer.id).flatMap (·.ids) := by
    rw [hqueue]
    rfl
  have hpending : ∀ t ∈ l.queue.pendingTransactions, ∃ r ∈ l.db.rows, r.relayerId = relayer.id ∧
      r.status = .pending ∧ r.toTransaction = t := by
    intro t ht
    rw [hqueue] at ht
    exact mem_byStatus.mp ((List.mem_insertionSort fun a b : Transaction => a.nonce ≤ b.nonce).mp ht)
  have hmined : ∀ t ∈ l.queue.minedTransactions, ∃ r ∈ l.db.rows, r.relayerId = relayer.id ∧
      r.status = .mined ∧ r.toTransaction = t := by
    intro t ht
    rw [hqueue] at ht
    exact mem_byStatus.mp ht
  have hout {r : Row} (hr : r ∈ l.db.rows) (hstatus : r.status ≠ .inmempool) :
      r.id ∉ l.queue.entryIds := by
    rw [hids]
    intro hin
    obtain ⟨c, hc, hx⟩ := List.mem_flatMap.mp hin
    obtain ⟨r', hr', hid, -, hshown⟩ := (hentries c hc).shows hx
    apply hstatus
    rw [← row_unique hkey hr' hr hid]
    exact hshown
  constructor
  · rw [hids]
    exact hnodup
  · rw [hqueue]
    exact hentries
  · intro t ht
    obtain ⟨r, hr, howner, hstatus, rfl⟩ := hpending t ht
    rw [hqueue]
    refine ⟨h.unlinked r hr hstatus, howner, ⟨r, hr, rfl⟩, ?_⟩
    intro r' hr' hid
    obtain rfl : r' = r := row_unique hkey hr' hr hid
    exact ⟨howner, h.unlinked r' hr hstatus⟩
  · exact h.unlinked
  · intro t ht
    obtain ⟨r, hr, -, hstatus, rfl⟩ := hpending t ht
    apply hout hr
    rw [hstatus]
    exact fun h => nomatch h
  · intro t ht
    obtain ⟨r, hr, -, hstatus, rfl⟩ := hmined t ht
    constructor
    · apply hout hr
      rw [hstatus]
      exact fun h => nomatch h
    · intro p hp hsame
      obtain ⟨r', hr', -, hstatus', rfl⟩ := hpending p hp
      have hrow := row_unique hkey hr' hr hsame
      rw [hrow, hstatus] at hstatus'
      cases hstatus'

end Paired

namespace Locked

/-- A bump that is due keeps the kind of the race it is about. -/
def KeepsFront (l : Locked) (env : InmempoolEnv) : Prop :=
  ∀ front ∈ l.queue.inmempoolTransactions.head?,
    (∃ hash, l.polled env = some (front.getActiveTransaction, hash) ∧
      env.pollReceipt hash = .ok none) → l.bumpDue env front.getActiveTransaction = true →
        ∀ p ∈ front.competitive, l.KeepsKind env.send p.2 front.getActiveTransaction

theorem Mirrors.of_same {l l' : Locked} (h : l.Mirrors) (hqueue : l'.queue = l.queue)
    (hdb : l'.db = l.db) : l'.Mirrors := by
  obtain ⟨hnodup, hentries, hpending, hunlinked, hapart, hmined⟩ := h
  rw [← hqueue] at hnodup hentries hpending hapart hmined
  rw [← hdb] at hentries hpending hunlinked
  exact ⟨hnodup, hentries, hpending, hunlinked, hapart, hmined⟩

end Locked

namespace TransactionsQueues

/-- What an event needs so that its transactions can be read back as they are. -/
structure KeepsMirror (s : TransactionsQueues) (e : Event) : Prop where
  pairs : ∀ l ∈ s.lock, l.Pairs e
  resolution : ∀ l ∈ s.lock, ∀ env, e = .processInmempool env → l.SettlesFront env
  kinds : ∀ l ∈ s.lock, ∀ env, e = .processInmempool env → l.KeepsFront env

/-- The rows are paired, and memory mirrors them. -/
structure InMirror (s : TransactionsQueues) : Prop where
  rows : RowsPaired s.db s.relayer.id
  queue : ∀ l ∈ s.lock, l.Mirrors

variable {s : TransactionsQueues} {e : Event} {made : Made}

theorem KeepsMirror.tracks (h : s.KeepsMirror e) (hkey : (s.step e).db.PrimaryKey)
    (hrestart : ∀ env, e = .restart env → RowsPaired (s.step e).db s.relayer.id) : s.Tracks e := by
  constructor
  · intro l hl env original competitor hrequested
    exact (h.pairs l hl).attaches env original competitor hrequested
  · exact h.resolution
  · intro env he
    exact (hrestart env he).flatLinks hkey

theorem InMirror.restart_rows (h : s.InMirror) (hkey : s.db.PrimaryKey) (env : StartupEnv) :
    RowsPaired (s.step (.restart env)).db s.relayer.id := by
  obtain ⟨g, hrepairs⟩ := startup_repaired s.relayer env s.db hkey
  exact h.rows.repaired hrepairs

theorem InMirror.queue_step (h : s.InMirror) (hdurable : s.Durable made) (hproper : s.Proper e)
    (hkeeps : s.KeepsMirror e) (hkey : (s.step e).db.PrimaryKey) :
    ∀ l ∈ (s.step e).lock, l.Mirrors := by
  have hlocked {ρ : Type} {operation : Locked → Locked × ρ}
      (hstep : s.step e = s.locked operation)
      (hmirrors : ∀ l, s.lock = some l → (s.step e).db = (operation l).1.db →
        (operation l).1.Mirrors) : ∀ l ∈ (s.step e).lock, l.Mirrors := by
    rcases hlock : s.lock with _ | l
    · have hidle : s.step e = s := by rw [hstep, locked_of_none operation hlock]
      rw [hidle]
      exact h.queue
    · have hrun : s.step e = s.unlock (operation l).1 := by
        rw [hstep, locked_of_some operation hlock]
      have hafter := hmirrors l hlock (congrArg TransactionsQueues.db hrun)
      rw [hrun]
      rintro l' ⟨⟩
      exact hafter.of_same rfl rfl
  have hunused {x : TransactionId} (hx : x ∈ e.newId) : ∀ l, s.lock = some l →
      Unused l.db l.queue x := by
    intro l hlock
    obtain ⟨hq, hdb, -⟩ := lock_some hlock
    rw [hdb]
    exact hproper.newId x hx l.queue hq
  have hstatus : ∀ l, s.lock = some l → ∀ c ∈ l.queue.inmempoolTransactions, ∀ u ∈ c.transactions,
      u.status = .inmempool := by
    intro l hlock c hc u hu
    exact ((hdurable.live l.queue (lock_some hlock).1).sent c hc u hu).1
  cases e with
  | add env toSend =>
    exact hlocked rfl fun l hl _ =>
      l.addTransaction_mirrors env toSend (h.queue l hl) (hunused rfl l hl)
  | cancel env id =>
    exact hlocked rfl fun l hl _ => l.cancelTransaction_mirrors env id (h.queue l hl)
      (hunused rfl l hl) (hstatus l hl) (hkeeps.pairs l hl)
  | replace env request id =>
    exact hlocked rfl fun l hl _ => l.replaceTransaction_mirrors env request id (h.queue l hl)
      (hunused rfl l hl) (hstatus l hl) (hkeeps.pairs l hl)
  | processPending env =>
    exact hlocked rfl fun l hl _ => l.processSinglePending_mirrors env (h.queue l hl)
      (hdurable.live l.queue (lock_some hl).1).nodup
  | processInmempool env =>
    refine hlocked rfl fun l hl hdb => l.processSingleInmempool_mirrors env (h.queue l hl)
      (hstatus l hl) ?_ (hkeeps.kinds l hl env rfl)
    intro c hc u hu
    rw [← hdb]
    exact hdurable.sent_notPending hproper hl hc hu
  | processMined env => exact hlocked rfl fun l hl _ => l.processSingleMined_mirrors env (h.queue l hl)
  | restart env =>
    intro l hl
    obtain ⟨hq, hdb, -⟩ := lock_some hl
    obtain ⟨onchainNonce, -, hqueue⟩ := startupTransactionsQueues_queue hq
    have hpaired := h.restart_rows hdurable.key env
    refine @repopulatedQueue_mirrors l s.relayer env onchainNonce ?_ ?_ ?_
    · rw [hdb]
      exact hqueue
    · rw [hdb]
      exact hpaired
    · rw [hdb]
      exact hkey
  | included signed =>
    show ∀ l ∈ (s.includeSigned signed).lock, l.Mirrors
    rw [includeSigned_lock]
    exact h.queue

/-- Without a queue afterwards only a startup has changed the rows. -/
theorem InMirror.rows_offline (h : s.InMirror) (hkey : s.db.PrimaryKey)
    (hoffline : (s.step e).lock = none) : RowsPaired (s.step e).db s.relayer.id := by
  have hlocked {ρ : Type} {operation : Locked → Locked × ρ}
      (hstep : s.step e = s.locked operation) : RowsPaired (s.step e).db s.relayer.id := by
    rw [hstep] at hoffline ⊢
    rcases hlock : s.lock with _ | l
    · rw [locked_of_none operation hlock]
      exact h.rows
    · rw [locked_of_some operation hlock] at hoffline
      cases hoffline
  cases e with
  | restart env => exact h.restart_rows hkey env
  | included signed =>
    show RowsPaired (s.includeSigned signed).db s.relayer.id
    rw [includeSigned_db]
    exact h.rows
  | _ => exact hlocked rfl

theorem InMirror.step (h : s.InMirror) (hdurable : s.Durable made) (hown : s.Own)
    (htracked : s.AllTracked) (hproper : s.Proper e) (hkeeps : s.KeepsMirror e)
    (hkey : (s.step e).db.PrimaryKey) : (s.step e).InMirror ∧ (s.step e).AllTracked := by
  have hrestart : ∀ env, e = .restart env → RowsPaired (s.step e).db s.relayer.id := by
    rintro env rfl
    exact h.restart_rows hdurable.key env
  have hqueue := h.queue_step hdurable hproper hkeeps hkey
  have hafter := htracked.step hdurable (hkeeps.tracks hkey hrestart) hkey
  have hrelayer : (s.step e).relayer = s.relayer := s.step_relayer e
  refine ⟨⟨?_, hqueue⟩, hafter⟩
  rw [hrelayer]
  rcases hlock : (s.step e).lock with _ | l
  · exact h.rows_offline hdurable.key hlock
  · obtain ⟨hq, hdb, -⟩ := lock_some hlock
    have howner : l.queue.relayer = s.relayer := (hown.step l.queue hq).trans hrelayer
    have hpaired := (hqueue l hlock).rowsPaired (by
      unfold Locked.Tracked
      rw [hdb]
      exact hafter l.queue hq)
    rw [hdb, howner] at hpaired
    exact hpaired

end TransactionsQueues

end Rrelayer
