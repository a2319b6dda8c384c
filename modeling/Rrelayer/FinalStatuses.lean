import Rrelayer.Milestones
import Rrelayer.ExclusiveCompetition
import Rrelayer.MinedPasses

/-! Transactions that are over. Once a row is mined or has a final status, it keeps what it has, and
nothing is broadcast for the transaction again. -/
namespace Rrelayer

/-- A status after which nothing is left to do for a transaction. -/
def TransactionStatus.isFinal : TransactionStatus → Bool
  | .pending | .inmempool | .mined => false
  | .confirmed | .failed | .expired | .cancelled | .dropped | .replaced => true

def Milestone.final : Milestone := ⟨TransactionStatus.isFinal, rfl, rfl⟩

/-- The transaction has left the mempool. -/
def Milestone.landed : Milestone :=
  ⟨fun status => status != .pending && status != .inmempool, rfl, rfl⟩

/-- Everything in memory waits for a final status. -/
theorem Milestone.mem_held_final {q : TransactionsQueue} {x : TransactionId} (h : x ∈ q.ids) :
    x ∈ final.held q := by
  unfold TransactionsQueue.ids at h
  rw [← List.append_assoc] at h
  exact h

theorem Milestone.mem_held_landed {q : TransactionsQueue} {x : TransactionId}
    (h : x ∈ q.waitingIds) : x ∈ landed.held q := List.mem_append_left _ h

namespace TransactionsQueues

variable {s : TransactionsQueues} {e : Event} {x : TransactionId} {r : Row}

theorem mem_ids_waiting {q : TransactionsQueue} (h : x ∈ q.waitingIds) : x ∈ q.ids := by
  unfold TransactionsQueue.ids
  rw [← List.append_assoc]
  exact List.mem_append_left _ h

/-- Everything an event touches is in memory, or is what it brings in. -/
theorem touches_ids {l : Locked} (h : touches l e x) : x ∈ e.newId ∨ x ∈ l.queue.ids := by
  cases e with
  | processMined env =>
    obtain ⟨t, ht, rfl⟩ := h
    exact .inr (List.mem_append_right _ (List.mem_append_right _ (List.mem_map_of_mem ht)))
  | _ => exact h.imp id mem_ids_waiting

/-- The row of a transaction that is not touched. -/
theorem row_untouched {l : Locked} (hr : r ∈ l.db.rows) (hout : ¬ touches l e r.id) :
    r ∈ (perform l e).db.rows := by
  have hframe := (perform_touches l e).db.rowsFrame r.id fun _ => hout
  have hmem : r ∈ l.db.rows.filter (·.id == r.id) := List.mem_filter.mpr ⟨hr, by simp⟩
  rw [← hframe] at hmem
  exact (List.mem_filter.mp hmem).1

section Final

/-- A finished transaction that memory does not hold. -/
structure Rests (s : TransactionsQueues) (r : Row) : Prop where
  key : s.db.PrimaryKey
  row : r ∈ s.db.rows
  final : r.status.isFinal = true
  dropped : ∀ q ∈ s.queue, r.id ∉ q.ids

theorem Settled.rests (h : s.Settled .final) (hr : r ∈ s.db.rows)
    (hfinal : r.status.isFinal = true) : s.Rests r := by
  refine ⟨h.key, hr, hfinal, fun q hq hmem => ?_⟩
  have hl : s.lock = some ⟨q, s.blockTimeMs, s.db, s.broadcasts⟩ := by
    unfold lock
    rw [Option.mem_def.mp hq]
    rfl
  exact (h.locked _ hl).dropped r.id ⟨r, hr, rfl, hfinal⟩ (Milestone.mem_held_final hmem)

theorem Rests.startup (h : s.Rests r) (env : StartupEnv) : (s.startup env).Rests r := by
  obtain ⟨g, hrepairs⟩ := startup_repaired s.relayer env s.db h.key
  have hkey : (s.startup env).db.PrimaryKey := hrepairs.primaryKey h.key
  have hkept : r ∈ (s.startup env).db.rows := by
    have hrows : (s.startup env).db.rows = s.db.rows.map g := hrepairs.rows
    rw [hrows]
    rcases hrepairs.changes r h.row with hsame | ⟨hpending, -, -⟩
    · exact List.mem_map.mpr ⟨r, h.row, hsame⟩
    · have hfinal := h.final
      rw [hpending] at hfinal
      cases hfinal
  refine ⟨hkey, hkept, h.final, fun q hq hmem => ?_⟩
  obtain ⟨onchainNonce, -, rfl⟩ := startupTransactionsQueues_queue hq
  obtain ⟨r', hr', hid, hopen⟩ := mem_repopulated_held (Milestone.mem_held_final hmem)
  have hfinal : Milestone.final.reached r.status = true := h.final
  rw [← row_unique hkey hr' hkept hid, hopen] at hfinal
  cases hfinal

/-- No event touches a finished transaction, a restart included. -/
theorem Rests.step (h : s.Rests r) (hnew : ∀ x ∈ e.newId, x ≠ r.id) : (s.step e).Rests r := by
  cases he : e.isRestart with
  | true =>
    cases e with
    | restart env => exact h.startup env
    | _ => cases he
  | false =>
    rcases hl : s.lock with _ | l
    · obtain ⟨hdb, hqueue⟩ := step_idle he hl
      exact ⟨hdb ▸ h.key, hdb ▸ h.row, h.final, hqueue ▸ h.dropped⟩
    · obtain ⟨hdb, hqueue⟩ := step_perform he hl
      obtain ⟨hqueue', hdb', -⟩ := lock_some hl
      have hdropped := h.dropped l.queue hqueue'
      have hout : ¬ touches l e r.id := fun hr =>
        (touches_ids hr).elim (fun hx => hnew r.id hx rfl) hdropped
      have hkey : l.db.PrimaryKey := hdb' ▸ h.key
      refine ⟨hdb ▸ (perform_touches l e).db.primaryKey hkey, ?_, h.final, fun q hq hmem => ?_⟩
      · rw [hdb]
        exact row_untouched (hdb' ▸ h.row) hout
      · obtain rfl := Option.some.inj (hqueue.symm.trans hq)
        rcases List.mem_append.mp ((perform_keeps l e).ids.subset hmem) with hmem | hmem
        · exact hnew r.id (by simpa using hmem) rfl
        · exact hdropped hmem

theorem Rests.run (h : s.Rests r) {es : List Event} (hnew : r.id ∉ newIds es) : (s.run es).Rests r ∧
    (s.run es).broadcasts.filter (·.1 == r.id) = s.broadcasts.filter (·.1 == r.id) := by
  induction es generalizing s with
  | nil => exact ⟨h, rfl⟩
  | cons e es ih =>
    rw [newIds_cons, List.mem_append, not_or] at hnew
    have hfirst : ∀ x ∈ e.newId, x ≠ r.id := by
      rintro x hx rfl
      exact hnew.1 (by simpa using hx)
    have hsilent := step_silent (fun q hq hmem => h.dropped q hq (mem_ids_waiting hmem))
      fun _ _ => hfirst
    obtain ⟨hrests, hbroadcasts⟩ := ih (h.step hfirst) hnew.2
    exact ⟨hrests, hbroadcasts.trans hsilent⟩

end Final

section Mined

/-- A row as it was, or with its confirmation. -/
def Later (r r' : Row) : Prop :=
  r' = r ∨ ∃ now, r' = { r with status := .confirmed, confirmedAt := some now }

variable {r' : Row}

theorem Later.id (h : Later r r') : r'.id = r.id := by
  rcases h with rfl | ⟨now, rfl⟩
  · rfl
  · rfl

theorem Later.confirm (h : Later r r') (now : DateTime) :
    Later r { r' with status := .confirmed, confirmedAt := some now } := by
  rcases h with rfl | ⟨before, rfl⟩
  · exact .inr ⟨now, rfl⟩
  · exact .inr ⟨now, rfl⟩

theorem Later.landed (h : Later r r') (hr : r.status = .mined) :
    Milestone.landed.reached r'.status = true := by
  rcases h with rfl | ⟨now, rfl⟩
  · rw [hr]
    rfl
  · rfl

/-- A mined transaction that does not wait. -/
structure Lies (s : TransactionsQueues) (r : Row) : Prop where
  row : ∃ r' ∈ s.db.rows, Later r r'
  dropped : ∀ q ∈ s.queue, r.id ∉ q.waitingIds

theorem Lies.startup (h : s.Lies r) (hmined : r.status = .mined) (hkey : s.db.PrimaryKey)
    (env : StartupEnv) : (s.startup env).Lies r := by
  obtain ⟨r', hr', hlater⟩ := h.row
  obtain ⟨g, hrepairs⟩ := startup_repaired s.relayer env s.db hkey
  have hlanded := hlater.landed hmined
  have hkept : r' ∈ (s.startup env).db.rows := by
    have hrows : (s.startup env).db.rows = s.db.rows.map g := hrepairs.rows
    rw [hrows]
    rcases hrepairs.changes r' hr' with hsame | ⟨hpending, -, -⟩
    · exact List.mem_map.mpr ⟨r', hr', hsame⟩
    · rw [hpending] at hlanded
      cases hlanded
  refine ⟨⟨r', hkept, hlater⟩, fun q hq hmem => ?_⟩
  obtain ⟨onchainNonce, -, rfl⟩ := startupTransactionsQueues_queue hq
  obtain ⟨open_, hopen, hid, hwaits⟩ := mem_repopulated_held (Milestone.mem_held_landed hmem)
  have hsame := row_unique (hrepairs.primaryKey hkey) hopen hkept (hid.trans hlater.id.symm)
  rw [← hsame, hwaits] at hlanded
  cases hlanded

/-- A pass over what has been mined keeps a row or confirms it. -/
theorem processMined_row {l : Locked} {env : MinedEnv} (hr : r' ∈ l.db.rows) (hlater : Later r r') :
    ∃ r'' ∈ (l.processSingleMined env).1.db.rows, Later r r'' := by
  rcases l.processSingleMined_cases env with hkept | ⟨t, -, hconfirmed⟩
  · rw [hkept]
    exact ⟨r', hr, hlater⟩
  · rw [hconfirmed]
    refine ⟨_, List.mem_map_of_mem hr, ?_⟩
    split
    · exact hlater.confirm env.nowWrite
    · exact hlater

/-- Only the confirmation touches a mined transaction. -/
theorem Lies.step (h : s.Lies r) (hmined : r.status = .mined) (hs : s.Settled .landed)
    (horderly : s.Orderly e) : (s.step e).Lies r := by
  cases he : e.isRestart with
  | true =>
    cases e with
    | restart env => exact h.startup hmined hs.key env
    | _ => cases he
  | false =>
    rcases hl : s.lock with _ | l
    · obtain ⟨hdb, hqueue⟩ := step_idle he hl
      exact ⟨hdb ▸ h.row, hqueue ▸ h.dropped⟩
    · obtain ⟨hdb, hqueue⟩ := step_perform he hl
      obtain ⟨hqueue', hdb', -⟩ := lock_some hl
      obtain ⟨r', hr', hlater⟩ := h.row
      rw [← hdb'] at hr'
      have hdropped := h.dropped l.queue hqueue'
      have hunused := unused_of_fresh horderly.fresh hl
      have hnew : r.id ∉ e.newId := fun hx => (hunused r.id hx).absent r' hr' hlater.id
      refine ⟨?_, fun q hq hmem => ?_⟩
      · rw [hdb]
        by_cases htouched : touches l e r'.id
        · cases e with
          | processMined env => exact processMined_row hr' hlater
          | restart => cases he
          | _ =>
            rw [hlater.id] at htouched
            exact (htouched.elim hnew hdropped).elim
        · exact ⟨r', row_untouched hr' htouched, hlater⟩
      · obtain rfl := Option.some.inj (hqueue.symm.trans hq)
        have hheld := (perform_steady (hs.locked l hl) hunused).shown.held_of_mem
          (Milestone.mem_held_landed hmem)
        rcases hheld with hx | hx
        · exact hnew hx
        · exact hdropped (by simpa [Milestone.held, Milestone.landed] using hx)

theorem Lies.run (h : s.Lies r) (hmined : r.status = .mined) (hs : s.Settled .landed)
    {es : List Event} (horderly : EventMachine.Along TransactionsQueues.step Orderly s es) :
    (s.run es).Lies r ∧
      (s.run es).broadcasts.filter (·.1 == r.id) = s.broadcasts.filter (·.1 == r.id) := by
  induction es generalizing s with
  | nil => exact ⟨h, rfl⟩
  | cons e es ih =>
    obtain ⟨hfirst, hrest⟩ := horderly
    obtain ⟨hlies, hbroadcasts⟩ := ih (h.step hmined hs hfirst) (hs.step hfirst) hrest
    refine ⟨hlies, hbroadcasts.trans (step_silent h.dropped ?_)⟩
    rintro l hl _ hx rfl
    obtain ⟨r', hr', hlater⟩ := h.row
    rw [← (lock_some hl).2.1] at hr'
    exact (unused_of_fresh hfirst.fresh hl _ hx).absent r' hr' hlater.id

end Mined

end TransactionsQueues
end Rrelayer
