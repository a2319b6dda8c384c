import Rrelayer.InmempoolEffect
import Rrelayer.System

/-! Passes over the mined map: each looks at one entry, whichever the map yields first. -/
namespace Rrelayer
namespace Locked

/-- The transaction is past its confirmation range and its receipt is there. -/
structure Ready (l : Locked) (env : MinedEnv) (t : Transaction) : Prop where
  elapsed : ∃ minedAt ∈ t.minedAt,
    l.queue.inConfirmedRange (TransactionsQueue.asU64 (env.now - minedAt)) = true
  receipt : ∃ hash ∈ t.knownTransactionHash, ∃ receipt, env.getReceipt hash = .ok (some receipt)

/-- The pass confirms a mined transaction, in its row and in memory. -/
def ConfirmsOne (l : Locked) (env : MinedEnv) : Prop :=
  ∃ t ∈ l.queue.minedTransactions, l.processSingleMined env =
    ({ l with
      db := l.db.transactionConfirmed t.id env.nowWrite
      queue := l.queue.moveMiningToConfirmed t.id }, .ok ⟨.success, 10⟩)

/-- A pass confirms one whenever some mined transaction is ready. -/
def DoesNotStarve (l : Locked) (env : MinedEnv) : Prop :=
  (∃ t ∈ l.queue.minedTransactions, l.Ready env t) → l.ConfirmsOne env

variable {l : Locked} {env : MinedEnv} {t : Transaction}

theorem confirmMined_ready (hready : l.Ready env t) (hwrite : env.write = true) :
    l.confirmMined env t = ({ l with
      db := l.db.transactionConfirmed t.id env.nowWrite
      queue := l.queue.moveMiningToConfirmed t.id }, .ok ⟨.success, 10⟩) := by
  obtain ⟨hash, hhash, receipt, hreceipt⟩ := hready.receipt
  unfold confirmMined
  rw [hhash]
  dsimp only
  rw [hreceipt, hwrite]
  rfl

/-- Without the receipt or the write nothing changes. -/
theorem confirmMined_unchanged (h : ¬ (env.write = true ∧
    ∃ hash ∈ t.knownTransactionHash, ∃ receipt, env.getReceipt hash = .ok (some receipt))) :
    (l.confirmMined env t).1 = l ∧ (l.confirmMined env t).2 ≠ .ok ⟨.success, 10⟩ := by
  unfold confirmMined
  cases hhash : t.knownTransactionHash with
  | none => exact ⟨rfl, fun h => by cases h⟩
  | some hash =>
    dsimp only
    rcases hreceipt : env.getReceipt hash with e | _ | receipt
    · exact ⟨rfl, fun h => by cases h⟩
    · exact ⟨rfl, fun h => by cases h⟩
    · cases hwrite : env.write with
      | false => exact ⟨rfl, fun h => by cases h⟩
      | true => exact absurd ⟨hwrite, hash, hhash, receipt, hreceipt⟩ h

/-- The pass of a picked transaction that is ready. -/
theorem processSingleMined_ready (hpick : l.queue.getNextMinedTransaction env.pick = some t)
    (hguard : env.guard = true) (hwrite : env.write = true) (hready : l.Ready env t) :
    l.ConfirmsOne env := by
  refine ⟨t, getNextMined_mem hpick, ?_⟩
  obtain ⟨minedAt, hmined, helapsed⟩ := hready.elapsed
  unfold processSingleMined
  rw [hpick]
  simp only [hguard, Bool.not_true, Bool.false_eq_true, if_false]
  rw [hmined]
  dsimp only
  rw [if_pos helapsed, confirmMined_ready hready hwrite]

/-- Any other pass changes nothing, whatever the other entries of the map are. -/
theorem processSingleMined_starved (h : ¬ (env.guard = true ∧ env.write = true ∧
    ∃ t ∈ l.queue.getNextMinedTransaction env.pick, l.Ready env t)) :
    (l.processSingleMined env).1 = l ∧ (l.processSingleMined env).2 ≠ .ok ⟨.success, 10⟩ := by
  unfold processSingleMined
  cases hpick : l.queue.getNextMinedTransaction env.pick with
  | none => exact ⟨rfl, fun h => by cases h⟩
  | some t =>
    dsimp only
    cases hguard : env.guard with
    | false => exact ⟨rfl, fun h => by cases h⟩
    | true =>
      simp only [Bool.not_true, Bool.false_eq_true, if_false]
      cases hmined : t.minedAt with
      | none => exact ⟨rfl, fun h => by cases h⟩
      | some minedAt =>
        dsimp only
        split
        · rename_i helapsed
          apply confirmMined_unchanged
          rintro ⟨hwrite, hreceipt⟩
          exact h ⟨hguard, hwrite, t, hpick, ⟨minedAt, hmined, helapsed⟩, hreceipt⟩
        · exact ⟨rfl, fun h => by cases h⟩

theorem confirmsOne_iff : l.ConfirmsOne env ↔ env.guard = true ∧ env.write = true ∧
    ∃ t ∈ l.queue.getNextMinedTransaction env.pick, l.Ready env t := by
  constructor
  · rintro ⟨t, -, hpass⟩
    by_contra hstarved
    exact (processSingleMined_starved hstarved).2 (by rw [hpass])
  · rintro ⟨hguard, hwrite, t, hpick, hready⟩
    exact processSingleMined_ready hpick hguard hwrite hready

/-- While the map yields a transaction that is not ready, pass after pass changes nothing. -/
theorem mined_passes_starve (envs : List MinedEnv) (h : ∀ env ∈ envs,
    ∀ t ∈ l.queue.getNextMinedTransaction env.pick, ¬ l.Ready env t) :
    envs.foldl (fun l env => (l.processSingleMined env).1) l = l := by
  induction envs with
  | nil => rfl
  | cons env envs ih =>
    have hstarved : (l.processSingleMined env).1 = l := by
      apply And.left
      apply processSingleMined_starved
      rintro ⟨-, -, t, hpick, hready⟩
      exact h env (List.mem_cons_self ..) t hpick hready
    rw [List.foldl_cons, hstarved]
    exact ih fun env' henv' => h env' (List.mem_cons_of_mem _ henv')

/-- The map can yield any of its entries. -/
theorem exists_pick (ht : t ∈ l.queue.minedTransactions) :
    ∃ pick, l.queue.getNextMinedTransaction pick = some t := by
  obtain ⟨i, hi, rfl⟩ := List.mem_iff_getElem.mp ht
  refine ⟨i, ?_⟩
  unfold TransactionsQueue.getNextMinedTransaction
  rw [Nat.mod_eq_of_lt hi, List.getElem?_eq_getElem hi]

/-- A pass does not starve in one order of the map exactly when nothing is ready or the entry it
meets is, and in every order exactly when nothing is ready or everything is. -/
theorem mined_pass_starves_iff (l : Locked) (env : MinedEnv) :
    (l.DoesNotStarve env ↔ (∀ t ∈ l.queue.minedTransactions, ¬ l.Ready env t) ∨
      env.guard = true ∧ env.write = true ∧
        ∃ t ∈ l.queue.getNextMinedTransaction env.pick, l.Ready env t) ∧
    ((∀ pick, l.DoesNotStarve { env with pick := pick }) ↔
      (∀ t ∈ l.queue.minedTransactions, ¬ l.Ready env t) ∨
        env.guard = true ∧ env.write = true ∧ ∀ t ∈ l.queue.minedTransactions, l.Ready env t) := by
  have hone (env : MinedEnv) : l.DoesNotStarve env ↔
      (∀ t ∈ l.queue.minedTransactions, ¬ l.Ready env t) ∨ env.guard = true ∧ env.write = true ∧
        ∃ t ∈ l.queue.getNextMinedTransaction env.pick, l.Ready env t := by
    unfold DoesNotStarve
    rw [confirmsOne_iff, imp_iff_not_or]
    push Not
    rfl
  -- Whether a transaction is ready does not depend on the order.
  have hready (pick : ℕ) (t : Transaction) : l.Ready { env with pick := pick } t ↔ l.Ready env t :=
    ⟨fun h => ⟨h.elapsed, h.receipt⟩, fun h => ⟨h.elapsed, h.receipt⟩⟩
  refine ⟨hone env, ?_⟩
  constructor
  · intro hall
    by_cases hnone : ∀ t ∈ l.queue.minedTransactions, ¬ l.Ready env t
    · exact .inl hnone
    right
    have hpicked (pick : ℕ) := ((hone _).mp (hall pick)).resolve_left
      (by simpa [hready] using hnone)
    refine ⟨(hpicked 0).1, (hpicked 0).2.1, ?_⟩
    intro t ht
    obtain ⟨pick, hpick⟩ := exists_pick ht
    obtain ⟨-, -, t', hpick', hready'⟩ := hpicked pick
    cases hpick.symm.trans hpick'
    exact (hready pick t).mp hready'
  · rintro (hnone | ⟨hguard, hwrite, hall⟩) pick
    · exact (hone _).mpr (.inl (by simpa [hready] using hnone))
    · rw [hone]
      by_cases hempty : l.queue.minedTransactions = []
      · left
        rw [hempty]
        simp
      · right
        refine ⟨hguard, hwrite, ?_⟩
        have hlength := List.length_pos_iff.mpr hempty
        have hlt := Nat.mod_lt pick hlength
        exact ⟨_, List.getElem?_eq_getElem hlt,
          (hready pick _).mpr (hall _ (List.getElem_mem hlt))⟩

end Locked

namespace TransactionsQueues

/-- A pass that finds the active transaction of the front mined at the time. -/
def minedPoll (now : DateTime) : InmempoolEnv :=
  { servedInmempool [] (.ok ()) (servedClient [] 0) [] with
    pollReceipt := fun hash => .ok (some ⟨true, hash, 21000, none, none⟩)
    now := now }

/-- Two payments, mined a hundred seconds apart. -/
def minedTwice : List Event := [
  .add (servedAdd 0) (payment 1 5),
  .add (servedAdd 0) (payment 2 6),
  .processPending (servedPending (.ok ()) (servedClient [] 0) []),
  .processPending (servedPending (.ok ()) (servedClient [] 0) []),
  .processInmempool (minedPoll 0),
  .processInmempool (minedPoll 100000)]

/-- The map yields the second payment, which has just been mined. -/
def secondFirst : MinedEnv where
  guard := true
  pick := 1
  now := 100000
  getReceipt hash := .ok (some ⟨true, hash, 21000, none, none⟩)
  write := true
  nowWrite := 100000

theorem mined_pass_starves_fails : ¬ ∀ es env, ∀ l ∈ (freshRelayer.run es).lock,
    l.DoesNotStarve env := by
  intro hpass
  have hpayments : ((freshRelayer.run minedTwice).lock.map fun l =>
      (l.queue.minedTransactions.map fun t => (t.minedAt, t.knownTransactionHash.isSome),
        l.queue.inConfirmedRange 100000, (l.processSingleMined secondFirst).2)) =
      some ([(some 0, true), (some 100000, true)], true, .ok (.other .notConfirmedYet none)) := by
    decide +kernel
  obtain ⟨l, hlock, hseen⟩ := Option.map_eq_some_iff.mp hpayments
  obtain ⟨hmined, hseen⟩ := Prod.mk.inj hseen
  obtain ⟨hrange, hanswer⟩ := Prod.mk.inj hseen
  obtain ⟨t, ht, hseen⟩ : ∃ t ∈ l.queue.minedTransactions,
      (t.minedAt, t.knownTransactionHash.isSome) = (some 0, true) := by
    apply List.mem_map.mp
    rw [hmined]
    exact List.mem_cons_self ..
  obtain ⟨hat, hhash⟩ := Prod.mk.inj hseen
  obtain ⟨hash, hhash⟩ := Option.isSome_iff_exists.mp hhash
  obtain ⟨u, _, hconfirms⟩ := hpass minedTwice secondFirst l hlock
    ⟨t, ht, ⟨0, hat, hrange⟩, hash, hhash, _, rfl⟩
  rw [hconfirms] at hanswer
  cases hanswer

end TransactionsQueues
end Rrelayer
