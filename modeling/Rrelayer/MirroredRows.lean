import Rrelayer.TrackedRuns
import Mathlib.Data.List.Perm.Basic

/-! Rows and entries that mirror each other: what a startup reads back is the in-mempool queue as
memory has it, with the pairing and the kind of each race. -/
namespace Rrelayer

/-- The payload shows the kind of the race it competes in. -/
def CompetitionType.Marks : CompetitionType → Transaction → Prop
  | .cancel, t => t.isNoop = true ∧ t.toAddress = t.fromAddress
  | .replace, t => t.isNoop = false ∧ t.toAddress ≠ t.fromAddress ∧ ¬ (t.value = 0 ∧ t.data = [])

theorem CompetitionType.Marks.typeOf {type : CompetitionType} {t : Transaction}
    (h : type.Marks t) : competitionTypeOf t = type := by
  cases type with
  | cancel => simp [competitionTypeOf, h.1]
  | replace =>
    obtain ⟨hnoop, -, hpayload⟩ := h
    have hshape : (t.value == 0 && t.data.isEmpty) = false := by
      simpa [Bool.and_eq_false_iff] using hpayload
    simp [competitionTypeOf, hnoop, hshape]

namespace Db

/-- There is a row of the id, and it has the property. -/
def Member (db : Db) (x : TransactionId) (P : Row → Prop) : Prop :=
  (∃ r ∈ db.rows, r.id = x) ∧ ∀ r ∈ db.rows, r.id = x → P r

/-- The rows of other ids stay, and the rows of `x` have the property. -/
structure Rewrites (x : TransactionId) (P : Row → Prop) (db db' : Db) : Prop where
  others : ∀ r, r.id ≠ x → (r ∈ db'.rows ↔ r ∈ db.rows)
  own : ∀ r ∈ db'.rows, r.id = x → P r
  kept : (∃ r ∈ db.rows, r.id = x) → ∃ r ∈ db'.rows, r.id = x

variable {db db' db'' : Db} {x y : TransactionId} {P Q : Row → Prop}

theorem Rewrites.refl (h : ∀ r ∈ db.rows, r.id = x → P r) : Rewrites x P db db :=
  ⟨fun _ _ => Iff.rfl, h, id⟩

theorem Rewrites.trans (h : Rewrites x P db db') (h' : Rewrites x Q db' db'') :
    Rewrites x Q db db'' :=
  ⟨fun r hr => (h'.others r hr).trans (h.others r hr), h'.own, fun hx => h'.kept (h.kept hx)⟩

theorem Rewrites.mono (h : Rewrites x P db db') (hPQ : ∀ r, P r → Q r) : Rewrites x Q db db' :=
  ⟨h.others, fun r hr hid => hPQ r (h.own r hr hid), h.kept⟩

theorem Rewrites.update {f g : Row → Row} (hid : ∀ r, (f r).id = r.id)
    (hP : ∀ r ∈ db.rows, r.id = x → P (f r)) : Rewrites x P db ((db.update x f).log x g) := by
  have hrows : ((db.update x f).log x g).rows = db.rows.map fun r => if r.id == x then f r else r :=
    rfl
  have hmem {r' : Row} : r' ∈ ((db.update x f).log x g).rows ↔
      ∃ r ∈ db.rows, (if r.id == x then f r else r) = r' := by
    rw [hrows, List.mem_map]
  constructor
  · intro r hr
    rw [hmem]
    constructor
    · rintro ⟨r₀, hr₀, heq⟩
      split at heq
      · rename_i hx
        rw [← heq, hid] at hr
        exact absurd (eq_of_beq hx) hr
      · rwa [← heq]
    · intro hin
      refine ⟨r, hin, if_neg ?_⟩
      simpa using hr
  · intro r hr hx
    obtain ⟨r₀, hr₀, heq⟩ := hmem.mp hr
    split at heq
    · rename_i hx₀
      rw [← heq]
      exact hP r₀ hr₀ (eq_of_beq hx₀)
    · rename_i hx₀
      rw [← heq] at hx
      exact absurd hx (by simpa using hx₀)
  · rintro ⟨r, hr, hx⟩
    refine ⟨f r, hmem.mpr ⟨r, hr, if_pos (by simpa using hx)⟩, ?_⟩
    rw [hid, hx]

theorem Rewrites.insert {r : Row} (h : db.insert r = some db') (hid : r.id = x) (hP : P r) :
    Rewrites x P db db' := by
  unfold Db.insert at h
  split at h
  · cases h
  · rename_i hfree
    cases h
    have hnone : ∀ r₀ ∈ db.rows, r₀.id ≠ x := by
      intro r₀ hr₀ hx
      apply hfree
      simp only [Bool.or_eq_true]
      left
      unfold row
      exact List.find?_isSome.mpr ⟨r₀, hr₀, by simp [hx, hid]⟩
    constructor
    · intro r₀ hr₀
      simp only [List.mem_append, List.mem_singleton, or_iff_left_iff_imp]
      rintro rfl
      exact absurd hid hr₀
    · intro r₀ hr₀ hx
      rcases List.mem_append.mp hr₀ with hr₀ | hr₀
      · exact absurd hx (hnone r₀ hr₀)
      · rw [List.mem_singleton.mp hr₀]
        exact hP
    · intro _
      exact ⟨r, List.mem_append_right _ (List.mem_singleton_self _), hid⟩

theorem Member.of_rewrites (h : db.Member y P) (hdb : Rewrites x Q db db') (hne : y ≠ x) :
    db'.Member y P := by
  obtain ⟨⟨r, hr, hid⟩, hall⟩ := h
  refine ⟨⟨r, (hdb.others r (hid ▸ hne)).mpr hr, hid⟩, ?_⟩
  intro r' hr' hid'
  exact hall r' ((hdb.others r' (hid' ▸ hne)).mp hr') hid'

theorem Rewrites.member (h : Rewrites x P db db') (hx : ∃ r ∈ db.rows, r.id = x) :
    db'.Member x P := ⟨h.kept hx, h.own⟩

end Db

/-- A row in the relayer's mempool with the link. -/
structure Row.InMempool (relayerId : RelayerId) (link : Option TransactionId) (r : Row) : Prop where
  relayerId : r.relayerId = relayerId
  status : r.status = .inmempool
  link : r.cancelledByTransactionId = link

/-- A row of the relayer without a link. -/
structure Row.Plain (relayerId : RelayerId) (r : Row) : Prop where
  relayerId : r.relayerId = relayerId
  link : r.cancelledByTransactionId = none

/-- The rows of an entry's transactions say what the entry is. -/
structure Mirrored (db : Db) (relayerId : RelayerId) (c : CompetitiveTransaction) : Prop where
  original : db.Member c.original.id (Row.InMempool relayerId (c.competitive.map (·.1.id)))
  originalLink : c.original.cancelledByTransactionId = c.competitive.map (·.1.id)
  originalRelayer : c.original.relayerId = relayerId
  competitor : ∀ p ∈ c.competitive,
    db.Member p.1.id (fun r => r.InMempool relayerId none ∧ p.2.Marks r.toTransaction) ∧
      p.1.cancelledByTransactionId = none ∧ p.1.relayerId = relayerId ∧ p.2.Marks p.1

def CompetitiveTransaction.ids (c : CompetitiveTransaction) : List TransactionId :=
  c.transactions.map (·.id)

def TransactionsQueue.entryIds (q : TransactionsQueue) : List TransactionId :=
  q.inmempoolTransactions.flatMap (·.ids)

/-- The pairing of an entry and the kind of its race. -/
def CompetitiveTransaction.race (c : CompetitiveTransaction) :
    TransactionId × Option (TransactionId × CompetitionType) :=
  (c.original.id, c.competitive.map fun p => (p.1.id, p.2))

theorem race_ids {c : CompetitiveTransaction} :
    c.ids = c.race.1 :: (c.race.2.map (·.1)).toList := by
  obtain ⟨original, competitive⟩ := c
  cases competitive <;> rfl

theorem mem_entryIds {q : TransactionsQueue} {x : TransactionId} :
    x ∈ q.entryIds ↔ q.Holds x := by
  simp [TransactionsQueue.entryIds, TransactionsQueue.Holds, CompetitiveTransaction.ids]

theorem Unused.absent {db : Db} {q : TransactionsQueue} {x : TransactionId} (h : Unused db q x) :
    ∀ r ∈ db.rows, r.id ≠ x := by
  intro r hr hid
  have hmissing := List.find?_eq_none.mp h.row r hr
  simp [hid] at hmissing

theorem Unused.not_mem_entryIds {db : Db} {q : TransactionsQueue} {x : TransactionId}
    (h : Unused db q x) : x ∉ q.entryIds := by
  rw [mem_entryIds]
  rintro ⟨c, hc, u, hu, hid⟩
  exact h.sent c hc u hu hid

section Reconstruct

variable {db : Db} {q : TransactionsQueue}

/-- The rows of the relayer with the status. -/
theorem mem_byStatus {relayerId : RelayerId} {status : TransactionStatus} {t : Transaction} :
    t ∈ db.getTransactionsByStatusForRelayer relayerId status ↔
      ∃ r ∈ db.rows, r.relayerId = relayerId ∧ r.status = status ∧ r.toTransaction = t := by
  unfold Db.getTransactionsByStatusForRelayer Db.orderByNonce
  simp only [List.mem_map, List.mem_insertionSort, List.mem_filter, Bool.and_eq_true, beq_iff_eq]
  constructor
  · rintro ⟨r, ⟨hr, hrelayer, hstatus⟩, rfl⟩
    exact ⟨r, hr, hrelayer, hstatus, rfl⟩
  · rintro ⟨r, hr, hrelayer, hstatus, rfl⟩
    exact ⟨r, ⟨hr, hrelayer, hstatus⟩, rfl⟩

/-- A transaction is in one entry only. -/
theorem entry_unique (hnodup : q.entryIds.Nodup) {c d : CompetitiveTransaction} {x : TransactionId}
    (hc : c ∈ q.inmempoolTransactions) (hd : d ∈ q.inmempoolTransactions) (hxc : x ∈ c.ids)
    (hxd : x ∈ d.ids) : c = d := by
  obtain ⟨-, hdisjoint⟩ := List.nodup_flatMap.mp hnodup
  by_contra hne
  have hsymm : Std.Symm (Function.onFun List.Disjoint CompetitiveTransaction.ids) :=
    ⟨fun _ _ h _ hb ha => h ha hb⟩
  have hapart : List.Disjoint c.ids d.ids := List.Pairwise.forall hdisjoint hc hd hne
  exact hapart hxc hxd

theorem exists_competitor {c : CompetitiveTransaction} {u : Transaction}
    (hu : u ∈ (c.competitive.map (·.1)).toList) : ∃ p ∈ c.competitive, p.1 = u := by
  obtain ⟨original, _ | p⟩ := c
  · cases hu
  · exact ⟨p, rfl, (List.mem_singleton.mp hu).symm⟩

theorem competitor_mem_ids {c : CompetitiveTransaction} {p : Transaction × CompetitionType}
    (hp : p ∈ c.competitive) : p.1.id ∈ c.ids := by
  rw [race_ids]
  unfold CompetitiveTransaction.race
  rw [Option.mem_def.mp hp]
  simp

theorem original_mem_ids (c : CompetitiveTransaction) : c.original.id ∈ c.ids :=
  List.mem_cons_self ..

/-- The relayer's rows in the mempool are members of the mirrored entries, and linked so. -/
theorem mirrored_member (hentries : ∀ c ∈ q.inmempoolTransactions, Mirrored db q.relayer.id c)
    (hcovered : ∀ x, Db.Shows q.relayer.id db x → q.Holds x) {t : Transaction}
    (ht : t ∈ db.getTransactionsByStatusForRelayer q.relayer.id .inmempool) :
    ∃ c ∈ q.inmempoolTransactions,
      (t.id = c.original.id ∧ t.cancelledByTransactionId = c.competitive.map (·.1.id)) ∨
        ∃ p ∈ c.competitive, t.id = p.1.id ∧ t.cancelledByTransactionId = none ∧
          competitionTypeOf t = p.2 := by
  obtain ⟨r, hr, hrelayer, hstatus, rfl⟩ := mem_byStatus.mp ht
  obtain ⟨c, hc, u, hu, hid⟩ := hcovered r.id ⟨r, hr, rfl, hrelayer, hstatus⟩
  have hmirrored := hentries c hc
  refine ⟨c, hc, ?_⟩
  rcases List.mem_cons.mp hu with rfl | hu
  · exact .inl ⟨hid.symm, (hmirrored.original.2 r hr hid.symm).link⟩
  · right
    obtain ⟨p, hp, rfl⟩ := exists_competitor hu
    obtain ⟨⟨-, hrows⟩, -⟩ := hmirrored.competitor p hp
    obtain ⟨hin, hmarks⟩ := hrows r hr hid.symm
    exact ⟨p, hp, hid.symm, hin.link, hmarks.typeOf⟩

theorem mirrored_linked (hentries : ∀ c ∈ q.inmempoolTransactions, Mirrored db q.relayer.id c)
    (hcovered : ∀ x, Db.Shows q.relayer.id db x → q.Holds x) {t : Transaction}
    (ht : t ∈ db.getTransactionsByStatusForRelayer q.relayer.id .inmempool) {z : TransactionId}
    (hlink : t.cancelledByTransactionId = some z) :
    ∃ c ∈ q.inmempoolTransactions, t.id = c.original.id ∧ ∃ p ∈ c.competitive, p.1.id = z := by
  obtain ⟨c, hc, ⟨hid, hown⟩ | ⟨p, -, -, hnone, -⟩⟩ := mirrored_member hentries hcovered ht
  · rw [hlink] at hown
    obtain ⟨p, hp, hz⟩ := Option.map_eq_some_iff.mp hown.symm
    exact ⟨c, hc, hid, p, hp, hz⟩
  · rw [hlink] at hnone
    cases hnone

end Reconstruct

end Rrelayer
