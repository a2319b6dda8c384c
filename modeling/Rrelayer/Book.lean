import Rrelayer.Transaction
import Rrelayer.Lib.Allocation

/-! The abstract queue: which transaction holds which nonce, and under which recorded hash. An
action says what an operation does to it; prices, payloads and rows are left out. -/
namespace Rrelayer

/-- A live transaction as far as nonces are concerned. -/
structure Held where
  id : TransactionId
  nonce : ℕ
  hash : Option TransactionHash

/-- An in-mempool transaction with the competitor that races it. -/
structure Entry where
  original : Held
  competitor : Option Held

namespace Entry

def active (e : Entry) : Held := e.competitor.getD e.original

def members (e : Entry) : List Held := e.original :: e.competitor.toList

def nonces (e : Entry) : List ℕ := e.members.map (·.nonce)

/-- The member with this id changed, the original before the competitor. -/
def update (e : Entry) (id : TransactionId) (f : Held → Held) : Entry :=
  if e.original.id = id then { e with original := f e.original }
  else { e with competitor := e.competitor.map fun c => if c.id = id then f c else c }

/-- A changed entry has the changed member in the place of one with that id. -/
theorem mem_update {e : Entry} {id : TransactionId} {f : Held → Held} {h : Held}
    (hm : h ∈ (e.update id f).members) :
    h ∈ e.members ∨ ∃ h₀ ∈ e.members, h₀.id = id ∧ h = f h₀ := by
  unfold update at hm
  split at hm
  · rename_i hid
    rcases List.mem_cons.mp hm with rfl | hm
    · exact .inr ⟨e.original, List.mem_cons_self .., hid, rfl⟩
    · exact .inl (List.mem_cons_of_mem _ hm)
  · rcases List.mem_cons.mp hm with rfl | hm
    · exact .inl (List.mem_cons_self ..)
    · simp only [Option.mem_toList, Option.map_eq_some_iff] at hm
      obtain ⟨c, hc, rfl⟩ := hm
      have hmem : c ∈ e.members := by simp [members, hc]
      split
      · rename_i hid
        exact .inr ⟨c, hmem, hid, rfl⟩
      · exact .inl hmem

/-- Writing the same fields twice is writing them once. -/
theorem update_update {e : Entry} {id : TransactionId} {f : Held → Held}
    (hid : ∀ h, (f h).id = h.id) (hf : ∀ h, f (f h) = f h) :
    (e.update id f).update id f = e.update id f := by
  obtain ⟨original, competitor⟩ := e
  by_cases h : original.id = id
  · simp [update, h, hid, hf]
  · rcases competitor with _ | c
    · simp [update, h]
    · by_cases hc : c.id = id <;> simp [update, h, hc, hid, hf]

/-- The active transaction's id is always found. -/
theorem exists_mem_update_active (e : Entry) (f : Held → Held) :
    ∃ h ∈ e.members, h.id = e.active.id ∧ f h ∈ (e.update e.active.id f).members := by
  unfold update
  split
  · rename_i hid
    exact ⟨e.original, List.mem_cons_self .., hid, List.mem_cons_self ..⟩
  · rename_i hid
    cases hc : e.competitor with
    | none => simp [active, hc] at hid
    | some c => exact ⟨c, by simp [members, hc], by simp [active, hc], by simp [members, active, hc]⟩

end Entry

structure Book where
  next : ℕ
  pending : List (TransactionId × ℕ)
  inmempool : List Entry

/-- What an operation does to the book.
`refuse` and `reserve` carry the new id and the chain's nonce, `launch` and `record` the hash a
transaction is recorded with, `attempt` and `attach` the id of a competitor, the moves the
transaction and its new nonce, `resolve` the hash whose receipt decided the entry. -/
inductive Action where
  | keep
  | refuse (id : TransactionId) (onchainNonce : ℕ)
  | reserve (id : TransactionId) (onchainNonce : ℕ)
  | launch (id : TransactionId) (hash : TransactionHash)
  | attempt (id : TransactionId) (nonce : ℕ)
  | attach (id : TransactionId) (hash : TransactionHash)
  | record (hash : TransactionHash)
  | movePending (id : TransactionId) (newNonce : ℕ)
  | moveInmempool (id : TransactionId) (newNonce : ℕ)
  | resolve (hash : TransactionHash)

/-- The nonce an action brings in: one read off the chain, or one assigned after such a read. -/
def Action.newNonce : Action → Option ℕ
  | .refuse _ m | .reserve _ m | .movePending _ m | .moveInmempool _ m => some m
  | _ => none

namespace Book

/-- Each live transaction with its nonce. -/
def live (b : Book) : List (TransactionId × ℕ) :=
  b.pending ++ b.inmempool.flatMap fun e => e.members.map fun h => (h.id, h.nonce)

/-- Every pending transaction is a holder, and every in-mempool entry is one. -/
def table (b : Book) : Allocation.Table where
  next := b.next
  holders := b.pending.map (fun p => [p.2]) ++ b.inmempool.map Entry.nonces

inductive Step (b : Book) : Action → Book → Prop where
  | keep : Step b .keep b
  | refuse {id : TransactionId} {m : ℕ} : Step b (.refuse id m) { b with next := max b.next m }
  | reserve {id : TransactionId} {m : ℕ} {ps : List (TransactionId × ℕ)}
      (hp : ps.Perm ((id, max b.next m) :: b.pending)) :
      Step b (.reserve id m) ⟨max b.next m + 1, ps, b.inmempool⟩
  | launch {id : TransactionId} {n : ℕ} {hash : TransactionHash} {ps : List (TransactionId × ℕ)}
      (hhead : b.pending = (id, n) :: ps) :
      Step b (.launch id hash) ⟨b.next, ps, b.inmempool ++ [⟨⟨id, n, some hash⟩, none⟩]⟩
  | attempt {id : TransactionId} {e : Entry} (he : e ∈ b.inmempool) :
      Step b (.attempt id e.original.nonce) b
  | attach {id : TransactionId} {hash : TransactionHash} {e : Entry} {es : List Entry}
      (hfront : b.inmempool = e :: es) (hhash : hash.nonce = e.original.nonce) :
      Step b (.attach id hash)
        ⟨b.next, b.pending, ⟨e.original, some ⟨id, e.original.nonce, some hash⟩⟩ :: es⟩
  | record {hash : TransactionHash} {e : Entry} {es : List Entry}
      (hfront : b.inmempool = e :: es) (hhash : hash.nonce = e.active.nonce) :
      Step b (.record hash) ⟨b.next, b.pending,
        e.update e.active.id (fun h => { h with hash := some hash }) :: es⟩
  | movePending {id : TransactionId} {n m : ℕ} {ps ps' : List (TransactionId × ℕ)}
      (hhead : b.pending = (id, n) :: ps) (hm : b.next ≤ m) (hp : ps'.Perm ((id, m) :: ps)) :
      Step b (.movePending id m) ⟨m + 1, ps', b.inmempool⟩
  | moveInmempool {m : ℕ} {e : Entry} {es : List Entry}
      (hfront : b.inmempool = e :: es) (hm : b.next ≤ m) :
      Step b (.moveInmempool e.active.id m) ⟨m + 1, b.pending,
        e.update e.active.id (fun h => { h with nonce := m }) :: es⟩
  | resolve {hash : TransactionHash} {e : Entry} {es : List Entry}
      (hfront : b.inmempool = e :: es) (hhash : e.active.hash = some hash) :
      Step b (.resolve hash) ⟨b.next, b.pending, es⟩

/-- The nonces an action may write for a transaction. -/
def Writes (b : Book) (a : Action) (x : TransactionId) (n : ℕ) : Prop :=
  (x, n) ∈ b.live ∨
  match a with
  | .refuse id m => x = id ∧ n = m
  | .reserve id m => x = id ∧ n = max b.next m
  | .attempt id m | .movePending id m | .moveInmempool id m => x = id ∧ n = m
  | .attach id hash => x = id ∧ n = hash.nonce
  | _ => False

/-- The nonces an action may broadcast a transaction at. -/
def Sends (b : Book) (a : Action) (x : TransactionId) (n : ℕ) : Prop :=
  (x, n) ∈ b.live ∨
  match a with
  | .attempt id m => x = id ∧ n = m
  | .attach id hash => x = id ∧ n = hash.nonce
  | _ => False

/-- The numbers an action takes away from their holders are permitted to be lost. -/
def Permits (lost : ℕ → Prop) (b : Book) : Action → Prop
  | .refuse _ m | .reserve _ m => ∀ n, b.next ≤ n → n < m → lost n
  | .movePending _ m =>
      (∀ n, b.next ≤ n → n < m → lost n) ∧ ∀ p ∈ b.pending.head?, lost p.2
  | .moveInmempool _ m =>
      (∀ n, b.next ≤ n → n < m → lost n) ∧
        ∀ e ∈ b.inmempool.head?, ∀ n ∈ e.nonces,
          n ∉ (e.update e.active.id fun h => { h with nonce := m }).nonces → lost n
  | .attach _ _ => ∀ e ∈ b.inmempool.head?, ∀ n ∈ e.nonces, n ≠ e.original.nonce → lost n
  | .resolve _ => ∀ e ∈ b.inmempool.head?, ∀ n ∈ e.nonces, lost n
  | .keep | .launch _ _ | .attempt _ _ | .record _ => True

theorem mem_live {b : Book} {x : TransactionId} {n : ℕ} :
    (x, n) ∈ b.live ↔ (x, n) ∈ b.pending ∨
      ∃ e ∈ b.inmempool, ∃ h ∈ e.members, h.id = x ∧ h.nonce = n := by
  simp [live]

/-- Updating the nonce of one id leaves every member's nonce but that one's. -/
theorem nonces_update_subset (e : Entry) (id : TransactionId) (m : ℕ) :
    (e.update id fun h => { h with nonce := m }).nonces ⊆ m :: e.nonces := by
  intro n hn
  obtain ⟨h, hh, rfl⟩ := List.mem_map.mp hn
  rcases Entry.mem_update hh with hmem | ⟨h₀, _, _, rfl⟩
  · exact List.mem_cons_of_mem _ (List.mem_map_of_mem hmem)
  · exact List.mem_cons_self ..

theorem nonces_update_hash (e : Entry) (id : TransactionId) (hash : TransactionHash) :
    (e.update id fun h => { h with hash := some hash }).nonces = e.nonces := by
  unfold Entry.update Entry.nonces Entry.members
  split
  · rfl
  · cases e.competitor with
    | none => rfl
    | some c => simp only [Option.map_some, Option.toList_some]; split <;> rfl

variable {b b' : Book} {a : Action}

/-- Whatever is live after an action was written by it. -/
theorem Step.live (h : Step b a b') {x : TransactionId} {n : ℕ} (hx : (x, n) ∈ b'.live) :
    b.Writes a x n := by
  have hentry {e : Entry} {f : Held → Held} (he : e ∈ b.inmempool)
      (hid : ∀ h, (f h).id = h.id) {k : Held} (hk : k ∈ (e.update e.active.id f).members) :
      (k.id, k.nonce) ∈ b.live ∨ k.id = e.active.id ∧ ∃ k₀, k = f k₀ ∧ (k₀.id, k₀.nonce) ∈ b.live := by
    rcases Entry.mem_update hk with hmem | ⟨k₀, hk₀, hk₀id, rfl⟩
    · exact .inl (mem_live.mpr (.inr ⟨e, he, k, hmem, rfl, rfl⟩))
    · exact .inr ⟨(hid k₀).trans hk₀id, k₀, rfl, mem_live.mpr (.inr ⟨e, he, k₀, hk₀, rfl, rfl⟩)⟩
  rcases mem_live.mp hx with hp | ⟨e', he', k, hk, rfl, rfl⟩
  · cases h with
    | keep | refuse | attempt | attach | record | moveInmempool | resolve =>
      exact .inl (mem_live.mpr (.inl hp))
    | reserve hperm =>
      rcases List.mem_cons.mp (hperm.mem_iff.mp hp) with heq | hp
      · exact .inr (Prod.ext_iff.mp heq)
      · exact .inl (mem_live.mpr (.inl hp))
    | launch hhead => exact .inl (mem_live.mpr (.inl (hhead ▸ List.mem_cons_of_mem _ hp)))
    | movePending hhead _ hperm =>
      rcases List.mem_cons.mp (hperm.mem_iff.mp hp) with heq | hp
      · exact .inr (Prod.ext_iff.mp heq)
      · exact .inl (mem_live.mpr (.inl (hhead ▸ List.mem_cons_of_mem _ hp)))
  · have hold (he : e' ∈ b.inmempool) : b.Writes a k.id k.nonce :=
      .inl (mem_live.mpr (.inr ⟨e', he, k, hk, rfl, rfl⟩))
    cases h with
    | keep | refuse | attempt | reserve | movePending => exact hold he'
    | @launch id n' hash ps hhead =>
      rcases List.mem_append.mp he' with he' | he'
      · exact hold he'
      · rw [List.mem_singleton.mp he'] at hk
        rw [List.mem_singleton.mp hk]
        exact .inl (mem_live.mpr (.inl (hhead ▸ List.mem_cons_self ..)))
    | @attach id hash e es hfront hhash =>
      rcases List.mem_cons.mp he' with rfl | he'
      · rcases List.mem_cons.mp hk with rfl | hk
        · exact .inl (mem_live.mpr (.inr ⟨e, hfront ▸ List.mem_cons_self .., e.original,
            List.mem_cons_self .., rfl, rfl⟩))
        · rw [Option.toList_some, List.mem_singleton] at hk
          subst hk
          exact .inr ⟨rfl, hhash.symm⟩
      · exact hold (hfront ▸ List.mem_cons_of_mem _ he')
    | @record hash e es hfront =>
      rcases List.mem_cons.mp he' with rfl | he'
      · rcases hentry (f := fun h => { h with hash := some hash })
          (hfront ▸ List.mem_cons_self ..) (fun _ => rfl) hk with hl | ⟨_, k₀, rfl, hl⟩
        · exact .inl hl
        · exact .inl hl
      · exact hold (hfront ▸ List.mem_cons_of_mem _ he')
    | @moveInmempool m e es hfront =>
      rcases List.mem_cons.mp he' with rfl | he'
      · rcases hentry (f := fun h => { h with nonce := m })
          (hfront ▸ List.mem_cons_self ..) (fun _ => rfl) hk with hl | ⟨hid, k₀, rfl, _⟩
        · exact .inl hl
        · exact .inr ⟨hid, rfl⟩
      · exact hold (hfront ▸ List.mem_cons_of_mem _ he')
    | @resolve hash e es hfront => exact hold (hfront ▸ List.mem_cons_of_mem _ he')

/-- An action moves the numbers of the table as an allocation may. -/
theorem Step.allocation {lost : ℕ → Prop} (h : Step b a b') (hl : Permits lost b a) :
    Allocation.Steps lost b.table b'.table := by
  have hfrontTable {e : Entry} {es : List Entry} (hf : b.inmempool = e :: es) :
      b.table.holders.Perm (e.nonces :: (b.pending.map (fun p => [p.2]) ++ es.map Entry.nonces)) := by
    simp only [table, hf, List.map_cons]
    exact List.perm_middle
  have hraise {m : ℕ} (hm : ∀ n, b.next ≤ n → n < m → lost n) :
      Allocation.Step lost b.table ⟨max b.next m, b.table.holders⟩ :=
    .raise (Nat.le_max_left ..) fun n (h₁ : b.next ≤ n) h₂ => hm n h₁ (by omega)
  cases h with
  | keep | attempt => exact .refl
  | refuse => exact .single (hraise hl)
  | @reserve id m ps hperm =>
    have hreserve := (hperm.map fun p => [p.2]).append_right (b.inmempool.map Entry.nonces)
    exact .tail (.single (hraise hl)) (.reserve (t := ⟨max b.next m, _⟩) hreserve)
  | @launch id n hash ps hhead =>
    refine Allocation.Steps.of_perm ?_
    simp only [hhead, List.map_cons, List.map_append, List.map_nil, List.cons_append]
    rw [← List.append_assoc]
    exact List.perm_append_singleton ..
  | @attach id hash e es hfront hhash =>
    refine .single (.narrow (K := [e.original.nonce, e.original.nonce]) (hfrontTable hfront)
      List.perm_middle ?_ ?_)
    · intro n hn
      have hn : n = e.original.nonce := by simpa using hn
      exact List.mem_map.mpr ⟨e.original, List.mem_cons_self .., hn.symm⟩
    · intro n hn hne
      exact hl e (by simp [hfront]) n hn fun h => hne (by simp [h])
  | @record hash e es hfront =>
    simp only [table, hfront, List.map_cons, nonces_update_hash]
    exact .refl
  | @movePending id n m ps ps' hhead hm hperm =>
    refine .single (.move (H := [n]) (K := [m])
      (R := ps.map (fun p => [p.2]) ++ b.inmempool.map Entry.nonces) hm ?_ ?_
      (List.mem_singleton_self _) ?_ hl.1 ?_)
    · simp only [table, hhead, List.map_cons, List.cons_append]
      exact .refl _
    · exact (hperm.map fun p => [p.2]).append_right _
    · intro k hk
      exact List.mem_singleton.mp hk ▸ List.mem_cons_self ..
    · intro k hk _
      rw [List.mem_singleton.mp hk]
      exact hl.2 (id, n) (by simp [hhead])
  | @moveInmempool m e es hfront hm =>
    refine .single (.move hm (hfrontTable hfront) List.perm_middle ?_
      (nonces_update_subset ..) hl.1 (hl.2 e (by simp [hfront])))
    obtain ⟨h, _, _, hmem⟩ := e.exists_mem_update_active fun h => { h with nonce := m }
    exact List.mem_map.mpr ⟨_, hmem, rfl⟩
  | @resolve hash e es hfront hhash =>
    exact .single (.drop (hfrontTable hfront) (.refl _) (hl e (by simp [hfront])))

end Book
end Rrelayer
