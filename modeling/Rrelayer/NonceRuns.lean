import Rrelayer.NonceManager
import Rrelayer.Lib.Machine
import Mathlib.Data.List.Perm.Basic
import Mathlib.Data.List.Nodup
import Mathlib.Order.MinMax
import Mathlib.Tactic.Ring

/-! The nonce manager over a whole run of calls: which nonces are out, and what had been reserved
and synchronised when each was handed out. -/
namespace Rrelayer

/-- The `+ 1` on a 64-bit nonce, which wraps in a release build. -/
def nextNonce (nonce : ℕ) : ℕ := (nonce + 1) % 2 ^ 64

namespace NonceManager

def getAndIncrementU64 (m : NonceManager) : ℕ × NonceManager := (m.nonce, ⟨nextNonce m.nonce⟩)

def releaseUnbroadcastNonceU64 (m : NonceManager) (nonce : ℕ) : NonceManager :=
  if m.nonce = nextNonce nonce then ⟨nonce⟩ else m

def advanceAfterPersistedReservationU64 (m : NonceManager) (nonce : ℕ) : NonceManager :=
  if nextNonce nonce > m.nonce then ⟨nextNonce nonce⟩ else m

end NonceManager

/-- A nonce that was handed out, with what the manager had been told by then. -/
structure HandedNonce where
  nonce : ℕ
  reservedBefore : List ℕ
  syncedBefore : ℕ
  deriving DecidableEq, Repr

/-- The manager and its history. -/
structure NonceHistory where
  manager : NonceManager
  /-- Handed out, and neither used nor released so far. -/
  pending : List HandedNonce
  used : List HandedNonce
  reserved : List ℕ
  /-- The largest on-chain nonce the manager was synchronised with. -/
  synced : ℕ
  deriving DecidableEq, Repr

/-- A call of the manager, or a caller that uses the nonce it was handed. -/
inductive NonceCall where
  | getAndIncrement
  | syncWithOnchainNonce (onchainNonce : ℕ)
  | advanceAfterPersistedReservation (nonce : ℕ)
  | releaseUnbroadcastNonce (handed : HandedNonce)
  | use (handed : HandedNonce)
  deriving DecidableEq, Repr

namespace NonceHistory

def new (currentNonce : ℕ) : NonceHistory := ⟨⟨currentNonce⟩, [], [], [], 0⟩

def handOut (s : NonceHistory) : HandedNonce :=
  ⟨s.manager.getAndIncrementU64.1, s.reserved, s.synced⟩

def step (s : NonceHistory) : NonceCall → NonceHistory
  | .getAndIncrement =>
      { s with manager := s.manager.getAndIncrementU64.2, pending := s.handOut :: s.pending }
  | .syncWithOnchainNonce onchainNonce =>
      { s with
        manager := s.manager.syncWithOnchainNonce onchainNonce
        synced := max s.synced onchainNonce }
  | .advanceAfterPersistedReservation nonce =>
      { s with
        manager := s.manager.advanceAfterPersistedReservationU64 nonce
        reserved := nonce :: s.reserved }
  | .releaseUnbroadcastNonce handed =>
      { s with
        manager := s.manager.releaseUnbroadcastNonceU64 handed.nonce
        pending := s.pending.erase handed }
  | .use handed => { s with pending := s.pending.erase handed, used := handed :: s.used }

/-- Nonces are 64 bits wide, and a caller uses or releases only what it was handed, once. -/
def Allowed (s : NonceHistory) : NonceCall → Prop
  | .getAndIncrement => True
  | .syncWithOnchainNonce onchainNonce => onchainNonce < 2 ^ 64
  | .advanceAfterPersistedReservation nonce => nonce < 2 ^ 64
  | .releaseUnbroadcastNonce handed => handed ∈ s.pending
  | .use handed => handed ∈ s.pending

instance (s : NonceHistory) : ∀ call, Decidable (s.Allowed call)
  | .getAndIncrement => inferInstanceAs (Decidable True)
  | .syncWithOnchainNonce onchainNonce => inferInstanceAs (Decidable (onchainNonce < 2 ^ 64))
  | .advanceAfterPersistedReservation nonce => inferInstanceAs (Decidable (nonce < 2 ^ 64))
  | .releaseUnbroadcastNonce handed => inferInstanceAs (Decidable (handed ∈ s.pending))
  | .use handed => inferInstanceAs (Decidable (handed ∈ s.pending))

/-- No addition wraps, and a release that moves the manager back leaves no reserved nonce and no
nonce below the chain's for the next caller. -/
def KeepsCounter (s : NonceHistory) : NonceCall → Prop
  | .getAndIncrement => s.manager.nonce + 1 < 2 ^ 64
  | .syncWithOnchainNonce _ => True
  | .advanceAfterPersistedReservation nonce => nonce + 1 < 2 ^ 64
  | .releaseUnbroadcastNonce handed =>
      s.manager.nonce = nextNonce handed.nonce →
        handed.nonce ∉ s.reserved ∧ s.synced ≤ handed.nonce
  | .use _ => True

instance (s : NonceHistory) : ∀ call, Decidable (s.KeepsCounter call)
  | .getAndIncrement => inferInstanceAs (Decidable (s.manager.nonce + 1 < 2 ^ 64))
  | .syncWithOnchainNonce _ => inferInstanceAs (Decidable True)
  | .advanceAfterPersistedReservation nonce => inferInstanceAs (Decidable (nonce + 1 < 2 ^ 64))
  | .releaseUnbroadcastNonce handed =>
      inferInstanceAs (Decidable (s.manager.nonce = nextNonce handed.nonce →
        handed.nonce ∉ s.reserved ∧ s.synced ≤ handed.nonce))
  | .use _ => inferInstanceAs (Decidable True)

/-- Everything handed out and not released. -/
def unreleased (s : NonceHistory) : List HandedNonce := s.pending ++ s.used

/-- No nonce is out twice, and each was free and not below the chain's when it was handed out. -/
structure Sound (s : NonceHistory) : Prop where
  distinct : (s.unreleased.map (·.nonce)).Nodup
  fresh : ∀ h ∈ s.unreleased, h.nonce ∉ h.reservedBefore
  current : ∀ h ∈ s.unreleased, h.syncedBefore ≤ h.nonce

/-- The manager is past everything that is out, reserved or synchronised. -/
structure Ahead (s : NonceHistory) : Prop where
  sound : s.Sound
  handed : ∀ h ∈ s.unreleased, h.nonce < s.manager.nonce
  reserved : ∀ n ∈ s.reserved, n < s.manager.nonce
  synced : s.synced ≤ s.manager.nonce
  fits : s.manager.nonce < 2 ^ 64

end NonceHistory

section Bounds

variable {m : NonceManager} {n : ℕ}

theorem nextNonce_of_fits (h : n + 1 < 2 ^ 64) : nextNonce n = n + 1 := Nat.mod_eq_of_lt h

/-- Below the last 64-bit number the operations are those of the unbounded manager. -/
theorem NonceManager.getAndIncrementU64_eq (h : m.nonce + 1 < 2 ^ 64) :
    m.getAndIncrementU64 = m.getAndIncrement := by
  unfold getAndIncrementU64 getAndIncrement
  rw [nextNonce_of_fits h]

theorem NonceManager.advanceAfterPersistedReservationU64_eq (h : n + 1 < 2 ^ 64) :
    m.advanceAfterPersistedReservationU64 n = m.advanceAfterPersistedReservation n := by
  unfold advanceAfterPersistedReservationU64 advanceAfterPersistedReservation
  rw [nextNonce_of_fits h]

theorem NonceManager.releaseUnbroadcastNonceU64_eq (h : n + 1 < 2 ^ 64) :
    m.releaseUnbroadcastNonceU64 n = m.releaseUnbroadcastNonce n := by
  unfold releaseUnbroadcastNonceU64 releaseUnbroadcastNonce
  rw [nextNonce_of_fits h]

/-- A release leaves the manager where it is, or takes it back by one. -/
theorem NonceManager.releaseUnbroadcastNonce_cases (m : NonceManager) (n : ℕ) :
    (m.nonce = n + 1 ∧ m.releaseUnbroadcastNonce n = ⟨n⟩) ∨
      m.releaseUnbroadcastNonce n = m := by
  unfold releaseUnbroadcastNonce
  split
  · exact .inl ⟨‹_›, rfl⟩
  · exact .inr rfl

end Bounds

namespace NonceHistory

open EventMachine

variable {s s' : NonceHistory} {handed : HandedNonce}

theorem Sound.of_perm (hp : s'.unreleased.Perm s.unreleased) (h : s.Sound) : s'.Sound where
  distinct := ((hp.map _).nodup_iff).mpr h.distinct
  fresh := fun x hx => h.fresh x (hp.mem_iff.mp hx)
  current := fun x hx => h.current x (hp.mem_iff.mp hx)

/-- With one nonce fewer out, the history is as sound as before. -/
theorem Sound.of_cons (hp : s.unreleased.Perm (handed :: s'.unreleased)) (h : s.Sound) :
    s'.Sound ∧ ∀ x ∈ s'.unreleased, x.nonce ≠ handed.nonce := by
  have hdistinct : ((handed :: s'.unreleased).map (·.nonce)).Nodup :=
    ((hp.map _).nodup_iff).mp h.distinct
  obtain ⟨hother, hdistinct⟩ := List.nodup_cons.mp hdistinct
  have hmem : ∀ x ∈ s'.unreleased, x ∈ s.unreleased := fun x hx =>
    hp.mem_iff.mpr (List.mem_cons_of_mem _ hx)
  refine ⟨⟨hdistinct, fun x hx => h.fresh x (hmem x hx),
    fun x hx => h.current x (hmem x hx)⟩, ?_⟩
  intro x hx hsame
  exact hother (List.mem_map.mpr ⟨x, hx, hsame⟩)

theorem unreleased_release (hhanded : handed ∈ s.pending) :
    s.unreleased.Perm (handed :: (s.step (.releaseUnbroadcastNonce handed)).unreleased) :=
  (List.perm_cons_erase hhanded).append_right s.used

theorem unreleased_use (hhanded : handed ∈ s.pending) :
    (s.step (.use handed)).unreleased.Perm s.unreleased := by
  have hmoved : (s.step (.use handed)).unreleased.Perm
      (handed :: (s.pending.erase handed ++ s.used)) := List.perm_middle
  exact hmoved.trans ((List.perm_cons_erase hhanded).append_right s.used).symm

theorem Ahead.getAndIncrement (h : s.Ahead) (hfits : s.manager.nonce + 1 < 2 ^ 64) :
    (s.step .getAndIncrement).Ahead := by
  have hnext : (s.step .getAndIncrement).manager.nonce = s.manager.nonce + 1 :=
    nextNonce_of_fits hfits
  constructor
  · constructor
    · apply List.nodup_cons.mpr
      refine ⟨?_, h.sound.distinct⟩
      intro hmem
      obtain ⟨x, hx, hsame⟩ := List.mem_map.mp hmem
      have hbelow := h.handed x hx
      rw [hsame] at hbelow
      exact Nat.lt_irrefl _ hbelow
    · intro x hx
      rcases List.mem_cons.mp hx with rfl | hx
      · intro hreserved
        exact Nat.lt_irrefl _ (h.reserved _ hreserved)
      · exact h.sound.fresh x hx
    · intro x hx
      rcases List.mem_cons.mp hx with rfl | hx
      · exact h.synced
      · exact h.sound.current x hx
  · intro x hx
    rw [hnext]
    rcases List.mem_cons.mp hx with rfl | hx
    · exact Nat.lt_succ_self _
    · exact Nat.lt_succ_of_lt (h.handed x hx)
  · intro n hn
    rw [hnext]
    exact Nat.lt_succ_of_lt (h.reserved n hn)
  · rw [hnext]
    exact Nat.le_succ_of_le h.synced
  · rw [hnext]
    exact hfits

theorem Ahead.sync (h : s.Ahead) {onchainNonce : ℕ} (hfits : onchainNonce < 2 ^ 64) :
    (s.step (.syncWithOnchainNonce onchainNonce)).Ahead := by
  have hnext : (s.step (.syncWithOnchainNonce onchainNonce)).manager.nonce =
      max s.manager.nonce onchainNonce := NonceManager.syncWithOnchainNonce_nonce ..
  have hsame : (s.step (.syncWithOnchainNonce onchainNonce)).unreleased.Perm s.unreleased :=
    .refl _
  constructor
  · exact h.sound.of_perm hsame
  · intro x hx
    rw [hnext]
    exact lt_max_of_lt_left (h.handed x hx)
  · intro n hn
    rw [hnext]
    exact lt_max_of_lt_left (h.reserved n hn)
  · rw [hnext]
    exact max_le_max h.synced le_rfl
  · rw [hnext]
    exact max_lt h.fits hfits

theorem Ahead.advance (h : s.Ahead) {nonce : ℕ} (hfits : nonce + 1 < 2 ^ 64) :
    (s.step (.advanceAfterPersistedReservation nonce)).Ahead := by
  have hnext : (s.step (.advanceAfterPersistedReservation nonce)).manager.nonce =
      max s.manager.nonce (nonce + 1) := by
    have heq := NonceManager.advanceAfterPersistedReservationU64_eq (m := s.manager) hfits
    exact (congrArg (·.nonce) heq).trans
      (NonceManager.advanceAfterPersistedReservation_nonce ..)
  have hsame :
      (s.step (.advanceAfterPersistedReservation nonce)).unreleased.Perm s.unreleased := .refl _
  constructor
  · exact h.sound.of_perm hsame
  · intro x hx
    rw [hnext]
    exact lt_max_of_lt_left (h.handed x hx)
  · intro n hn
    rw [hnext]
    rcases List.mem_cons.mp hn with rfl | hn
    · exact lt_max_of_lt_right (Nat.lt_succ_self _)
    · exact lt_max_of_lt_left (h.reserved n hn)
  · rw [hnext]
    exact le_max_of_le_left h.synced
  · rw [hnext]
    exact max_lt h.fits hfits

/-- A release that takes the manager back must leave nothing out, reserved or synchronised at the
nonce it goes back to. -/
theorem Ahead.release (h : s.Ahead) (hhanded : handed ∈ s.pending)
    (hkeeps : s.manager.nonce = nextNonce handed.nonce →
      handed.nonce ∉ s.reserved ∧ s.synced ≤ handed.nonce) :
    (s.step (.releaseUnbroadcastNonce handed)).Ahead := by
  have hperm := unreleased_release hhanded
  obtain ⟨hsound, hother⟩ := h.sound.of_cons hperm
  have hbelow := h.handed handed (List.mem_append_left _ hhanded)
  have hfits : handed.nonce + 1 < 2 ^ 64 := Nat.lt_of_le_of_lt hbelow h.fits
  have hrest : ∀ x ∈ (s.step (.releaseUnbroadcastNonce handed)).unreleased,
      x.nonce < s.manager.nonce := fun x hx =>
    h.handed x (hperm.mem_iff.mpr (List.mem_cons_of_mem _ hx))
  have heq : (s.step (.releaseUnbroadcastNonce handed)).manager =
      s.manager.releaseUnbroadcastNonce handed.nonce :=
    NonceManager.releaseUnbroadcastNonceU64_eq hfits
  rw [nextNonce_of_fits hfits] at hkeeps
  rcases NonceManager.releaseUnbroadcastNonce_cases s.manager handed.nonce with
    ⟨hlast, hback⟩ | hstays
  · obtain ⟨hreserved, hsynced⟩ := hkeeps hlast
    rw [hback] at heq
    constructor
    · exact hsound
    · intro x hx
      have hlt := hrest x hx
      have hne := hother x hx
      rw [heq]
      show x.nonce < handed.nonce
      omega
    · intro n hn
      have hlt := h.reserved n hn
      have hne : n ≠ handed.nonce := by
        rintro rfl
        exact hreserved hn
      rw [heq]
      show n < handed.nonce
      omega
    · rw [heq]
      exact hsynced
    · rw [heq]
      exact Nat.lt_of_succ_lt hfits
  · rw [hstays] at heq
    constructor
    · exact hsound
    · rw [heq]
      exact hrest
    · rw [heq]
      exact h.reserved
    · rw [heq]
      exact h.synced
    · rw [heq]
      exact h.fits

theorem Ahead.use (h : s.Ahead) (hhanded : handed ∈ s.pending) :
    (s.step (.use handed)).Ahead where
  sound := h.sound.of_perm (unreleased_use hhanded)
  handed := fun x hx => h.handed x ((unreleased_use hhanded).mem_iff.mp hx)
  reserved := h.reserved
  synced := h.synced
  fits := h.fits

theorem Ahead.step {call : NonceCall} (h : s.Ahead) (hallowed : s.Allowed call)
    (hkeeps : s.KeepsCounter call) : (s.step call).Ahead := by
  cases call with
  | getAndIncrement => exact h.getAndIncrement hkeeps
  | syncWithOnchainNonce onchainNonce => exact h.sync hallowed
  | advanceAfterPersistedReservation nonce => exact h.advance hkeeps
  | releaseUnbroadcastNonce handed => exact h.release hallowed hkeeps
  | use handed => exact h.use hallowed

theorem new_ahead {currentNonce : ℕ} (hfits : currentNonce < 2 ^ 64) :
    (new currentNonce).Ahead where
  sound := ⟨List.nodup_nil, by simp [new, unreleased], by simp [new, unreleased]⟩
  handed := by simp [new, unreleased]
  reserved := by simp [new]
  synced := Nat.zero_le _
  fits := hfits

/-- A release outside the condition shows at once: the next nonce handed out is the reserved one,
or one below the chain's. -/
theorem release_exposes (hlast : s.manager.nonce = nextNonce handed.nonce)
    (hbad : handed.nonce ∈ s.reserved ∨ handed.nonce < s.synced) :
    ¬ ((s.step (.releaseUnbroadcastNonce handed)).step .getAndIncrement).Sound := by
  have hnext : ((s.step (.releaseUnbroadcastNonce handed)).handOut) =
      ⟨handed.nonce, s.reserved, s.synced⟩ := by
    simp [NonceHistory.step, handOut, NonceManager.getAndIncrementU64,
      NonceManager.releaseUnbroadcastNonceU64, hlast]
  have hmem : (⟨handed.nonce, s.reserved, s.synced⟩ : HandedNonce) ∈
      ((s.step (.releaseUnbroadcastNonce handed)).step .getAndIncrement).unreleased := by
    rw [← hnext]
    exact List.mem_cons_self ..
  intro hsound
  rcases hbad with hreserved | hsynced
  · exact hsound.fresh _ hmem hreserved
  · exact Nat.not_le_of_lt hsynced (hsound.current _ hmem)

/-- In a run that never takes the manager back behind a reservation or the chain, nothing is handed
out twice, and nothing that was reserved or lies below the chain's nonce. -/
theorem nonces_never_reused (currentNonce : ℕ) (hfits : currentNonce < 2 ^ 64)
    (calls later : List NonceCall)
    (hallowed : Along step Allowed (new currentNonce) (calls ++ later))
    (hkeeps : Along step KeepsCounter (new currentNonce) (calls ++ later)) :
    (run step (new currentNonce) calls).Sound := by
  have hahead : (run step (new currentNonce) calls).Ahead :=
    Along.invariant_prefix (fun s call hstep h => Ahead.step h hstep.1 hstep.2)
      (hallowed.and hkeeps) (new_ahead hfits)
  exact hahead.sound

/-- Two callers, of which the first gives its nonce back. -/
theorem nonces_never_reused_returned :
    (run step (new 7) [.getAndIncrement, .getAndIncrement,
      .releaseUnbroadcastNonce ⟨7, [], 0⟩, .syncWithOnchainNonce 8]).Sound :=
  nonces_never_reused 7 (by decide) [.getAndIncrement, .getAndIncrement,
    .releaseUnbroadcastNonce ⟨7, [], 0⟩, .syncWithOnchainNonce 8] [] (by decide) (by decide)

/-- The chain has moved past nonce 7 when its caller gives it back, and it is handed out again. -/
theorem nonce_reused_below_chain :
    ¬ ∀ (currentNonce : ℕ) (calls : List NonceCall), currentNonce < 2 ^ 64 →
      Along step Allowed (new currentNonce) calls →
      (run step (new currentNonce) calls).Sound := by
  intro h
  have hsound := h 7 [.getAndIncrement, .syncWithOnchainNonce 8,
    .releaseUnbroadcastNonce ⟨7, [], 0⟩, .getAndIncrement] (by decide) (by decide)
  have hcurrent := hsound.current ⟨7, [], 8⟩ (by decide)
  revert hcurrent
  decide

end NonceHistory
end Rrelayer
