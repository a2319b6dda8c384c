import Mathlib.Data.Nat.Notation
import Mathlib.Order.Lattice

/-! The next nonce a relayer hands out. The protocol keeps account nonces below `2 ^ 64 - 1`, so
the additions of the source do not wrap. -/
namespace Rrelayer

structure NonceManager where
  nonce : ℕ
  deriving DecidableEq, Repr

namespace NonceManager

/-- The nonce handed out and the manager after it. -/
def getAndIncrement (m : NonceManager) : ℕ × NonceManager := (m.nonce, ⟨m.nonce + 1⟩)

def syncWithOnchainNonce (m : NonceManager) (onchainNonce : ℕ) : NonceManager :=
  if onchainNonce > m.nonce then ⟨onchainNonce⟩ else m

def getCurrentNonce (m : NonceManager) : ℕ := m.nonce

def releaseUnbroadcastNonce (m : NonceManager) (nonce : ℕ) : NonceManager :=
  if m.nonce = nonce + 1 then ⟨nonce⟩ else m

/-- Moves past a reservation that is already committed to the database. -/
def advanceAfterPersistedReservation (m : NonceManager) (nonce : ℕ) : NonceManager :=
  if nonce + 1 > m.nonce then ⟨nonce + 1⟩ else m

@[simp] theorem syncWithOnchainNonce_nonce (m : NonceManager) (n : ℕ) :
    (m.syncWithOnchainNonce n).nonce = max m.nonce n := by
  unfold syncWithOnchainNonce
  split <;> simp <;> omega

@[simp] theorem advanceAfterPersistedReservation_nonce (m : NonceManager) (n : ℕ) :
    (m.advanceAfterPersistedReservation n).nonce = max m.nonce (n + 1) := by
  unfold advanceAfterPersistedReservation
  split <;> simp <;> omega

/-- A reservation released at once leaves no trace. -/
@[simp] theorem release_getAndIncrement (m : NonceManager) :
    m.getAndIncrement.2.releaseUnbroadcastNonce m.getAndIncrement.1 = m := by
  simp [getAndIncrement, releaseUnbroadcastNonce]

end NonceManager
end Rrelayer
