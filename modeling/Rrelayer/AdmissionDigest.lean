import Rrelayer.AppState
import Rrelayer.ExternalIds
import Rrelayer.Lib.Encoding

/-! The bytes under the admission digest. A row keeps what was hashed; comparing the hashes is
comparing that, as long as the hash does not collide. -/
namespace Rrelayer

open Encoding

def TransactionSpeed.digestByte : TransactionSpeed → ℕ
  | .slow => 0
  | .medium => 1
  | .fast => 2
  | .super => 3

theorem TransactionSpeed.digestByte_inj {a b : TransactionSpeed}
    (h : a.digestByte = b.digestByte) : a = b := by
  cases a <;> cases b <;> first | rfl | cases h

namespace RequestDigest

def domain : List ℕ := "rrelayer-admission-v1".toList.map Char.toNat

/-- The bytes `request_digest` feeds to SHA-256. -/
def encoding (d : RequestDigest) : List ℕ :=
  domain ++ (bigEndian 20 d.toAddress ++ (bigEndian 32 d.value ++
    (counted 8 d.data ++ [d.speed.digestByte])))

/-- The ranges of an address, a `U256` and a `u64` length. -/
structure InRange (d : RequestDigest) : Prop where
  toAddress : d.toAddress < 256 ^ 20
  value : d.value < 256 ^ 32
  data : d.data.length < 256 ^ 8

/-- The encoding loses nothing. -/
theorem encoding_inj {a b : RequestDigest} (ha : a.InRange) (hb : b.InRange)
    (h : a.encoding = b.encoding) : a = b := by
  obtain ⟨-, h⟩ := peel rfl h
  obtain ⟨haddress, h⟩ := peel_bigEndian ha.toAddress hb.toAddress h
  obtain ⟨hvalue, h⟩ := peel_bigEndian ha.value hb.value h
  obtain ⟨hdata, h⟩ := peel_counted ha.data hb.data h
  have hspeed : a.speed = b.speed := TransactionSpeed.digestByte_inj (by simpa using h)
  cases a
  cases b
  simp_all

end RequestDigest

namespace RelayRequest

/-- What a send hashes; an omitted speed is `FAST`. -/
def digest (request : RelayRequest) : RequestDigest :=
  requestDigest request.toAddress request.value request.data (request.speed.getD .fast)

/-- The requests ask for the same payload at the same speed. -/
structure SamePayload (a b : RelayRequest) : Prop where
  toAddress : a.toAddress = b.toAddress
  value : a.value = b.value
  data : a.data = b.data
  speed : a.speed.getD .fast = b.speed.getD .fast

theorem samePayload_iff {a b : RelayRequest} : a.SamePayload b ↔ a.digest = b.digest := by
  unfold digest requestDigest
  constructor
  · rintro ⟨hto, hvalue, hdata, hspeed⟩
    rw [hto, hvalue, hdata, hspeed]
  · intro h
    simp only [RequestDigest.mk.injEq] at h
    obtain ⟨hto, hvalue, hdata, hspeed⟩ := h
    exact ⟨hto, hvalue, hdata, hspeed⟩

end RelayRequest

/-- The retry of a stored request with another payload is a conflict, and creates nothing. -/
theorem addTransaction_conflict {l : Locked} {env : AdmissionEnv} {toSend : TransactionToSend}
    {externalId : String} {r : Row} (hext : toSend.externalId = some externalId)
    (hread : env.read = true)
    (hfind : l.db.rows.find? (fun r => r.relayerId == l.queue.relayer.id &&
      r.externalId == some externalId) = some r)
    (hother : r.requestDigest ≠ some (Locked.toSendDigest toSend)) :
    l.addTransaction env toSend = (l, .error (.externalIdConflict externalId)) := by
  have hconflict : l.db.findAdmittedTransaction env.read l.queue.relayer.id toSend.externalId
      (Locked.toSendDigest toSend) = .error (.externalIdConflict externalId) := by
    unfold Db.findAdmittedTransaction
    rw [hext, hread]
    simp [hfind, hother]
  unfold Locked.addTransaction
  rw [hconflict]

/-- Two requests have one digest exactly when they ask for the same payload at the same speed, as
long as the hash does not collide on them; a retry of the external id with another one is a
conflict. -/
theorem admission_digest_separates {sha256 : List ℕ → List ℕ} {original retry : RelayRequest}
    (horiginal : original.digest.InRange) (hretry : retry.digest.InRange)
    (hcollision : sha256 original.digest.encoding = sha256 retry.digest.encoding →
      original.digest.encoding = retry.digest.encoding) :
    (sha256 original.digest.encoding = sha256 retry.digest.encoding ↔
      original.SamePayload retry) ∧
    ∀ (l : Locked) (env : AdmissionEnv) (id : TransactionId) (blobs : Option (List TransactionBlob))
      (externalId : String) (r : Row), retry.externalId = some externalId → env.read = true →
        l.db.rows.find? (fun r => r.relayerId == l.queue.relayer.id &&
          r.externalId == some externalId) = some r →
        r.requestDigest = some original.digest → ¬ original.SamePayload retry →
          l.addTransaction env (AppState.toSend id retry blobs) =
            (l, .error (.externalIdConflict externalId)) := by
  constructor
  · rw [RelayRequest.samePayload_iff]
    constructor
    · intro h
      exact RequestDigest.encoding_inj horiginal hretry (hcollision h)
    · intro h
      rw [h]
  · intro l env id blobs externalId r hext hread hfind hstored hother
    have hdifferent : original.digest ≠ retry.digest := mt RelayRequest.samePayload_iff.mpr hother
    apply addTransaction_conflict hext hread hfind
    rw [hstored]
    intro hsame
    exact hdifferent (Option.some.inj hsame)

/-- A request of the given amount to the zero address. -/
def digestRequest (value : TransactionValue) (blobs : Option (Except String (List TransactionBlob))) :
    RelayRequest where
  toAddress := 0
  value := value
  data := [1, 2]
  blobs := blobs
  externalId := some "k"
  speed := some .fast

/-- SHA-256 on the encodings of the amounts 7 and 8. -/
def sha256OfSevenAndEight (bytes : List ℕ) : List ℕ :=
  if bytes = (digestRequest 7 none).digest.encoding then
    [230, 193, 45, 187, 23, 173, 248, 216, 106, 214, 19, 145, 241, 5, 32, 109, 185, 20, 152, 220,
      103, 123, 99, 61, 88, 161, 134, 213, 193, 248, 166, 200]
  else
    [244, 165, 195, 22, 168, 170, 212, 32, 63, 107, 152, 217, 86, 126, 44, 145, 37, 110, 187, 145,
      148, 126, 193, 72, 223, 201, 165, 70, 4, 16, 31, 127]

theorem admission_digest_separates_amounts :
    sha256OfSevenAndEight (digestRequest 7 none).digest.encoding =
        sha256OfSevenAndEight (digestRequest 8 none).digest.encoding ↔
      (digestRequest 7 none).SamePayload (digestRequest 8 none) := by
  have hranges : ∀ value < 256, (digestRequest value none).digest.InRange := by
    intro value hvalue
    constructor
    · show 0 < 256 ^ 20
      decide
    · exact hvalue.trans_le (by decide)
    · show 2 < 256 ^ 8
      decide
  apply (admission_digest_separates (hranges 7 (by decide)) (hranges 8 (by decide)) ?_).1
  decide +kernel

/-- Requests that differ in their blobs alone. -/
theorem admission_digest_blobs : ¬ ∀ (sha256 : List ℕ → List ℕ) (a b : RelayRequest),
    Function.Injective sha256 → sha256 a.digest.encoding = sha256 b.digest.encoding →
      a.SamePayload b ∧ a.blobs = b.blobs := by
  intro hseparates
  have hblobs := (hseparates id (digestRequest 7 none) (digestRequest 7 (some (.ok [[1]])))
    Function.injective_id rfl).2
  cases hblobs

end Rrelayer
