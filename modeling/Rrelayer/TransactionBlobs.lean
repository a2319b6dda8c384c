import Rrelayer.Compete
import Rrelayer.LandedAttempts

/-! Blobs as the strings of a request, and what a replacement makes of strings that are no blobs. -/
namespace Rrelayer

def bytesPerBlob : ℕ := 131072

/-- The value of an ASCII hex digit in either case. -/
def hexValue (byte : ℕ) : Option ℕ :=
  if 65 ≤ byte && byte ≤ 70 then some (byte - 65 + 10)
  else if 97 ≤ byte && byte ≤ 102 then some (byte - 97 + 10)
  else if 48 ≤ byte && byte ≤ 57 then some (byte - 48)
  else none

section Hex

-- How the hex library names a byte that is no digit, at its position.
variable (invalidCharacter : ℕ → ℕ → String)

def hexDigit (byte index : ℕ) : Except String ℕ :=
  match hexValue byte with
  | some digit => .ok digit
  | none => .error (invalidCharacter byte index)

/-- The pairs of `hex::decode`, from the one at `index` on. -/
def decodePairs : ℕ → List ℕ → Except String (List ℕ)
  | index, high :: low :: rest => do
      let h ← hexDigit invalidCharacter high index
      let l ← hexDigit invalidCharacter low (index + 1)
      let bytes ← decodePairs (index + 2) rest
      .ok ((h * 16 + l) :: bytes)
  | _, [] | _, [_] => .ok []

def hexDecode (bytes : List ℕ) : Except String (List ℕ) :=
  if bytes.length % 2 ≠ 0 then .error "Odd number of digits"
  else decodePairs invalidCharacter 0 bytes

/-- The UTF-8 bytes of a string behind its first `0x`. -/
def hexBytes (hex : String) : List ℕ :=
  (match hex.toList with
    | '0' :: 'x' :: rest => rest
    | chars => chars).flatMap fun c => (String.utf8EncodeChar c).map UInt8.toNat

def TransactionBlob.fromHex (hex : String) : Except String TransactionBlob :=
  let bytes := hexBytes hex
  if bytes.length ≠ bytesPerBlob * 2 then
    .error ("Invalid hex length for blob: expected " ++ toString (bytesPerBlob * 2) ++ ", got " ++
      toString bytes.length)
  else (hexDecode invalidCharacter bytes).mapError ("Failed to decode hex string: " ++ ·)

/-- Both branches collect the blobs up to the first that fails. -/
def blobsFromHex : List String → Except String (List TransactionBlob)
  | [] => .ok []
  | hex :: rest => do
      let blob ← TransactionBlob.fromHex invalidCharacter hex
      let blobs ← blobsFromHex rest
      .ok (blob :: blobs)

/-- The request with the blobs it carries as strings. -/
def RelayTransactionRequest.withBlobs (request : RelayTransactionRequest)
    (blobs : Option (List String)) : RelayTransactionRequest :=
  { request with blobs := blobs.map (blobsFromHex invalidCharacter) }

end Hex

/-- The string of a blob: as many digits as its bytes need, nothing else. -/
def WellFormedBlob (hex : String) : Prop :=
  (hexBytes hex).length = bytesPerBlob * 2 ∧ ∀ byte ∈ hexBytes hex, (hexValue byte).isSome = true

section Decoding

variable {invalidCharacter : ℕ → ℕ → String} {hex : String} {blob : TransactionBlob}

theorem hexDigit_ok {byte index digit : ℕ} :
    hexDigit invalidCharacter byte index = .ok digit ↔ hexValue byte = some digit := by
  unfold hexDigit
  cases hexValue byte <;> simp

/-- Digits throughout, in pairs, are what decodes. -/
theorem decodePairs_ok_iff (index : ℕ) (bytes : List ℕ) (heven : bytes.length % 2 = 0) :
    (∃ blob, decodePairs invalidCharacter index bytes = .ok blob) ↔
      ∀ byte ∈ bytes, (hexValue byte).isSome = true := by
  induction index, bytes using decodePairs.induct with
  | case1 index high low rest ih =>
    have hrest : rest.length % 2 = 0 := by
      simp only [List.length_cons] at heven
      omega
    rw [List.forall_mem_cons, List.forall_mem_cons, ← ih hrest]
    constructor
    · rintro ⟨blob, hblob⟩
      unfold decodePairs at hblob
      obtain ⟨h, hhigh, hblob⟩ := except_bind_ok hblob
      obtain ⟨l, hlow, hblob⟩ := except_bind_ok hblob
      obtain ⟨bytes, hbytes, -⟩ := except_bind_ok hblob
      exact ⟨Option.isSome_iff_exists.mpr ⟨h, hexDigit_ok.mp hhigh⟩,
        Option.isSome_iff_exists.mpr ⟨l, hexDigit_ok.mp hlow⟩, bytes, hbytes⟩
    · rintro ⟨hhigh, hlow, bytes, hbytes⟩
      obtain ⟨h, hhigh⟩ := Option.isSome_iff_exists.mp hhigh
      obtain ⟨l, hlow⟩ := Option.isSome_iff_exists.mp hlow
      refine ⟨(h * 16 + l) :: bytes, ?_⟩
      unfold decodePairs
      rw [hexDigit_ok.mpr hhigh, hexDigit_ok.mpr hlow, hbytes]
      rfl
  | case2 => simp [decodePairs]
  | case3 => simp at heven

theorem fromHex_ok_iff :
    (∃ blob, TransactionBlob.fromHex invalidCharacter hex = .ok blob) ↔ WellFormedBlob hex := by
  unfold TransactionBlob.fromHex WellFormedBlob
  dsimp only
  by_cases hlength : (hexBytes hex).length = bytesPerBlob * 2
  · have heven : (hexBytes hex).length % 2 = 0 := by
      rw [hlength]
      exact Nat.mul_mod_left _ _
    rw [if_neg (not_not_intro hlength), ← decodePairs_ok_iff 0 (hexBytes hex) heven]
    unfold hexDecode
    rw [if_neg (not_not_intro heven)]
    constructor
    · rintro ⟨blob, hblob⟩
      exact ⟨hlength, blob, mapError_ok hblob⟩
    · rintro ⟨-, blob, hblob⟩
      exact ⟨blob, by rw [hblob]; rfl⟩
  · rw [if_pos hlength]
    simp [hlength]

theorem blobsFromHex_ok_iff {blobs : List String} :
    (∃ decoded, blobsFromHex invalidCharacter blobs = .ok decoded) ↔
      ∀ hex ∈ blobs, WellFormedBlob hex := by
  induction blobs with
  | nil => simp [blobsFromHex]
  | cons hex rest ih =>
    rw [List.forall_mem_cons, ← ih, ← @fromHex_ok_iff invalidCharacter]
    constructor
    · rintro ⟨decoded, hdecoded⟩
      unfold blobsFromHex at hdecoded
      obtain ⟨blob, hblob, hdecoded⟩ := except_bind_ok hdecoded
      obtain ⟨blobs, hblobs, -⟩ := except_bind_ok hdecoded
      exact ⟨⟨blob, hblob⟩, blobs, hblobs⟩
    · rintro ⟨⟨blob, hblob⟩, blobs, hblobs⟩
      refine ⟨blob :: blobs, ?_⟩
      unfold blobsFromHex
      rw [hblob, hblobs]
      rfl

end Decoding

def EditableTransaction.transaction : EditableTransaction → Transaction
  | .pending t | .inmempool t => t

/-- The transaction asks for what the request asks for; its gas is to be estimated anew. -/
structure HasPayload (request : RelayTransactionRequest) (t : Transaction) : Prop where
  toAddress : t.toAddress = request.toAddress
  value : t.value = request.value
  data : t.data = request.data
  blobs : Locked.decodeBlobs request = .ok t.blobs
  gasLimit : t.gasLimit = none

namespace Locked

/-- The pending entry and the row of the id hold the requested payload. -/
structure Rewritten (l : Locked) (request : RelayTransactionRequest) (id : TransactionId) :
    Prop where
  entry : ∃ t, l.queue.getEditableTransactionById id = some (.pending t) ∧ HasPayload request t
  row : ∀ r ∈ l.db.row id, HasPayload request r.toTransaction

/-- A replacement of a pending transaction ends in the requested payload or in an error that
changes nothing. Blobs that are none are refused as for a transaction in the mempool. -/
structure ReplacesCleanly (l : Locked) (env : CompeteEnv) (request : RelayTransactionRequest)
    (t : Transaction) : Prop where
  noPanic : (l.replaceTransaction env request t.id).2 ≠ .error .invalidBlobs
  done : ∀ result, (l.replaceTransaction env request t.id).2 = .ok result →
    (l.replaceTransaction env request t.id).1.Rewritten request t.id
  unchanged : ∀ e, (l.replaceTransaction env request t.id).2 = .error e →
    (l.replaceTransaction env request t.id).1 = l
  agrees : ∀ (m : Locked) original, m.queue.relayer = l.queue.relayer →
    m.queue.getEditableTransactionById t.id = some (.inmempool original) →
    original.externalId = t.externalId → (∀ blobs, decodeBlobs request ≠ .ok blobs) →
    (m.replaceTransaction env request t.id).2 = (l.replaceTransaction env request t.id).2

/-- What refuses the request before its blobs are looked at. -/
def RefusesUnread (l : Locked) (env : CompeteEnv) (request : RelayTransactionRequest)
    (t : Transaction) : Prop :=
  l.queue.relayer.paused = true ∨ env.guard = false ∨
    (request.externalId.isSome && request.externalId != t.externalId) = true

variable {l : Locked} {env : CompeteEnv} {request : RelayTransactionRequest} {t : Transaction}

/-- Such a refusal is the same for both kinds of transaction. -/
theorem RefusesUnread.refused (h : l.RefusesUnread env request t) : ∃ e,
    e ≠ ReplaceTransactionError.invalidBlobs ∧ ∀ (m : Locked) editable,
      m.queue.relayer = l.queue.relayer →
      m.queue.getEditableTransactionById t.id = some editable →
      editable.transaction.externalId = t.externalId →
      m.replaceTransaction env request t.id = (m, .error e) := by
  unfold RefusesUnread at h
  by_cases hpaused : l.queue.relayer.paused = true
  · refine ⟨.relayerIsPaused l.queue.relayer.id, by simp, ?_⟩
    intro m editable hrelayer _ _
    unfold replaceTransaction
    rw [hrelayer, if_pos hpaused]
  by_cases hguard : env.guard = false
  · refine ⟨.relayerIsPaused l.queue.relayer.id, by simp, ?_⟩
    intro m editable hrelayer heditable _
    unfold replaceTransaction
    rw [hrelayer, if_neg hpaused, heditable]
    simp only [hguard, Bool.not_false, if_true]
  have hconflict := (h.resolve_left hpaused).resolve_left hguard
  refine ⟨.externalIdConflict, by simp, ?_⟩
  intro m editable hrelayer heditable hexternal
  unfold replaceTransaction
  rw [hrelayer, if_neg hpaused, heditable]
  have hguard : env.guard = true := by simpa using hguard
  simp only [hguard, Bool.not_true, Bool.false_eq_true, if_false]
  rw [← hexternal] at hconflict
  unfold replacementExternalId
  cases editable with
  | pending u =>
    dsimp only [EditableTransaction.transaction] at hconflict ⊢
    rw [if_pos hconflict]
  | inmempool u =>
    dsimp only [EditableTransaction.transaction] at hconflict ⊢
    rw [if_pos hconflict]

/-- Any other request reaches the payload. -/
theorem replaceTransaction_pending (hread : ¬ l.RefusesUnread env request t)
    (h : l.queue.getEditableTransactionById t.id = some (.pending t)) :
    l.replaceTransaction env request t.id = l.replacePending env request t := by
  unfold RefusesUnread at hread
  push Not at hread
  obtain ⟨hpaused, hguard, hsame⟩ := hread
  have hguard : env.guard = true := by simpa using hguard
  unfold replaceTransaction replacementExternalId
  rw [if_neg hpaused, h]
  simp only [hguard, Bool.not_true, Bool.false_eq_true, if_false]
  rw [if_neg hsame]

theorem find?_updateFirst {α : Type} {p : α → Bool} {f : α → α} {as : List α} {a : α}
    (h : as.find? p = some a) (hf : p (f a) = true) :
    (updateFirst p f as).find? p = some (f a) := by
  induction as with
  | nil => cases h
  | cons b as ih =>
    by_cases hb : p b = true
    · rw [List.find?_cons_of_pos hb] at h
      cases h
      rw [updateFirst_cons_pos hb, List.find?_cons_of_pos hf]
    · rw [List.find?_cons_of_neg hb] at h
      unfold updateFirst
      rw [if_neg hb, List.find?_cons_of_neg hb, ih h]

/-- A served rewrite puts the transaction into its entry and its row. -/
theorem rewritePending_rewritten {u : Transaction} {l' : Locked}
    (h : l.queue.getEditableTransactionById u.id = some (.pending t))
    (hrewrite : l.rewritePending env u = some l') (hpayload : HasPayload request u) :
    l'.Rewritten request u.id := by
  unfold rewritePending at hrewrite
  split at hrewrite
  · cases hrewrite
    constructor
    · refine ⟨u, ?_, hpayload⟩
      unfold TransactionsQueue.getEditableTransactionById at h ⊢
      unfold TransactionsQueue.updatePendingTransaction
      cases hfind : l.queue.pendingTransactions.find? (·.id == u.id) with
      | none =>
        rw [hfind] at h
        cases hother : l.queue.inmempoolTransactions.find? (·.original.id == u.id) with
        | none => simp [hother] at h
        | some c => simp [hother] at h
      | some queued =>
        rw [find?_updateFirst (f := fun _ => u) hfind (by simp)]
    · intro r hr
      unfold Db.transactionUpdate at hr
      dsimp only at hr
      rw [Db.row_log, Db.row_update] at hr
      · obtain ⟨r₀, hr₀, rfl⟩ := Option.map_eq_some_iff.mp hr
        rw [if_pos (by simpa using Db.row_id hr₀)]
        exact ⟨hpayload.toAddress, hpayload.value, hpayload.data, hpayload.blobs,
          hpayload.gasLimit⟩
      · intro r
        rfl
  · cases hrewrite

theorem transactionReplace_payload {blobs : Option (List TransactionBlob)}
    (h : decodeBlobs request = .ok blobs) :
    HasPayload request (transactionReplace request t blobs) :=
  ⟨rfl, rfl, rfl, h, rfl⟩

theorem decodeBlobs_withBlobs (invalidCharacter : ℕ → ℕ → String)
    (request : RelayTransactionRequest) (blobs : Option (List String)) :
    (∃ decoded, decodeBlobs (request.withBlobs invalidCharacter blobs) = .ok decoded) ↔
      ∀ strings ∈ blobs, ∀ hex ∈ strings, WellFormedBlob hex := by
  unfold decodeBlobs RelayTransactionRequest.withBlobs
  cases blobs with
  | none => simp
  | some strings =>
    simp only [Option.map_some, Option.mem_some_iff, forall_eq']
    rw [← @blobsFromHex_ok_iff invalidCharacter]
    cases blobsFromHex invalidCharacter strings with
    | error e => simp [Except.map]
    | ok decoded => simp [Except.map]

/-- The replacement of a pending transaction fails cleanly exactly when the request is refused
before its blobs are looked at, or each of its blobs is one. -/
theorem pending_replacement_clean_iff (invalidCharacter : ℕ → ℕ → String) (l : Locked)
    (env : CompeteEnv) (request : RelayTransactionRequest) (blobs : Option (List String))
    (t : Transaction) (h : l.queue.getEditableTransactionById t.id = some (.pending t)) :
    l.ReplacesCleanly env (request.withBlobs invalidCharacter blobs) t ↔
      l.RefusesUnread env request t ∨ ∀ strings ∈ blobs, ∀ hex ∈ strings, WellFormedBlob hex := by
  rw [← decodeBlobs_withBlobs invalidCharacter request blobs]
  -- Nothing before the blobs depends on them.
  have hunread : l.RefusesUnread env request t ↔
    l.RefusesUnread env (request.withBlobs invalidCharacter blobs) t := Iff.rfl
  rw [hunread]
  generalize request.withBlobs invalidCharacter blobs = request
  constructor
  · intro hclean
    by_contra hnot
    push Not at hnot
    obtain ⟨hread, hundecoded⟩ := hnot
    apply hclean.noPanic
    rw [replaceTransaction_pending hread h]
    unfold replacePending
    cases hdecode : decodeBlobs request with
    | error e => rfl
    | ok decoded => exact absurd hdecode (hundecoded decoded)
  by_cases hread : l.RefusesUnread env request t
  · intro _
    obtain ⟨e, hpanic, hrefused⟩ := hread.refused
    have hanswer := hrefused l _ rfl h rfl
    constructor
    · rw [hanswer]
      exact fun herror => hpanic (Except.error.inj herror)
    · intro result hresult
      rw [hanswer] at hresult
      cases hresult
    · intro _ _
      rw [hanswer]
    · intro m original hrelayer heditable hexternal _
      rw [hanswer, hrefused m _ hrelayer heditable hexternal]
  · rintro (hread' | ⟨decoded, hdecode⟩)
    · exact absurd hread' hread
    have hanswer := replaceTransaction_pending hread h
    have hpayload := @transactionReplace_payload request t decoded hdecode
    unfold replacePending at hanswer
    rw [hdecode] at hanswer
    dsimp only at hanswer
    cases hrewrite : l.rewritePending env (transactionReplace request t decoded) with
    | none =>
      rw [hrewrite] at hanswer
      constructor
      · rw [hanswer]
        exact fun herror => by cases herror
      · intro result hresult
        rw [hanswer] at hresult
        cases hresult
      · intro _ _
        rw [hanswer]
      · intro m original _ _ _ hundecoded
        exact absurd hdecode (hundecoded decoded)
    | some l' =>
      rw [hrewrite] at hanswer
      constructor
      · rw [hanswer]
        exact fun herror => by cases herror
      · intro _ _
        rw [hanswer]
        exact rewritePending_rewritten (u := transactionReplace request t decoded) h hrewrite
          hpayload
      · intro e he
        rw [hanswer] at he
        cases he
      · intro m original _ _ _ hundecoded
        exact absurd hdecode (hundecoded decoded)

end Locked

namespace TransactionsQueues

def queuedPayment : List Event := [.add (servedAdd 0) (payment 1 5)]

/-- A request for another receiver, with blobs or without. -/
def otherReceiver : RelayTransactionRequest := ⟨8, 5, [], none, none⟩

def servedReplace : CompeteEnv := servedCompete 2 (.ok ()) (servedClient [] 0)

/-- The library's text for a letter that is no hex digit. -/
def noHexDigit (byte index : ℕ) : String :=
  "Invalid character '" ++ toString (Char.ofNat byte) ++ "' at position " ++ toString index

theorem pending_replacement_clean_payment : ∃ l t,
    (freshRelayer.run queuedPayment).lock = some l ∧
      (l.ReplacesCleanly servedReplace (otherReceiver.withBlobs noHexDigit (some ["0x"])) t ↔
        l.RefusesUnread servedReplace otherReceiver t ∨
          ∀ strings ∈ some ["0x"], ∀ hex ∈ strings, WellFormedBlob hex) := by
  let s := freshRelayer.run queuedPayment
  have hqueued : (s.lock.bind fun l => l.queue.pendingTransactions.head?.map fun t =>
      l.queue.getEditableTransactionById t.id == some (.pending t)) = some true := by
    decide +kernel
  obtain ⟨l, hlock, hqueued⟩ := Option.bind_eq_some_iff.mp hqueued
  obtain ⟨t, -, hpending⟩ := Option.map_eq_some_iff.mp hqueued
  exact ⟨l, t, hlock, Locked.pending_replacement_clean_iff noHexDigit l servedReplace otherReceiver
    (some ["0x"]) t (by simpa using hpending)⟩

/-- An empty blob string ends in a panic. -/
theorem pending_replacement_clean_fails : ¬ ∀ (invalidCharacter : ℕ → ℕ → String) (es : List Event)
    (env : CompeteEnv) (request : RelayTransactionRequest) (blobs : Option (List String)),
    ∀ l ∈ (freshRelayer.run es).lock, ∀ t,
      l.queue.getEditableTransactionById t.id = some (.pending t) →
        l.ReplacesCleanly env (request.withBlobs invalidCharacter blobs) t := by
  intro hclean
  let s := freshRelayer.run queuedPayment
  let request := otherReceiver.withBlobs noHexDigit (some ["0x"])
  have hpanics : (s.lock.bind fun l => l.queue.pendingTransactions.head?.map fun t =>
      (l.queue.getEditableTransactionById t.id == some (.pending t) &&
        (l.replaceTransaction servedReplace request t.id).2 == .error .invalidBlobs)) =
      some true := by
    decide +kernel
  obtain ⟨l, hlock, hpanics⟩ := Option.bind_eq_some_iff.mp hpanics
  obtain ⟨t, -, hpanics⟩ := Option.map_eq_some_iff.mp hpanics
  obtain ⟨hpending, hpanic⟩ := Bool.and_eq_true_iff.mp hpanics
  have hcase := hclean noHexDigit queuedPayment servedReplace otherReceiver (some ["0x"]) l hlock t
    (by simpa using hpending)
  exact hcase.noPanic (by simpa using hpanic)

end TransactionsQueues
end Rrelayer
