import Rrelayer.WalletManager
import Rrelayer.Lib.Encoding

/-! The address of a key an HSM holds, derived from the point it reports. PKCS#11 wraps the point
in an octet string, some modules report it bare. -/
namespace Rrelayer

open Encoding

/-- The attributes of an object; only the point is read. -/
inductive Pkcs11Attribute where
  | ecPoint (data : List ℕ)
  | other
  deriving DecidableEq, Repr

/-- What the module answers: the public keys under a label, and the attributes of one of them. -/
structure Pkcs11Session where
  findObjects : (label : String) → Except String (List ℕ)
  getAttributes : (handle : ℕ) → Except String (List Pkcs11Attribute)

structure Pkcs11WalletManager where
  identity : String
  session : Pkcs11Session
  /-- The hash, 32 bytes long. -/
  keccak256 : List ℕ → List ℕ

/-- A byte as two hexadecimal digits. -/
def hexByte (byte : ℕ) : String :=
  let digits := Nat.toDigits 16 byte
  String.ofList (List.replicate (2 - digits.length) '0' ++ digits)

namespace Pkcs11WalletManager

variable (m : Pkcs11WalletManager)

def walletLabel (walletIndex : ℕ) (chainId : ChainId) : String :=
  "rrelayer-" ++ m.identity ++ "-wallet-" ++ toString chainId ++ "-" ++ toString walletIndex

/-- The last 20 bytes of the hash of the 64 bytes of a public key. -/
def publicKeyToAddress (publicKey : List ℕ) : Except WalletError (List ℕ) :=
  if publicKey.length ≠ 64 then
    .error (.signer ("Invalid public key length: expected 64 bytes, got " ++
      toString publicKey.length))
  else .ok (((m.keccak256 publicKey).drop 12).take 20)

/-- The 64 bytes after a leading `0x04`. -/
def rawPoint (pointBytes : List ℕ) : Except WalletError (List ℕ) :=
  if pointBytes.length ≥ 65 ∧ pointBytes.head? = some 4 then .ok ((pointBytes.drop 1).take 64)
  else
    .error (.signer ("Unsupported EC point format: len=" ++ toString pointBytes.length ++
      ", first_byte=0x" ++ hexByte (pointBytes.headD 0)))

/-- The point under the label, as the module reports it. -/
def ecPoint (label : String) : Except WalletError (List ℕ) :=
  match m.session.findObjects label with
  | .error e => .error (.signer ("Find public key failed: " ++ e))
  | .ok [] => .error (.signer "Public key not found")
  | .ok (publicKeyHandle :: _) =>
      match m.session.getAttributes publicKeyHandle with
      | .error e => .error (.signer ("Failed to get EC point: " ++ e))
      | .ok [] => .error (.signer "EC point attribute not found")
      | .ok (.other :: _) => .error (.signer "Invalid EC point attribute")
      | .ok (.ecPoint data :: _) => .ok data

def deriveAddressFromKey (walletIndex : ℕ) (chainId : ChainId) : Except WalletError (List ℕ) :=
  match m.ecPoint (m.walletLabel walletIndex chainId) with
  | .error e => .error e
  | .ok pointBytes =>
      match rawPoint pointBytes with
      | .error e => .error e
      | .ok point => m.publicKeyToAddress point

end Pkcs11WalletManager

/-- The prime of the field of secp256k1. -/
def secp256k1Prime : ℕ := 2 ^ 256 - 2 ^ 32 - 977

/-- A point of secp256k1 other than the one at infinity. -/
structure Secp256k1PublicKey where
  x : ℕ
  y : ℕ
  x_lt : x < secp256k1Prime
  y_lt : y < secp256k1Prime
  on_curve : y ^ 2 % secp256k1Prime = (x ^ 3 + 7) % secp256k1Prime

namespace Secp256k1PublicKey

variable (key : Secp256k1PublicKey)

/-- `x || y`. -/
def coordinates : List ℕ := bigEndian 32 key.x ++ bigEndian 32 key.y

/-- The account the key signs for. -/
def address (keccak256 : List ℕ → List ℕ) : List ℕ :=
  ((keccak256 key.coordinates).drop 12).take 20

@[simp] theorem length_coordinates : key.coordinates.length = 64 := by
  simp [coordinates]

end Secp256k1PublicKey

/-- The two ways a module reports a point. -/
inductive EcPointEncoding where
  /-- `04 x y`. -/
  | uncompressed
  /-- The same 65 bytes as a DER octet string, `04 41 04 x y`. -/
  | octetString
  deriving DecidableEq, Repr

def EcPointEncoding.encode (key : Secp256k1PublicKey) : EcPointEncoding → List ℕ
  | .uncompressed => 4 :: key.coordinates
  | .octetString => 4 :: 65 :: 4 :: key.coordinates

/-- The 64 bytes that are hashed: of an octet string its length, the format byte and all of the
key but its last two bytes. -/
def EcPointEncoding.hashed (key : Secp256k1PublicKey) : EcPointEncoding → List ℕ
  | .uncompressed => key.coordinates
  | .octetString => 65 :: 4 :: key.coordinates.take 62

namespace Pkcs11WalletManager

variable {m : Pkcs11WalletManager} {key : Secp256k1PublicKey} {encoding : EcPointEncoding}
  {walletIndex : ℕ} {chainId : ChainId} {address : List ℕ}

/-- The module reports the key's point for the wallet, in the given encoding. -/
def Holds (m : Pkcs11WalletManager) (walletIndex : ℕ) (chainId : ChainId)
    (key : Secp256k1PublicKey) (encoding : EcPointEncoding) : Prop :=
  m.ecPoint (m.walletLabel walletIndex chainId) = .ok (encoding.encode key)

theorem rawPoint_encode (key : Secp256k1PublicKey) (encoding : EcPointEncoding) :
    rawPoint (encoding.encode key) = .ok (encoding.hashed key) := by
  have hlength := key.length_coordinates
  cases encoding with
  | uncompressed =>
    have htake : key.coordinates.take 64 = key.coordinates := List.take_of_length_le (by omega)
    simp [rawPoint, EcPointEncoding.encode, EcPointEncoding.hashed, hlength, htake]
  | octetString =>
    simp [rawPoint, EcPointEncoding.encode, EcPointEncoding.hashed, hlength]

theorem length_hashed (key : Secp256k1PublicKey) (encoding : EcPointEncoding) :
    (encoding.hashed key).length = 64 := by
  cases encoding with
  | uncompressed => exact key.length_coordinates
  | octetString => simp [EcPointEncoding.hashed]

/-- The address is that of the bytes hashed. -/
theorem deriveAddressFromKey_holds (h : m.Holds walletIndex chainId key encoding) :
    m.deriveAddressFromKey walletIndex chainId =
      .ok (((m.keccak256 (encoding.hashed key)).drop 12).take 20) := by
  unfold Holds at h
  unfold deriveAddressFromKey
  rw [h]
  dsimp only
  rw [rawPoint_encode]
  dsimp only
  unfold publicKeyToAddress
  rw [length_hashed]
  rfl

/-- The address is the key's own exactly for a bare point, or when the hashes of the two byte
strings end alike. -/
theorem address_of_key_iff (m : Pkcs11WalletManager) (walletIndex : ℕ) (chainId : ChainId)
    (key : Secp256k1PublicKey) (encoding : EcPointEncoding)
    (h : m.Holds walletIndex chainId key encoding) :
    (∀ address, m.deriveAddressFromKey walletIndex chainId = .ok address →
        address = key.address m.keccak256) ↔
      encoding = .uncompressed ∨
        ((m.keccak256 (65 :: 4 :: key.coordinates.take 62)).drop 12).take 20 =
          ((m.keccak256 key.coordinates).drop 12).take 20 := by
  rw [deriveAddressFromKey_holds h]
  unfold Secp256k1PublicKey.address
  cases encoding with
  | uncompressed => simp [EcPointEncoding.hashed]
  | octetString => simp [EcPointEncoding.hashed]

end Pkcs11WalletManager

/-- The generator, the public key of the secret 1. -/
def secp256k1Generator : Secp256k1PublicKey where
  x := 0x79BE667EF9DCBBAC55A06295CE870B07029BFCDB2DCE28D959F2815B16F81798
  y := 0x483ADA7726A3C4655DA4FBFC0E1108A8FD17B448A68554199C47D08FFB10D4B8
  x_lt := by decide
  y_lt := by decide
  on_curve := by decide

/-- The hash on the generator's 64 bytes and on what an octet string makes of them. -/
def generatorKeccak256 (bytes : List ℕ) : List ℕ :=
  if bytes.head? = some 65 then
    bigEndian 32 0x471b730039bd5beb29b4e0cea0c5805ac4b7835dae92e9ae9487d16468ec4e72
  else bigEndian 32 0xc0a6c424ac7157ae408398df7e5f4552091a69125d5dfcb7b8c2659029395bdf

def generatorManager (encoding : EcPointEncoding) : Pkcs11WalletManager where
  identity := "ops"
  session := {
    findObjects := fun _ => .ok [1]
    getAttributes := fun _ => .ok [.ecPoint (encoding.encode secp256k1Generator)] }
  keccak256 := generatorKeccak256

theorem Pkcs11WalletManager.address_of_key_generator :
    (generatorManager .uncompressed).Holds 0 1 secp256k1Generator .uncompressed ∧
      ∀ address, (generatorManager .uncompressed).deriveAddressFromKey 0 1 = .ok address →
        address = secp256k1Generator.address generatorKeccak256 :=
  ⟨rfl, ((generatorManager .uncompressed).address_of_key_iff 0 1 secp256k1Generator .uncompressed
    rfl).mpr (.inl rfl)⟩

/-- The generator in an octet string gets the address `0xc4b7…`, its own is `0x7e5f…`. -/
theorem Pkcs11WalletManager.address_of_key_fails :
    ¬ ∀ (m : Pkcs11WalletManager) (walletIndex : ℕ) (chainId : ChainId)
      (key : Secp256k1PublicKey) (encoding : EcPointEncoding),
      m.Holds walletIndex chainId key encoding →
      ∀ address, m.deriveAddressFromKey walletIndex chainId = .ok address →
        address = key.address m.keccak256 := by
  intro h
  have hholds : (generatorManager .octetString).Holds 0 1 secp256k1Generator .octetString := rfl
  have hsame := h (generatorManager .octetString) 0 1 secp256k1Generator .octetString hholds _
    (deriveAddressFromKey_holds hholds)
  revert hsame
  decide

end Rrelayer
