import Rrelayer.WalletManager

/-! The wallet index at its machine widths: one signed database column and one unsigned index,
over which a namespace of normal indexes and one of private keys are laid. -/
namespace Rrelayer

namespace FixedWidth

def maxNormalWalletIndex : UInt32 := Int32.maxValue.toUInt32

def minPrivateKeyWalletManagerIndex : UInt32 := maxNormalWalletIndex + 2

def u32Max : UInt32 := 0xFFFFFFFF

inductive WalletIndexError where
  | normalIndexOutOfRange (index max : UInt32)
  | normalDbIndexMustBeNonNegative (index : Int32)
  | privateKeyIndexMustBeNegative (index : Int32)
  | privateKeyIndexOutOfRange (index : Int32)
  deriving DecidableEq

/-- The text the error displays. -/
def WalletIndexError.display : WalletIndexError → String
  | normalIndexOutOfRange index max =>
      s!"normal wallet index {index} exceeds maximum database index {max}"
  | normalDbIndexMustBeNonNegative index =>
      s!"normal wallet database index must be non-negative, got {index}"
  | privateKeyIndexMustBeNegative index =>
      s!"private key wallet database index must be negative, got {index}"
  | privateKeyIndexOutOfRange index =>
      s!"private key wallet database index {index} cannot be converted"

/-- The variants of the source; its checked constructors are `checkedNormal` and
`checkedPrivateKey`. -/
inductive WalletIndex where
  | normal (index : UInt32)
  | privateKey (dbIndex : Int32)
  deriving DecidableEq

namespace WalletIndex

def checkedNormal (index : UInt32) : Except WalletIndexError WalletIndex :=
  if maxNormalWalletIndex < index then
    .error (.normalIndexOutOfRange index maxNormalWalletIndex)
  else .ok (.normal index)

def checkedPrivateKey (dbIndex : Int32) : Except WalletIndexError WalletIndex :=
  if 0 ≤ dbIndex then .error (.privateKeyIndexMustBeNegative dbIndex)
  else if dbIndex = Int32.minValue then .error (.privateKeyIndexOutOfRange dbIndex)
  else .ok (.privateKey dbIndex)

def fromDbValue (dbValue : Int32) (isPrivateKey : Bool) : Except WalletIndexError WalletIndex :=
  if isPrivateKey then checkedPrivateKey dbValue
  else if dbValue < 0 then .error (.normalDbIndexMustBeNonNegative dbValue)
  else checkedNormal dbValue.toUInt32

def isPrivateKeyManagerIndex (walletIndex : UInt32) : Bool :=
  minPrivateKeyWalletManagerIndex ≤ walletIndex

/-- The offset is taken in 64 bits and cut to 32. -/
def index : WalletIndex → UInt32
  | .normal index => index
  | .privateKey dbIndex => u32Max - (-dbIndex.toInt64 - 1).toUInt64.toUInt32

def privateKeyInternalIndex (w : WalletIndex) : Option UInt32 :=
  match w with
  | .normal _ => none
  | .privateKey _ => some (u32Max - w.index)

def isPrivateKey : WalletIndex → Bool
  | .normal _ => false
  | .privateKey _ => true

def dbValue : WalletIndex → Int32
  | .normal index => index.toInt32
  | .privateKey dbIndex => dbIndex

/-- Reading a serialized index runs the checks again. -/
def deserialize : WalletIndex → Except String WalletIndex
  | .normal index => (checkedNormal index).mapError WalletIndexError.display
  | .privateKey dbIndex => (checkedPrivateKey dbIndex).mapError WalletIndexError.display

/-- What the checked constructors return. -/
def Valid : WalletIndex → Prop
  | .normal index => index ≤ maxNormalWalletIndex
  | .privateKey dbIndex => dbIndex < 0 ∧ dbIndex ≠ Int32.minValue

variable {w w' : WalletIndex} {dbIndex : Int32} {isPk : Bool} {i : UInt32}

/-- The signed value of 32 bits, told by their unsigned one. -/
theorem toInt_toInt32 (i : UInt32) :
    i.toInt32.toInt = if i.toNat < 2 ^ 31 then (i.toNat : ℤ) else i.toNat - 2 ^ 32 := by
  have h : i.toInt32.toInt = i.toBitVec.toInt := rfl
  rw [h, BitVec.toInt_eq_toNat_cond, UInt32.toNat_toBitVec]
  split_ifs <;> omega

theorem toNat_toUInt32 (dbIndex : Int32) :
    (dbIndex.toUInt32.toNat : ℤ) =
      if 0 ≤ dbIndex.toInt then dbIndex.toInt else dbIndex.toInt + 2 ^ 32 := by
  have h := toInt_toInt32 dbIndex.toUInt32
  have hlt := dbIndex.toUInt32.toNat_lt
  rw [Int32.toInt32_toUInt32] at h
  split_ifs at h ⊢ <;> omega

theorem widened_cut (dbIndex : Int32) : dbIndex.toInt64.toUInt64.toUInt32 = dbIndex.toUInt32 := by
  have h := congrArg Int32.toBitVec (Int32.toInt32_toInt64 dbIndex)
  rw [Int64.toBitVec_toInt32, BitVec.signExtend_eq_setWidth_of_le _ (by decide)] at h
  exact UInt32.toBitVec_inj.mp h

theorem offset_eq (dbIndex : Int32) :
    (-dbIndex.toInt64 - 1).toUInt64.toUInt32 = -dbIndex.toUInt32 - 1 := by
  rw [Int64.toUInt64_sub, UInt64.toUInt32_sub, Int64.toUInt64_neg, UInt64.toUInt32_neg, widened_cut]
  rfl

/-- The index is the database value read as unsigned, in either namespace. -/
theorem index_eq (w : WalletIndex) : w.index = w.dbValue.toUInt32 := by
  cases w with
  | normal index => rfl
  | privateKey dbIndex =>
    have hmax : u32Max = -1 := by decide
    simp only [index, dbValue, offset_eq, hmax]
    grind

theorem index_toInt32 (w : WalletIndex) : w.index.toInt32 = w.dbValue := by
  rw [index_eq, Int32.toInt32_toUInt32]

theorem normal_valid_iff : (normal i).Valid ↔ 0 ≤ i.toInt32.toInt := by
  have hmax : maxNormalWalletIndex.toNat = 2 ^ 31 - 1 := by decide
  have hlt := i.toNat_lt
  rw [Valid, UInt32.le_iff_toNat_le, hmax, toInt_toInt32]
  split_ifs <;> omega

theorem privateKey_valid_iff :
    (privateKey dbIndex).Valid ↔ dbIndex.toInt < 0 ∧ dbIndex.toInt ≠ -2 ^ 31 := by
  have hzero : (0 : Int32).toInt = 0 := by decide
  have hmin : Int32.minValue.toInt = -2 ^ 31 := by decide
  rw [Valid, Int32.lt_iff_toInt_lt, hzero, Ne, ← Int32.toInt_inj, hmin]

/-- The namespace of a valid index is the sign of its database value. -/
theorem Valid.isPrivateKey_iff (h : w.Valid) : w.isPrivateKey = true ↔ w.dbValue.toInt < 0 := by
  cases w with
  | normal index =>
    have hpos := normal_valid_iff.mp h
    simp only [isPrivateKey, dbValue, Bool.false_eq_true, false_iff]
    omega
  | privateKey dbIndex =>
    have hneg := (privateKey_valid_iff.mp h).1
    simp only [isPrivateKey, dbValue, true_iff]
    exact hneg

theorem checkedNormal_ok : checkedNormal i = .ok w ↔ w = normal i ∧ w.Valid := by
  unfold checkedNormal
  split
  next hmax =>
    constructor
    · intro h
      cases h
    · rintro ⟨rfl, hvalid⟩
      exact absurd hvalid (UInt32.not_le.mpr hmax)
  next hmax =>
    constructor
    · intro h
      cases h
      exact ⟨rfl, UInt32.not_lt.mp hmax⟩
    · rintro ⟨rfl, -⟩
      rfl

theorem checkedPrivateKey_ok :
    checkedPrivateKey dbIndex = .ok w ↔ w = privateKey dbIndex ∧ w.Valid := by
  unfold checkedPrivateKey
  split
  next hnonneg =>
    constructor
    · intro h
      cases h
    · rintro ⟨rfl, hneg, -⟩
      exact absurd hneg (Int32.not_lt.mpr hnonneg)
  next hneg =>
    split
    next hmin =>
      constructor
      · intro h
        cases h
      · rintro ⟨rfl, -, hne⟩
        exact absurd hmin hne
    next hne =>
      constructor
      · intro h
        cases h
        exact ⟨rfl, Int32.not_le.mp hneg, hne⟩
      · rintro ⟨rfl, -⟩
        rfl

theorem deserialize_ok : w.deserialize = .ok w' ↔ w' = w ∧ w'.Valid := by
  cases w with
  | normal index =>
    rw [← checkedNormal_ok, deserialize]
    cases checkedNormal index <;> simp [Except.mapError]
  | privateKey dbIndex =>
    rw [← checkedPrivateKey_ok, deserialize]
    cases checkedPrivateKey dbIndex <;> simp [Except.mapError]

/-- A database value and its namespace are read as the one valid index that has them. -/
theorem fromDbValue_ok {dbValue : Int32} :
    fromDbValue dbValue isPk = .ok w ↔ w.Valid ∧ w.dbValue = dbValue ∧ w.isPrivateKey = isPk := by
  cases isPk with
  | true =>
    rw [fromDbValue, if_pos rfl, checkedPrivateKey_ok]
    constructor
    · rintro ⟨rfl, hvalid⟩
      exact ⟨hvalid, rfl, rfl⟩
    · rintro ⟨hvalid, rfl, hpk⟩
      cases w with
      | normal index => cases hpk
      | privateKey dbIndex => exact ⟨rfl, hvalid⟩
  | false =>
    rw [fromDbValue, if_neg (by decide)]
    by_cases hneg : dbValue < 0
    · rw [if_pos hneg]
      constructor
      · intro h
        cases h
      · rintro ⟨hvalid, rfl, hnormal⟩
        have hpk := hvalid.isPrivateKey_iff.mpr (Int32.lt_iff_toInt_lt.mp hneg)
        rw [hnormal] at hpk
        cases hpk
    · rw [if_neg hneg, checkedNormal_ok]
      constructor
      · rintro ⟨rfl, hvalid⟩
        exact ⟨hvalid, Int32.toInt32_toUInt32 dbValue, rfl⟩
      · rintro ⟨hvalid, rfl, hnormal⟩
        cases w with
        | normal index => exact ⟨by rw [dbValue, UInt32.toUInt32_toInt32], hvalid⟩
        | privateKey dbIndex => cases hnormal

theorem isPrivateKeyManagerIndex_iff :
    isPrivateKeyManagerIndex i = true ↔ (privateKey i.toInt32).Valid := by
  have hmin : minPrivateKeyWalletManagerIndex.toNat = 2 ^ 31 + 1 := by decide
  have hlt := i.toNat_lt
  rw [isPrivateKeyManagerIndex, decide_eq_true_iff, UInt32.le_iff_toNat_le, hmin,
    privateKey_valid_iff, toInt_toInt32]
  split_ifs <;> omega

/-- The manager's range is where the private keys are. -/
theorem Valid.isPrivateKeyManagerIndex_index (h : w.Valid) :
    isPrivateKeyManagerIndex w.index = w.isPrivateKey := by
  apply Bool.eq_iff_iff.mpr
  rw [isPrivateKeyManagerIndex_iff, index_toInt32, privateKey_valid_iff, h.isPrivateKey_iff]
  cases w with
  | normal index =>
    have hpos := normal_valid_iff.mp h
    simp only [dbValue]
    omega
  | privateKey dbIndex =>
    have hvalid := privateKey_valid_iff.mp h
    simp only [dbValue, hvalid, ne_eq, not_false_eq_true, and_self]

theorem Valid.index_inj (h : w.Valid) (h' : w'.Valid) (heq : w.index = w'.index) : w = w' := by
  have hdb : w'.dbValue = w.dbValue := by rw [← index_toInt32, ← index_toInt32, heq]
  have hpk : w'.isPrivateKey = w.isPrivateKey := by
    rw [← h.isPrivateKeyManagerIndex_index, ← h'.isPrivateKeyManagerIndex_index, heq]
  have hread := fromDbValue_ok.mpr ⟨h', hdb, hpk⟩
  rw [fromDbValue_ok.mpr ⟨h, rfl, rfl⟩] at hread
  exact Except.ok.inj hread

/-- The database keeps a valid index whole, the unsigned index tells all valid ones apart, and the
private key manager's range is exactly that of the private keys. -/
theorem encoding_faithful :
    (∀ dbValue isPk w, fromDbValue dbValue isPk = .ok w → w.dbValue = dbValue) ∧
      (∀ w : WalletIndex, w.Valid → fromDbValue w.dbValue w.isPrivateKey = .ok w) ∧
      (∀ w w' : WalletIndex, w.Valid → w'.Valid → w.index = w'.index → w = w') ∧
      (∀ i, isPrivateKeyManagerIndex i = true ↔
        ∃ w : WalletIndex, w.Valid ∧ w.isPrivateKey = true ∧ w.index = i) ∧
      ∀ w : WalletIndex, w.Valid → isPrivateKeyManagerIndex w.index = w.isPrivateKey := by
  have hmanager : ∀ i, isPrivateKeyManagerIndex i = true ↔
      ∃ w : WalletIndex, w.Valid ∧ w.isPrivateKey = true ∧ w.index = i := by
    intro i
    constructor
    · intro hi
      have hindex : (privateKey i.toInt32).index = i := by
        rw [index_eq, dbValue, UInt32.toUInt32_toInt32]
      exact ⟨privateKey i.toInt32, isPrivateKeyManagerIndex_iff.mp hi, rfl, hindex⟩
    · rintro ⟨w, hvalid, hpk, rfl⟩
      rw [hvalid.isPrivateKeyManagerIndex_index, hpk]
  have hread : ∀ dbValue isPk w, fromDbValue dbValue isPk = .ok w → w.dbValue = dbValue :=
    fun _ _ _ h => (fromDbValue_ok.mp h).2.1
  have hrecovered : ∀ w : WalletIndex, w.Valid →
      fromDbValue w.dbValue w.isPrivateKey = .ok w :=
    fun _ h => fromDbValue_ok.mpr ⟨h, rfl, rfl⟩
  exact ⟨hread, hrecovered, fun _ _ => Valid.index_inj, hmanager,
    fun _ => Valid.isPrivateKeyManagerIndex_index⟩

/-- The debug assertion of `index` holds of whatever a checked constructor returns. -/
theorem index_asserts {dbValue : Int32} (h : fromDbValue dbValue isPk = .ok (privateKey dbIndex)) :
    dbIndex < 0 ∧ dbIndex ≠ Int32.minValue :=
  (fromDbValue_ok.mp h).1

theorem privateKey_low :
    (privateKey dbIndex).Valid ↔ dbIndex.toInt < 0 ∧ i32Min < dbIndex.toInt := by
  have hle := dbIndex.le_toInt
  rw [privateKey_valid_iff, i32Min]
  omega

/-- The index of a private key counts down from the top by its position in the key list. -/
theorem index_privateKey (h : (privateKey dbIndex).Valid) :
    (privateKey dbIndex).index.toNat = Rrelayer.u32Max - privateKeyPosition dbIndex.toInt := by
  obtain ⟨hneg, hlow⟩ := privateKey_low.mp h
  have hindex := toNat_toUInt32 dbIndex
  rw [if_neg (by omega)] at hindex
  rw [index_eq, dbValue, privateKeyPosition_eq hneg hlow, Rrelayer.u32Max]
  omega

theorem privateKeyInternalIndex_toNat (h : (privateKey dbIndex).Valid) :
    (privateKey dbIndex).privateKeyInternalIndex.map UInt32.toNat =
      some (privateKeyPosition dbIndex.toInt) := by
  obtain ⟨hneg, hlow⟩ := privateKey_low.mp h
  have hmax : u32Max.toNat = 2 ^ 32 - 1 := by decide
  have hindex := index_privateKey h
  have hposition := privateKeyPosition_eq hneg hlow
  rw [Rrelayer.u32Max] at hindex
  rw [i32Min] at hlow
  simp only [privateKeyInternalIndex, Option.map_some, Option.some.injEq, UInt32.toNat_sub, hmax]
  omega

theorem fromDbValue_error {dbValue : Int32} {e : WalletIndexError}
    (h : fromDbValue dbValue isPk = .error e) (hvalid : w.Valid) (hdb : w.dbValue = dbValue) :
    w.isPrivateKey ≠ isPk := by
  intro hpk
  have hok := fromDbValue_ok.mpr ⟨hvalid, hdb, hpk⟩
  rw [h] at hok
  cases hok

/-- The unbounded model reads a column as the machine does. -/
theorem fromDbValue_refines (dbValue : Int32) (isPk : Bool) :
    (Rrelayer.WalletIndex.fromDbValue dbValue.toInt isPk).map (·.index) =
      (fromDbValue dbValue isPk).toOption.map (·.index.toNat) := by
  cases isPk with
  | true =>
    rw [Rrelayer.WalletIndex.fromDbValue_privateKey]
    cases hread : fromDbValue dbValue true with
    | error e =>
      rw [if_neg]
      · rfl
      · intro hlow
        exact fromDbValue_error hread (privateKey_low.mpr hlow) rfl rfl
    | ok w =>
      obtain ⟨hvalid, rfl, hpk⟩ := fromDbValue_ok.mp hread
      cases w with
      | normal index => cases hpk
      | privateKey dbIndex =>
        rw [dbValue, if_pos (privateKey_low.mp hvalid), ← index_privateKey hvalid]
        rfl
  | false =>
    have hmax : dbValue.toInt ≤ Rrelayer.maxNormalWalletIndex := by
      have hlt := dbValue.toInt_lt
      simp only [Rrelayer.maxNormalWalletIndex]
      omega
    cases hread : fromDbValue dbValue false with
    | error e =>
      have hneg : dbValue.toInt < 0 := by
        by_contra hnonneg
        have hvalid : (normal dbValue.toUInt32).Valid := by
          rw [normal_valid_iff, Int32.toInt32_toUInt32]
          omega
        exact fromDbValue_error hread hvalid (Int32.toInt32_toUInt32 dbValue) rfl
      simp [Rrelayer.WalletIndex.fromDbValue, hneg, Except.toOption]
    | ok w =>
      obtain ⟨hvalid, rfl, hnormal⟩ := fromDbValue_ok.mp hread
      cases w with
      | normal index =>
        have hpos := normal_valid_iff.mp hvalid
        have hindex := toNat_toUInt32 index.toInt32
        rw [if_pos hpos, UInt32.toUInt32_toInt32] at hindex
        rw [dbValue] at hmax
        rw [dbValue, Rrelayer.WalletIndex.fromDbValue_normal hpos hmax, ← hindex]
        rfl
      | privateKey dbIndex => cases hnormal

theorem isPrivateKeyManagerIndex_refines (i : UInt32) :
    Rrelayer.WalletIndex.isPrivateKeyManagerIndex i.toNat = isPrivateKeyManagerIndex i :=
  rfl

end WalletIndex

end FixedWidth

end Rrelayer
