import Rrelayer.AutomaticTopUp
import Mathlib.Data.List.DropRight
import Mathlib.Tactic.Ring

/-! Token amounts as a configuration writes and reads them: decimal strings in units of the token.
The parser of these strings is a parameter. -/
namespace Rrelayer

/-- A debug build panics where a release build wraps. -/
inductive Build where
  | debug
  | release
  deriving DecidableEq, Repr

/-- `10u64.pow(decimals)`; absent where it panics. -/
def tenPow (build : Build) (decimals : ℕ) : Option ℕ :=
  match build with
  | .debug => if 10 ^ decimals < 2 ^ 64 then some (10 ^ decimals) else none
  | .release => some (10 ^ decimals % 2 ^ 64)

/-- The amount in units of the token; absent where the power or the division panics. -/
def formatTokenAmount (build : Build) (amount decimals : ℕ) : Option String :=
  match tenPow build decimals with
  | none => none
  | some unitDivisor =>
      if unitDivisor = 0 then none
      else
        let wholePart := Nat.toDigits 10 (amount / unitDivisor)
        let remainder := amount % unitDivisor
        if remainder = 0 then some (String.ofList wholePart)
        else
          let decimalStr := (Nat.toDigits 10 remainder).leftpad decimals '0'
          let decimalTrimmed := decimalStr.rdropWhile (· == '0')
          some (String.ofList (wholePart ++ '.' :: decimalTrimmed))

/-- The native token of a top-up with its decimals. -/
structure NativeToken extends NativeTokenConfig where
  decimals : ℕ
  deriving DecidableEq, Repr

structure Erc20Token extends Erc20TokenConfig where
  decimals : ℕ
  deriving DecidableEq, Repr

/-- The fields of a token as they stand in the configuration. -/
structure NativeTokenFields where
  minBalance : String
  topUpAmount : String
  decimals : Option ℕ
  deriving DecidableEq, Repr

structure Erc20TokenFields where
  address : EvmAddress
  minBalance : String
  topUpAmount : String
  decimals : Option ℕ
  deriving DecidableEq, Repr

def defaultDecimals : ℕ := 18

/-- An amount that cannot be parsed becomes zero. -/
def readAmount (parseUnits : String → ℕ → Option ℕ) (amount : String) (decimals : ℕ) : ℕ :=
  (parseUnits amount decimals).getD 0

namespace NativeToken

def serialize (build : Build) (token : NativeToken) : Option NativeTokenFields :=
  match formatTokenAmount build token.minBalance token.decimals,
      formatTokenAmount build token.topUpAmount token.decimals with
  | some minBalance, some topUpAmount => some ⟨minBalance, topUpAmount, some token.decimals⟩
  | _, _ => none

def deserialize (parseUnits : String → ℕ → Option ℕ) (helper : NativeTokenFields) :
    NativeToken :=
  let decimals := helper.decimals.getD defaultDecimals
  { minBalance := readAmount parseUnits helper.minBalance decimals
    topUpAmount := readAmount parseUnits helper.topUpAmount decimals
    decimals }

end NativeToken

namespace Erc20Token

def serialize (build : Build) (token : Erc20Token) : Option Erc20TokenFields :=
  match formatTokenAmount build token.minBalance token.decimals,
      formatTokenAmount build token.topUpAmount token.decimals with
  | some minBalance, some topUpAmount =>
      some ⟨token.address, minBalance, topUpAmount, some token.decimals⟩
  | _, _ => none

def deserialize (parseUnits : String → ℕ → Option ℕ) (helper : Erc20TokenFields) :
    Erc20Token :=
  let decimals := helper.decimals.getD defaultDecimals
  { address := helper.address
    minBalance := readAmount parseUnits helper.minBalance decimals
    topUpAmount := readAmount parseUnits helper.topUpAmount decimals
    decimals }

end Erc20Token

/-- The parser is exact on a decimal with no more places than the token has, as long as the amount
fits its 256 bits. Units go up to 77 places. -/
structure ExactUnits (parseUnits : String → ℕ → Option ℕ) : Prop where
  whole : ∀ (digits : List Char) (decimals : ℕ), digits ≠ [] → digits.all Char.isDigit = true →
    decimals ≤ 77 → Nat.ofDigitChars 10 digits 0 * 10 ^ decimals < 2 ^ 256 →
    parseUnits (String.ofList digits) decimals =
      some (Nat.ofDigitChars 10 digits 0 * 10 ^ decimals)
  point : ∀ (digits places : List Char) (decimals : ℕ), digits ≠ [] →
    (digits ++ places).all Char.isDigit = true → decimals ≤ 77 → places.length ≤ decimals →
    Nat.ofDigitChars 10 (digits ++ places) 0 * 10 ^ (decimals - places.length) < 2 ^ 256 →
    parseUnits (String.ofList (digits ++ '.' :: places)) decimals =
      some (Nat.ofDigitChars 10 (digits ++ places) 0 * 10 ^ (decimals - places.length))

section Format

variable {amount decimals : ℕ} {parseUnits : String → ℕ → Option ℕ}

theorem tenPow_of_fits (build : Build) (hfits : 10 ^ decimals < 2 ^ 64) :
    tenPow build decimals = some (10 ^ decimals) := by
  cases build with
  | debug => simp only [tenPow, if_pos hfits]
  | release => simp only [tenPow, Nat.mod_eq_of_lt hfits]

/-- The power fits 64 bits up to 19 decimals. -/
theorem tenPow_fits_iff : 10 ^ decimals < 2 ^ 64 ↔ decimals ≤ 19 := by
  constructor
  · intro hfits
    by_contra hlarge
    have hpow : 10 ^ 20 ≤ 10 ^ decimals := Nat.pow_le_pow_right (by decide) (by omega)
    have hover : 2 ^ 64 ≤ 10 ^ 20 := by decide
    omega
  · intro hsmall
    have hpow : 10 ^ decimals ≤ 10 ^ 19 := Nat.pow_le_pow_right (by decide) hsmall
    have hunder : 10 ^ 19 < 2 ^ 64 := by decide
    omega

theorem toDigits_all (n : ℕ) : (Nat.toDigits 10 n).all Char.isDigit = true :=
  List.all_eq_true.mpr fun _ hc => Nat.isDigit_of_mem_toDigits (by decide) (by decide) hc

/-- The padded digits of a remainder, without their trailing zeros, are its decimal places. -/
theorem trimmed_places {remainder : ℕ} (hpos : 0 < decimals) (hlt : remainder < 10 ^ decimals)
    {places : List Char}
    (hplaces : places =
      ((Nat.toDigits 10 remainder).leftpad decimals '0').rdropWhile (· == '0')) :
    places.all Char.isDigit = true ∧ places.length ≤ decimals ∧
      Nat.ofDigitChars 10 places 0 * 10 ^ (decimals - places.length) = remainder := by
  have hsplit : places ++ ((Nat.toDigits 10 remainder).leftpad decimals '0').rtakeWhile (· == '0') =
      (Nat.toDigits 10 remainder).leftpad decimals '0' := by
    rw [hplaces]
    exact List.rdropWhile_append_rtakeWhile ..
  -- What is trimmed is a block of zeros.
  obtain ⟨zeros, hzeros⟩ : ∃ zeros,
      ((Nat.toDigits 10 remainder).leftpad decimals '0').rtakeWhile (· == '0') =
        List.replicate zeros '0' := by
    refine ⟨_, List.eq_replicate_of_mem ?_⟩
    intro c hc
    simpa using List.mem_rtakeWhile_imp hc
  rw [hzeros] at hsplit
  have hdigits : (Nat.toDigits 10 remainder).length ≤ decimals :=
    (Nat.length_toDigits_le_iff (by decide) hpos).mpr hlt
  have hlength : places.length + zeros = decimals := by
    have h := congrArg List.length hsplit
    simp only [List.length_append, List.length_replicate, List.length_leftpad] at h
    omega
  refine ⟨?_, by omega, ?_⟩
  · apply List.all_eq_true.mpr
    intro c hc
    have hpadded : c ∈ (Nat.toDigits 10 remainder).leftpad decimals '0' := by
      rw [← hsplit]
      exact List.mem_append_left _ hc
    rcases List.mem_append.mp hpadded with hzero | hdigit
    · rw [List.eq_of_mem_replicate hzero]
      decide
    · exact Nat.isDigit_of_mem_toDigits (by decide) (by decide) hdigit
  · have hvalue := congrArg (Nat.ofDigitChars 10 · 0) hsplit
    simp only [List.leftpad, Nat.ofDigitChars_append, Nat.ofDigitChars_replicate_zero, Nat.mul_zero,
      Nat.ofDigitChars_ten_toDigits] at hvalue
    have hdiff : decimals - places.length = zeros := by omega
    rw [hdiff, Nat.mul_comm]
    exact hvalue

/-- A formatted amount reads back as itself. -/
theorem readAmount_format (build : Build) (hexact : ExactUnits parseUnits) (hdecimals : decimals ≤ 19)
    (hamount : amount < 2 ^ 256) :
    ∃ text, formatTokenAmount build amount decimals = some text ∧
      readAmount parseUnits text decimals = amount := by
  have hfits := tenPow_fits_iff.mpr hdecimals
  have hne : 10 ^ decimals ≠ 0 := (Nat.pow_pos (by decide)).ne'
  have hdivision : amount / 10 ^ decimals * 10 ^ decimals + amount % 10 ^ decimals = amount :=
    Nat.div_add_mod' ..
  unfold formatTokenAmount
  rw [tenPow_of_fits build hfits]
  dsimp only
  rw [if_neg hne]
  by_cases hremainder : amount % 10 ^ decimals = 0
  · rw [if_pos hremainder]
    refine ⟨_, rfl, ?_⟩
    rw [hremainder, Nat.add_zero] at hdivision
    have hparsed := hexact.whole (Nat.toDigits 10 (amount / 10 ^ decimals)) decimals
      Nat.toDigits_ne_nil (toDigits_all _) (by omega)
      (by rw [Nat.ofDigitChars_ten_toDigits, hdivision]; exact hamount)
    rw [Nat.ofDigitChars_ten_toDigits, hdivision] at hparsed
    unfold readAmount
    rw [hparsed]
    rfl
  · rw [if_neg hremainder]
    refine ⟨_, rfl, ?_⟩
    have hpos : 0 < decimals := by
      by_contra hzero
      have hnone : decimals = 0 := by omega
      rw [hnone] at hremainder
      omega
    obtain ⟨hall, hlength, hvalue⟩ :=
      trimmed_places hpos (Nat.mod_lt amount (Nat.pos_of_ne_zero hne)) rfl
    generalize ((Nat.toDigits 10 (amount % 10 ^ decimals)).leftpad decimals '0').rdropWhile
      (· == '0') = places at hall hlength hvalue ⊢
    have htotal : Nat.ofDigitChars 10 (Nat.toDigits 10 (amount / 10 ^ decimals) ++ places) 0 *
        10 ^ (decimals - places.length) = amount := by
      rw [Nat.ofDigitChars_append, Nat.ofDigitChars_ten_toDigits,
        Nat.ofDigitChars_eq_ofDigitChars_zero, Nat.add_mul, hvalue]
      have hpow : 10 ^ places.length * 10 ^ (decimals - places.length) = 10 ^ decimals := by
        rw [← Nat.pow_add]
        congr 1
        omega
      calc 10 ^ places.length * (amount / 10 ^ decimals) * 10 ^ (decimals - places.length) +
            amount % 10 ^ decimals
          = amount / 10 ^ decimals * (10 ^ places.length * 10 ^ (decimals - places.length)) +
              amount % 10 ^ decimals := by ring
        _ = amount := by rw [hpow, hdivision]
    have hparsed := hexact.point (Nat.toDigits 10 (amount / 10 ^ decimals)) places decimals
      Nat.toDigits_ne_nil (by rw [List.all_append, toDigits_all, hall]; rfl) (by omega) hlength
      (by rw [htotal]; exact hamount)
    rw [htotal] at hparsed
    unfold readAmount
    rw [hparsed]
    rfl

end Format

/-- Written and read again, without overflow or panic, the token is the same. -/
structure NativeToken.RoundTrips (build : Build) (parseUnits : String → ℕ → Option ℕ)
    (token : NativeToken) : Prop where
  fits : 10 ^ token.decimals < 2 ^ 64
  same : (token.serialize build).map (NativeToken.deserialize parseUnits) = some token

structure Erc20Token.RoundTrips (build : Build) (parseUnits : String → ℕ → Option ℕ)
    (token : Erc20Token) : Prop where
  fits : 10 ^ token.decimals < 2 ^ 64
  same : (token.serialize build).map (Erc20Token.deserialize parseUnits) = some token

section RoundTrip

variable {build : Build} {parseUnits : String → ℕ → Option ℕ}

theorem NativeToken.roundTrips (hexact : ExactUnits parseUnits) {token : NativeToken}
    (hmin : token.minBalance < 2 ^ 256) (htop : token.topUpAmount < 2 ^ 256)
    (hdecimals : token.decimals ≤ 19) : token.RoundTrips build parseUnits where
  fits := tenPow_fits_iff.mpr hdecimals
  same := by
    obtain ⟨minBalance, hformatMin, hreadMin⟩ :=
      readAmount_format build hexact hdecimals hmin
    obtain ⟨topUpAmount, hformatTop, hreadTop⟩ :=
      readAmount_format build hexact hdecimals htop
    unfold serialize
    rw [hformatMin, hformatTop]
    simp [deserialize, hreadMin, hreadTop]

theorem Erc20Token.roundTrips (hexact : ExactUnits parseUnits) {token : Erc20Token}
    (hmin : token.minBalance < 2 ^ 256) (htop : token.topUpAmount < 2 ^ 256)
    (hdecimals : token.decimals ≤ 19) : token.RoundTrips build parseUnits where
  fits := tenPow_fits_iff.mpr hdecimals
  same := by
    obtain ⟨minBalance, hformatMin, hreadMin⟩ :=
      readAmount_format build hexact hdecimals hmin
    obtain ⟨topUpAmount, hformatTop, hreadTop⟩ :=
      readAmount_format build hexact hdecimals htop
    unfold serialize
    rw [hformatMin, hformatTop]
    simp [deserialize, hreadMin, hreadTop]

/-- Tokens survive the round trip up to 19 decimals, the last power of ten in 64 bits. -/
theorem token_round_trip_iff (build : Build) (parseUnits : String → ℕ → Option ℕ)
    (hexact : ExactUnits parseUnits) (native : NativeToken) (token : Erc20Token)
    (hnative : native.minBalance < 2 ^ 256 ∧ native.topUpAmount < 2 ^ 256)
    (htoken : token.minBalance < 2 ^ 256 ∧ token.topUpAmount < 2 ^ 256) :
    (native.RoundTrips build parseUnits ↔ native.decimals ≤ 19) ∧
      (token.RoundTrips build parseUnits ↔ token.decimals ≤ 19) := by
  constructor
  · constructor
    · intro h
      exact tenPow_fits_iff.mp h.fits
    · exact NativeToken.roundTrips hexact hnative.1 hnative.2
  · constructor
    · intro h
      exact tenPow_fits_iff.mp h.fits
    · exact Erc20Token.roundTrips hexact htoken.1 htoken.2

end RoundTrip

/-- A parser of units: exact where the places and the amount fit, an error elsewhere. -/
def parseUnitsExactly (amount : String) (decimals : ℕ) : Option ℕ :=
  let digits := amount.toList.takeWhile (· != '.')
  let places := (amount.toList.dropWhile (· != '.')).drop 1
  let value := Nat.ofDigitChars 10 (digits ++ places) 0 * 10 ^ (decimals - places.length)
  if digits ≠ [] ∧ (digits ++ places).all Char.isDigit ∧ decimals ≤ 77 ∧
      places.length ≤ decimals ∧ value < 2 ^ 256 then some value
  else none

theorem parseUnitsExactly_exact : ExactUnits parseUnitsExactly := by
  have hpoint : ∀ {digits : List Char}, digits.all Char.isDigit = true →
      ∀ c ∈ digits, (c != '.') = true := by
    intro digits hall c hc
    have hdigit := List.all_eq_true.mp hall c hc
    by_contra hdot
    have heq : c = '.' := by simpa using hdot
    rw [heq] at hdigit
    exact absurd hdigit (by decide)
  constructor
  · intro digits decimals hne hall hdecimals hvalue
    have htake : digits.takeWhile (· != '.') = digits :=
      List.takeWhile_eq_self_iff.mpr (hpoint hall)
    have hdrop : digits.dropWhile (· != '.') = [] := List.dropWhile_eq_nil_iff.mpr (hpoint hall)
    unfold parseUnitsExactly
    rw [String.toList_ofList, htake, hdrop]
    simp only [List.drop_nil, List.append_nil, List.length_nil, Nat.sub_zero]
    rw [if_pos ⟨hne, hall, hdecimals, Nat.zero_le _, hvalue⟩]
  · intro digits places decimals hne hall hdecimals hlength hvalue
    have hleft : digits.all Char.isDigit = true := by
      rw [List.all_append, Bool.and_eq_true] at hall
      exact hall.1
    have htake : (digits ++ '.' :: places).takeWhile (· != '.') = digits := by
      rw [List.takeWhile_append_of_pos (hpoint hleft)]
      simp
    have hdrop : ((digits ++ '.' :: places).dropWhile (· != '.')).drop 1 = places := by
      rw [List.dropWhile_append_of_pos (hpoint hleft)]
      simp
    unfold parseUnitsExactly
    rw [String.toList_ofList, htake, hdrop]
    dsimp only
    rw [if_pos ⟨hne, hall, hdecimals, hlength, hvalue⟩]

/-- One and a half units of a token with 18 decimals. -/
theorem token_round_trip_eighteen :
    let native : NativeToken := ⟨⟨1500000000000000000, 2 ^ 256 - 1⟩, 18⟩
    let token : Erc20Token := ⟨⟨1, 1500000, 0⟩, 6⟩
    native.RoundTrips .release parseUnitsExactly ∧ token.RoundTrips .debug parseUnitsExactly := by
  intro native token
  constructor
  · exact (token_round_trip_iff .release parseUnitsExactly parseUnitsExactly_exact native token
      (by decide) (by decide)).1.mpr (by decide)
  · exact (token_round_trip_iff .debug parseUnitsExactly parseUnitsExactly_exact native token
      (by decide) (by decide)).2.mpr (by decide)

/-- With 20 decimals a debug build panics, and a release build divides by `10 ^ 20 % 2 ^ 64`: that
many of the smallest units are written as one token. -/
theorem token_round_trip_fails :
    ¬ ∀ (build : Build) (parseUnits : String → ℕ → Option ℕ) (token : NativeToken),
      ExactUnits parseUnits → token.minBalance < 2 ^ 256 → token.topUpAmount < 2 ^ 256 →
      (token.serialize build).map (NativeToken.deserialize parseUnits) = some token := by
  intro h
  have hrelease := h .release parseUnitsExactly ⟨⟨10 ^ 20 % 2 ^ 64, 10 ^ 20 % 2 ^ 64⟩, 20⟩
    parseUnitsExactly_exact (by decide) (by decide)
  revert hrelease
  decide

end Rrelayer
