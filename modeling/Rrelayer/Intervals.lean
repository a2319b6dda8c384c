import Rrelayer.RateLimiter
import Rrelayer.TokenAmounts
import Mathlib.Algebra.Order.BigOperators.GroupWithZero.List

/-! The two readers of an interval string: the one of cron jobs, in 64-bit seconds, and the one of
rate limits, in 32-bit seconds. -/
namespace Rrelayer

/-- A product of unsigned integers; absent where it panics. -/
def mulUnsigned (bits : ℕ) (build : Build) (a b : ℕ) : Option ℕ :=
  match build with
  | .debug => if a * b < 2 ^ bits then some (a * b) else none
  | .release => some (a * b % 2 ^ bits)

/-- The number that decimal digits with an optional plus sign stand for. -/
def readDigits (s : List Char) : Option ℕ :=
  let digits := if s.head? = some '+' then s.tail else s
  if digits.isEmpty || digits.any (fun c => !c.isDigit) then none
  else some (Nat.ofDigitChars 10 digits 0)

def parseU64 (s : List Char) : Option ℕ := (readDigits s).filter (· < 2 ^ 64)

/-- What the amount is multiplied by, from the left. -/
def intervalFactors : Char → Option (List ℕ)
  | 's' => some []
  | 'm' => some [60]
  | 'h' => some [60, 60]
  | 'd' => some [60, 60, 24]
  | 'w' => some [60, 60, 24, 7]
  | _ => none

/-- The seconds of the interval; absent where a product panics. -/
def parseCronJobInterval (build : Build) (interval : String) : Option (Except String ℕ) :=
  let trimmed := trim interval.toList
  -- The bytes of an ASCII text are its characters.
  if trimmed.length < 2 ∨ trimmed.any (fun c => 128 ≤ c.toNat) then
    some (.error "interval must include a positive number and unit")
  else
    match parseU64 trimmed.dropLast with
    | none => some (.error
        "interval must include a positive whole number followed by s, m, h, d, or w")
    | some amount =>
        if amount = 0 then some (.error "interval must be greater than zero")
        else
          match trimmed.getLast?.bind intervalFactors with
          | none => some (.error "interval unit must be one of s, m, h, d, or w")
          | some factors => (factors.foldlM (mulUnsigned 64 build) amount).map .ok

/-- `parseInterval` in either build; absent where the product panics. -/
def parseIntervalIn (build : Build) (interval : String) : Option ℕ :=
  let interval := trim interval.toList
  if interval = "second".toList ∨ interval = "seconds".toList then some 1
  else if interval = "minute".toList ∨ interval = "minutes".toList then some 60
  else
    match stripSuffix interval 's' with
    | some seconds => some (max ((parseU32 seconds).getD 60) 1)
    | none =>
      match stripSuffix interval 'm' with
      | some minutes =>
          match parseU32 minutes with
          | some value => (mulUnsigned 32 build value 60).map (max · 1)
          | none => some 60
      | none => some 60

def secondsOf : Char → Option ℕ
  | 's' => some 1
  | 'm' => some 60
  | 'h' => some 3600
  | 'd' => some 86400
  | 'w' => some 604800
  | _ => none

/-- The amount and the seconds of the unit that an interval is written with. -/
def ReadsAs (interval : String) (amount unitSeconds : ℕ) : Prop :=
  readDigits (trim interval.toList).dropLast = some amount ∧
    (trim interval.toList).getLast?.bind secondsOf = some unitSeconds

/-- Interval strings mean what they say. -/
structure IntervalMeaning (build : Build) (interval : String) : Prop where
  noPanic : parseCronJobInterval build interval ≠ none
  exact : ∀ seconds, parseCronJobInterval build interval = some (.ok seconds) →
    ∃ amount unitSeconds, ReadsAs interval amount unitSeconds ∧ seconds = amount * unitSeconds
  agrees : ∀ digits unit seconds, interval.toList = digits ++ [unit] →
    (∀ c ∈ digits, c.isDigit = true) → unit = 's' ∨ unit = 'm' →
    parseCronJobInterval build interval = some (.ok seconds) → seconds < 2 ^ 32 →
    parseIntervalIn build interval = some seconds

/-- An amount of 64 bits keeps to them in seconds. -/
def SecondsFit (interval : String) : Prop :=
  ∀ amount unitSeconds, ReadsAs interval amount unitSeconds → amount < 2 ^ 64 →
    amount * unitSeconds < 2 ^ 64

section Readers

variable {build : Build} {interval : String} {s digits : List Char} {unit : Char}
  {amount unitSeconds a b n bits : ℕ}

theorem mulUnsigned_of_fits (h : a * b < 2 ^ bits) :
    mulUnsigned bits build a b = some (a * b) := by
  cases build with
  | debug => rw [mulUnsigned, if_pos h]
  | release => rw [mulUnsigned, Nat.mod_eq_of_lt h]

theorem fits_of_mulUnsigned (h : mulUnsigned bits build a b = some (a * b)) :
    a * b < 2 ^ bits := by
  cases build with
  | debug =>
    simp only [mulUnsigned, Option.ite_none_right_eq_some, and_true] at h
    exact h
  | release =>
    have hmod := Option.some.inj h
    rw [← hmod]
    exact Nat.mod_lt _ (Nat.two_pow_pos bits)

/-- Multiplying factor by factor is multiplying by their product. -/
theorem foldlM_mulUnsigned {factors : List ℕ} (hpos : ∀ f ∈ factors, 0 < f) (h : a < 2 ^ bits) :
    factors.foldlM (mulUnsigned bits build) a = mulUnsigned bits build a factors.prod := by
  induction factors generalizing a with
  | nil => simp [mulUnsigned_of_fits, h]
  | cons f factors ih =>
    have hprod : 0 < factors.prod :=
      List.prod_pos fun g hg => hpos g (List.mem_cons_of_mem _ hg)
    have hrest : ∀ g ∈ factors, 0 < g := fun g hg => hpos g (List.mem_cons_of_mem _ hg)
    rw [List.foldlM_cons, List.prod_cons]
    cases build with
    | debug =>
      by_cases hstep : a * f < 2 ^ bits
      · have hmul : mulUnsigned bits .debug a f = some (a * f) := by rw [mulUnsigned, if_pos hstep]
        rw [hmul, Option.bind_eq_bind, Option.bind_some, ih hrest hstep]
        simp only [mulUnsigned, Nat.mul_assoc]
      · have hmul : mulUnsigned bits .debug a f = none := by rw [mulUnsigned, if_neg hstep]
        have hle : a * f ≤ a * (f * factors.prod) := by
          rw [← Nat.mul_assoc]
          exact Nat.le_mul_of_pos_right _ hprod
        rw [hmul, mulUnsigned, if_neg (by omega)]
        rfl
    | release =>
      have hmul : mulUnsigned bits .release a f = some (a * f % 2 ^ bits) := rfl
      rw [hmul, Option.bind_eq_bind, Option.bind_some,
        ih hrest (Nat.mod_lt _ (Nat.two_pow_pos bits))]
      simp only [mulUnsigned, Nat.mod_mul_mod, Nat.mul_assoc]

theorem parseU32_eq (s : List Char) : parseU32 s = (readDigits s).filter (· < 2 ^ 32) := by
  have hvalue : ∀ digits : List Char,
      digits.foldl (fun n c => n * 10 + (c.toNat - '0'.toNat)) 0 = Nat.ofDigitChars 10 digits 0 := by
    intro digits
    rw [Nat.ofDigitChars_eq_foldl]
    congr 1
    funext n c
    rw [Nat.mul_comm]
  unfold parseU32 readDigits
  simp only [hvalue]
  split_ifs <;> simp_all [Option.filter_some]

theorem secondsOf_eq (unit : Char) : secondsOf unit = (intervalFactors unit).map List.prod := by
  unfold secondsOf intervalFactors
  split <;> rfl

theorem intervalFactors_pos {factors : List ℕ} (h : intervalFactors unit = some factors) :
    ∀ f ∈ factors, 0 < f := by
  unfold intervalFactors at h
  split at h <;> cases h <;> simp

theorem parseU64_eq_some : parseU64 s = some n ↔ readDigits s = some n ∧ n < 2 ^ 64 := by
  rw [parseU64, Option.filter_eq_some_iff, decide_eq_true_iff]

theorem readDigits_digits (hne : digits ≠ []) (hdigits : ∀ c ∈ digits, c.isDigit = true) :
    readDigits digits = some (Nat.ofDigitChars 10 digits 0) := by
  have hsign : digits.head? ≠ some '+' := by
    intro hhead
    exact absurd (hdigits '+' (List.mem_of_head? hhead)) (by decide)
  have hall : digits.any (fun c => !c.isDigit) = false := by
    simpa [List.any_eq_false] using hdigits
  rw [readDigits, if_neg hsign, hall]
  simp [hne]

theorem digit_range {c : Char} (h : c.isDigit = true) : 48 ≤ c.toNat ∧ c.toNat ≤ 57 :=
  Char.isDigit_iff_toNat.mp h

/-- What a number is read from is ASCII. -/
theorem ascii_of_readDigits (h : readDigits s = some n) : s ≠ [] ∧ ∀ c ∈ s, c.toNat < 128 := by
  have hdigits : ∀ {digits : List Char},
      ¬(digits.isEmpty || digits.any (fun c => !c.isDigit)) = true →
      digits ≠ [] ∧ ∀ c ∈ digits, c.toNat < 128 := by
    intro digits hread
    simp only [Bool.or_eq_true, List.isEmpty_iff, List.any_eq_true, Bool.not_eq_true', not_or,
      not_exists, not_and, Bool.not_eq_false] at hread
    refine ⟨hread.1, fun c hc => ?_⟩
    have hrange := digit_range (hread.2 c hc)
    omega
  by_cases hsign : s.head? = some '+'
  · obtain ⟨rest, rfl⟩ := List.head?_eq_some_iff.mp hsign
    rw [readDigits, if_pos hsign, Option.ite_none_left_eq_some] at h
    have hrest := (hdigits h.1).2
    constructor
    · exact List.cons_ne_nil _ _
    · intro c hc
      rcases List.mem_cons.mp hc with rfl | hc
      · decide
      · exact hrest c hc
  · rw [readDigits, if_neg hsign, Option.ite_none_left_eq_some] at h
    exact hdigits h.1

theorem ascii_of_intervalFactors {factors : List ℕ} (h : intervalFactors unit = some factors) :
    unit.toNat < 128 := by
  unfold intervalFactors at h
  split at h <;> cases h
  all_goals decide

theorem trim_eq_self (h : ∀ c ∈ s, isWhitespace c = false) : trim s = s := by
  have hdrop : ∀ t : List Char, (∀ c ∈ t, isWhitespace c = false) →
      t.dropWhile isWhitespace = t := by
    intro t ht
    cases t with
    | nil => rfl
    | cons c t => rw [List.dropWhile_cons_of_neg (by simp [ht c List.mem_cons_self])]
  unfold trim
  rw [hdrop s h, hdrop s.reverse (fun c hc => h c (List.mem_reverse.mp hc)), List.reverse_reverse]

theorem isWhitespace_digit {c : Char} (h : c.isDigit = true) : isWhitespace c = false := by
  have hrange := digit_range h
  simp [isWhitespace]
  omega

theorem trim_of_digits (hdigits : ∀ c ∈ digits, c.isDigit = true)
    (hunit : isWhitespace unit = false) : trim (digits ++ [unit]) = digits ++ [unit] := by
  apply trim_eq_self
  intro c hc
  rcases List.mem_append.mp hc with hc | hc
  · exact isWhitespace_digit (hdigits c hc)
  · rw [List.mem_singleton.mp hc]
    exact hunit

theorem ReadsAs.unique {amount' unitSeconds' : ℕ} (h : ReadsAs interval amount unitSeconds)
    (h' : ReadsAs interval amount' unitSeconds') : amount' = amount ∧ unitSeconds' = unitSeconds :=
  ⟨Option.some.inj (h'.1.symm.trans h.1), Option.some.inj (h'.2.symm.trans h.2)⟩

/-- An interval that reads as an amount and a unit is their product, as the build computes it. -/
theorem parseCronJobInterval_of_readsAs (build : Build)
    (h : ReadsAs interval amount unitSeconds) (hpos : 0 < amount) (hlt : amount < 2 ^ 64) :
    parseCronJobInterval build interval =
      (mulUnsigned 64 build amount unitSeconds).map Except.ok := by
  obtain ⟨hamount, hunit⟩ := h
  obtain ⟨unit, hlast, hseconds⟩ := Option.bind_eq_some_iff.mp hunit
  rw [secondsOf_eq] at hseconds
  obtain ⟨factors, hfactors, rfl⟩ := Option.map_eq_some_iff.mp hseconds
  obtain ⟨hne, hascii⟩ := ascii_of_readDigits hamount
  obtain ⟨digits, htrim⟩ := List.getLast?_eq_some_iff.mp hlast
  have hshape : ¬((trim interval.toList).length < 2 ∨
      (trim interval.toList).any (fun c => 128 ≤ c.toNat)) := by
    rw [htrim, List.dropLast_concat] at hne hascii
    have hlen := List.length_pos_of_ne_nil hne
    have hunitAscii := ascii_of_intervalFactors hfactors
    rw [htrim, List.length_append, List.length_singleton, List.any_append, Bool.or_eq_true,
      List.any_eq_true, List.any_eq_true]
    rintro (hshort | ⟨c, hc, hlarge⟩ | ⟨c, hc, hlarge⟩)
    · omega
    · have hsmall := hascii c hc
      rw [decide_eq_true_iff] at hlarge
      omega
    · rw [List.mem_singleton.mp hc, decide_eq_true_iff] at hlarge
      omega
  rw [parseCronJobInterval, if_neg hshape, parseU64_eq_some.mpr ⟨hamount, hlt⟩]
  dsimp only
  rw [if_neg (by omega), hlast, Option.bind_some, hfactors]
  dsimp only
  rw [foldlM_mulUnsigned (intervalFactors_pos hfactors) hlt]

/-- Whatever is not refused reads as an amount and a unit. -/
theorem parseCronJobInterval_cases (build : Build) (interval : String) :
    (∃ message, parseCronJobInterval build interval = some (.error message)) ∨
      ∃ amount unitSeconds, ReadsAs interval amount unitSeconds ∧ 0 < amount ∧ amount < 2 ^ 64 ∧
        parseCronJobInterval build interval =
          (mulUnsigned 64 build amount unitSeconds).map Except.ok := by
  by_cases hreads : ∃ amount unitSeconds,
      ReadsAs interval amount unitSeconds ∧ 0 < amount ∧ amount < 2 ^ 64
  · obtain ⟨amount, unitSeconds, h, hpos, hlt⟩ := hreads
    exact .inr ⟨amount, unitSeconds, h, hpos, hlt,
      parseCronJobInterval_of_readsAs build h hpos hlt⟩
  · left
    unfold parseCronJobInterval
    dsimp only
    split
    · exact ⟨_, rfl⟩
    · split
      · exact ⟨_, rfl⟩
      next amount hamount =>
        split
        · exact ⟨_, rfl⟩
        next hzero =>
          split
          · exact ⟨_, rfl⟩
          next factors hfactors =>
            obtain ⟨hread, hlt⟩ := parseU64_eq_some.mp hamount
            obtain ⟨unit, hlast, hunit⟩ := Option.bind_eq_some_iff.mp hfactors
            have hseconds : (trim interval.toList).getLast?.bind secondsOf =
                some factors.prod := by
              rw [hlast, Option.bind_some, secondsOf_eq, hunit, Option.map_some]
            exact absurd ⟨amount, factors.prod, ⟨hread, hseconds⟩, by omega, hlt⟩ hreads

theorem parseCronJobInterval_of_fits (build : Build) (hfit : SecondsFit interval) :
    (∃ message, parseCronJobInterval build interval = some (.error message)) ∨
      ∃ amount unitSeconds, ReadsAs interval amount unitSeconds ∧ 0 < amount ∧
        parseCronJobInterval build interval = some (.ok (amount * unitSeconds)) := by
  rcases parseCronJobInterval_cases build interval with
    herror | ⟨amount, unitSeconds, hreads, hpos, hlt, hparse⟩
  · exact .inl herror
  · rw [mulUnsigned_of_fits (hfit amount unitSeconds hreads hlt)] at hparse
    exact .inr ⟨amount, unitSeconds, hreads, hpos, hparse⟩

theorem parseIntervalIn_release (interval : String) :
    parseIntervalIn .release interval = some (parseInterval interval) := by
  unfold parseIntervalIn parseInterval
  dsimp only
  split_ifs
  · rfl
  · rfl
  · cases stripSuffix (trim interval.toList) 's' with
    | some seconds => rfl
    | none =>
      cases stripSuffix (trim interval.toList) 'm' with
      | none => rfl
      | some minutes =>
        dsimp only
        cases parseU32 minutes with
        | none => rfl
        | some value => rfl

theorem stripSuffix_concat (s : List Char) (c : Char) : stripSuffix (s ++ [unit]) c =
    if unit = c then some s else none := by
  simp [stripSuffix]

theorem parseU32_of_readDigits (h : readDigits s = some n) (hlt : n < 2 ^ 32) :
    parseU32 s = some n := by
  rw [parseU32_eq, Option.filter_eq_some_iff, decide_eq_true_iff]
  exact ⟨h, hlt⟩

/-- Digits and a unit of seconds or minutes, below the 32 bits of the answer. -/
theorem parseIntervalIn_digits (hlist : interval.toList = digits ++ [unit])
    (hdigits : ∀ c ∈ digits, c.isDigit = true) (hunit : unit = 's' ∨ unit = 'm')
    (hreads : ReadsAs interval amount unitSeconds) (hpos : 0 < amount)
    (hlt : amount * unitSeconds < 2 ^ 32) :
    parseIntervalIn build interval = some (amount * unitSeconds) := by
  obtain ⟨hamount, hsecs⟩ := hreads
  have hspace : isWhitespace unit = false := by
    rcases hunit with rfl | rfl <;> decide
  have htrim : trim interval.toList = digits ++ [unit] := by
    rw [hlist, trim_of_digits hdigits hspace]
  rw [htrim, List.dropLast_concat] at hamount
  rw [htrim, List.getLast?_concat, Option.bind_some] at hsecs
  have hword : ∀ word : List Char, word.dropLast.all Char.isDigit = false →
      digits ++ [unit] ≠ word := by
    rintro word hword rfl
    rw [List.dropLast_concat, List.all_eq_true.mpr hdigits] at hword
    cases hword
  unfold parseIntervalIn
  dsimp only
  rw [htrim, if_neg (by simp [hword]), if_neg (by simp [hword])]
  rcases hunit with rfl | rfl
  · cases hsecs
    rw [Nat.mul_one] at hlt ⊢
    rw [stripSuffix_concat, if_pos rfl]
    dsimp only
    rw [parseU32_of_readDigits hamount hlt, Option.getD_some, max_eq_left hpos]
  · cases hsecs
    rw [stripSuffix_concat, if_neg (by decide), stripSuffix_concat, if_pos rfl]
    dsimp only
    rw [parseU32_of_readDigits hamount (by omega)]
    dsimp only
    rw [mulUnsigned_of_fits hlt, Option.map_some, max_eq_left (by omega)]

/-- A positive number written out before its unit is read back in seconds. -/
theorem parseCronJobInterval_written (hpos : 0 < n) (hunit : secondsOf unit = some unitSeconds)
    (hfits : n * unitSeconds < 2 ^ 64) :
    parseCronJobInterval build (String.ofList (Nat.toDigits 10 n ++ [unit])) =
      some (.ok (n * unitSeconds)) := by
  have hdigits : ∀ c ∈ Nat.toDigits 10 n, c.isDigit = true := fun c hc =>
    Nat.isDigit_of_mem_toDigits (by decide) (by decide) hc
  have hseconds : isWhitespace unit = false ∧ 0 < unitSeconds := by
    unfold secondsOf at hunit
    split at hunit <;> cases hunit
    all_goals decide
  have hreads : ReadsAs (String.ofList (Nat.toDigits 10 n ++ [unit])) n unitSeconds := by
    rw [ReadsAs, String.toList_ofList, trim_of_digits hdigits hseconds.1, List.dropLast_concat,
      List.getLast?_concat, Option.bind_some, hunit, readDigits_digits Nat.toDigits_ne_nil hdigits,
      Nat.ofDigitChars_ten_toDigits]
    exact ⟨rfl, rfl⟩
  have hlt : n < 2 ^ 64 := lt_of_le_of_lt (Nat.le_mul_of_pos_right n hseconds.2) hfits
  rw [parseCronJobInterval_of_readsAs build hreads hpos hlt, mulUnsigned_of_fits hfits]
  rfl

example : parseCronJobInterval .debug "1w" = some (.ok 604800) := rfl

/-- An interval means what it says exactly when its amount in seconds keeps to 64 bits. -/
theorem intervalMeaning_iff (build : Build) (interval : String) :
    IntervalMeaning build interval ↔ SecondsFit interval := by
  constructor
  · intro hmeans amount unitSeconds hreads hlt
    by_contra hover
    have hpos : 0 < amount := by
      by_contra hzero
      have hprod : amount * unitSeconds = 0 := by rw [Nat.eq_zero_of_not_pos hzero, Nat.zero_mul]
      omega
    have hparse := parseCronJobInterval_of_readsAs build hreads hpos hlt
    cases hmul : mulUnsigned 64 build amount unitSeconds with
    | none =>
      rw [hmul] at hparse
      exact hmeans.noPanic hparse
    | some seconds =>
      rw [hmul] at hparse
      obtain ⟨amount', unitSeconds', hreads', hseconds⟩ := hmeans.exact seconds hparse
      obtain ⟨rfl, rfl⟩ := hreads.unique hreads'
      rw [hseconds] at hmul
      exact hover (fits_of_mulUnsigned hmul)
  · intro hfit
    have hcases := parseCronJobInterval_of_fits build hfit
    constructor
    · intro hnone
      rcases hcases with ⟨message, herror⟩ | ⟨amount, unitSeconds, -, -, hparse⟩
      · rw [hnone] at herror
        cases herror
      · rw [hnone] at hparse
        cases hparse
    · intro seconds hok
      rcases hcases with ⟨message, herror⟩ | ⟨amount, unitSeconds, hreads, -, hparse⟩
      · rw [hok] at herror
        cases herror
      · rw [hok] at hparse
        cases hparse
        exact ⟨amount, unitSeconds, hreads, rfl⟩
    · intro digits unit seconds hlist hdigits hunit hok hlt
      rcases hcases with ⟨message, herror⟩ | ⟨amount, unitSeconds, hreads, hpos, hparse⟩
      · rw [hok] at herror
        cases herror
      · rw [hok] at hparse
        cases hparse
        exact parseIntervalIn_digits hlist hdigits hunit hreads hpos hlt

/-- 60 times 307445734561825861 is 44 above `2 ^ 64`. A release build waits 44 seconds and a debug
build panics, and the rate limiter falls back to 60 seconds. -/
theorem interval_wraps :
    parseCronJobInterval .release "307445734561825861m" = some (.ok 44) ∧
      parseCronJobInterval .debug "307445734561825861m" = none ∧
      parseInterval "307445734561825861m" = 60 ∧
      ¬ IntervalMeaning .release "307445734561825861m" ∧
      ¬ IntervalMeaning .debug "307445734561825861m" := by
  have hreads : ReadsAs "307445734561825861m" 307445734561825861 60 := by
    constructor
    · decide +kernel
    · decide +kernel
  have hwraps : parseCronJobInterval .release "307445734561825861m" = some (.ok 44) :=
    parseCronJobInterval_of_readsAs .release hreads (by decide) (by decide)
  have hpanics : parseCronJobInterval .debug "307445734561825861m" = none :=
    parseCronJobInterval_of_readsAs .debug hreads (by decide) (by decide)
  have hrelease : ¬ IntervalMeaning .release "307445734561825861m" := by
    intro hmeans
    obtain ⟨amount, unitSeconds, hreads', hseconds⟩ := hmeans.exact 44 hwraps
    obtain ⟨rfl, rfl⟩ := hreads.unique hreads'
    omega
  have hdebug : ¬ IntervalMeaning .debug "307445734561825861m" := fun hmeans =>
    hmeans.noPanic hpanics
  exact ⟨hwraps, hpanics, by decide +kernel, hrelease, hdebug⟩

end Readers

end Rrelayer
