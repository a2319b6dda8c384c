import Rrelayer.RateLimiter
import Mathlib.Data.List.Basic

/-! The accounts of a Turnkey wallet, cached under the number at the end of their derivation
path. -/
namespace Rrelayer

/-- An account as Turnkey lists it, as far as its lookup goes. -/
structure TurnkeyAccount where
  address : String
  path : String
  deriving DecidableEq, Repr

inductive TurnkeyError where
  | networkError (message : String)
  | apiError (message : String)
  deriving DecidableEq, Repr

/-- The answer to a listing. One that is not a success is taken for an empty wallet. -/
inductive ListAccountsResponse where
  | failed (message : String)
  | refused
  | accounts (accounts : List TurnkeyAccount)
  deriving DecidableEq, Repr

/-- The path of a relayer's account. -/
def walletPath (walletIndex : ℕ) : String := "m/44'/60'/0'/0/" ++ toString walletIndex

/-- The part after the last slash. -/
def lastPart (path : String) : List Char := (path.toList.reverse.takeWhile (· != '/')).reverse

def extractWalletIndexFromPath (path : String) : Option ℕ := parseU32 (lastPart path)

/-- The number an account is cached under. -/
def TurnkeyAccount.index (account : TurnkeyAccount) : Option ℕ :=
  extractWalletIndexFromPath account.path

def TurnkeyAccount.OnItsPath (account : TurnkeyAccount) (walletIndex : ℕ) : Prop :=
  account.path = walletPath walletIndex

structure TurnkeyWalletManager where
  accounts : ℕ → Option TurnkeyAccount

namespace TurnkeyWalletManager

def empty : TurnkeyWalletManager := ⟨fun _ => none⟩

/-- An account under a number takes the place of an earlier one. -/
def insert (m : TurnkeyWalletManager) (account : TurnkeyAccount) : TurnkeyWalletManager :=
  match account.index with
  | none => m
  | some index => ⟨fun i => if i = index then some account else m.accounts i⟩

def loadAccounts (m : TurnkeyWalletManager) (response : ListAccountsResponse) :
    Except TurnkeyError TurnkeyWalletManager :=
  match response with
  | .failed message => .error (.networkError message)
  | .refused => .ok m
  | .accounts accounts => .ok (accounts.foldl insert m)

/-- The manager after some loads. One that fails leaves the cache as it is. -/
def afterLoads (m : TurnkeyWalletManager) (responses : List ListAccountsResponse) :
    TurnkeyWalletManager :=
  responses.foldl (fun m response => (m.loadAccounts response).toOption.getD m) m

/-- `or_insert`, with the path written down for a new account. -/
def orInsert (m : TurnkeyWalletManager) (walletIndex : ℕ) (address : String) :
    TurnkeyWalletManager :=
  match m.accounts walletIndex with
  | some _ => m
  | none => ⟨fun i => if i = walletIndex then
      some ⟨address, "m/44'/60'/" ++ toString walletIndex ++ "'/0/0"⟩ else m.accounts i⟩

/-- The wallet of an index: a cached account, or one created for it. `create` is the address in
the answer to the creation, `parse` reads an address. -/
def createWallet (m : TurnkeyWalletManager) (parse : String → Except String EvmAddress)
    (walletIndex : ℕ) (response : ListAccountsResponse) (create : Except TurnkeyError String) :
    Except TurnkeyError EvmAddress × TurnkeyWalletManager :=
  match m.loadAccounts response with
  | .error e => (.error e, m)
  | .ok m =>
      match m.accounts walletIndex with
      | some account =>
          ((parse account.address).mapError fun e =>
            .apiError ("Invalid address format: " ++ e), m)
      | none =>
          match create with
          | .error e => (.error e, m)
          | .ok addressStr =>
              match parse addressStr with
              | .error e => (.error (.apiError ("Invalid address format: " ++ e)), m)
              | .ok address => (.ok address, m.orInsert walletIndex addressStr)

/-- The account an answer of `createWallet` is read off, where none is created. -/
def cachedAnswer (m : TurnkeyWalletManager) (walletIndex : ℕ) (response : ListAccountsResponse) :
    Option TurnkeyAccount :=
  (m.loadAccounts response).toOption.bind (·.accounts walletIndex)

end TurnkeyWalletManager

/-- What the listings of some loads held, in the order they were read. -/
def listed (responses : List ListAccountsResponse) : List TurnkeyAccount :=
  responses.flatMap fun
    | .accounts accounts => accounts
    | _ => []

namespace TurnkeyWalletManager

variable {m : TurnkeyWalletManager} {account : TurnkeyAccount} {walletIndex : ℕ}

/-- The last account read for a number is the one cached under it. -/
theorem foldl_insert_accounts (accounts : List TurnkeyAccount) (m : TurnkeyWalletManager) :
    (accounts.foldl insert m).accounts walletIndex =
      (accounts.reverse.find? fun a => a.index == some walletIndex).or
        (m.accounts walletIndex) := by
  induction accounts generalizing m with
  | nil => rfl
  | cons account accounts ih =>
    have hinsert : (m.insert account).accounts walletIndex =
        ([account].find? fun a => a.index == some walletIndex).or (m.accounts walletIndex) := by
      unfold insert
      cases hindex : account.index with
      | none => simp [hindex]
      | some index =>
        by_cases hsame : walletIndex = index
        · simp [hindex, hsame]
        · have hother : index ≠ walletIndex := fun h => hsame h.symm
          simp [hindex, hsame, hother]
    rw [List.foldl_cons, ih, hinsert, List.reverse_cons, List.find?_append, Option.or_assoc]

theorem afterLoads_accounts (responses : List ListAccountsResponse) (m : TurnkeyWalletManager) :
    (m.afterLoads responses).accounts = ((listed responses).foldl insert m).accounts := by
  induction responses generalizing m with
  | nil => rfl
  | cons response responses ih =>
    have hrest := ih ((m.loadAccounts response).toOption.getD m)
    cases response with
    | failed message => exact hrest
    | refused => exact hrest
    | accounts accounts =>
      refine hrest.trans ?_
      simp only [listed, List.flatMap_cons, List.foldl_append]
      rfl

/-- What is cached under an index is the last account read for it. -/
theorem afterLoads_accounts_iff {responses : List ListAccountsResponse} :
    (empty.afterLoads responses).accounts walletIndex = some account ↔
      ∃ earlier later, listed responses = earlier ++ account :: later ∧
        account.index = some walletIndex ∧ ∀ a ∈ later, a.index ≠ some walletIndex := by
  have hempty : empty.accounts walletIndex = none := rfl
  rw [afterLoads_accounts, foldl_insert_accounts, hempty, Option.or_none,
    List.find?_eq_some_iff_append]
  constructor
  · rintro ⟨hindex, later, earlier, hsplit, hlater⟩
    refine ⟨earlier.reverse, later.reverse, ?_, by simpa using hindex, ?_⟩
    · have hback := congrArg List.reverse hsplit
      simpa using hback
    · intro a ha
      simpa using hlater a (List.mem_reverse.mp ha)
  · rintro ⟨earlier, later, hsplit, hindex, hlater⟩
    refine ⟨by simpa using hindex, later.reverse, earlier.reverse, ?_, ?_⟩
    · rw [hsplit]
      simp
    · intro a ha
      simpa using hlater a (List.mem_reverse.mp ha)

/-- An answer out of the cache is the address of the account found there, and nothing is
created. -/
theorem createWallet_cached {parse : String → Except String EvmAddress}
    {response : ListAccountsResponse} {create : Except TurnkeyError String}
    (hcached : m.cachedAnswer walletIndex response = some account) :
    (m.createWallet parse walletIndex response create).1 =
      (parse account.address).mapError fun e => .apiError ("Invalid address format: " ++ e) := by
  unfold cachedAnswer at hcached
  unfold createWallet
  cases hload : m.loadAccounts response with
  | error e =>
    rw [hload] at hcached
    cases hcached
  | ok m' =>
    rw [hload] at hcached
    have hfound : m'.accounts walletIndex = some account := hcached
    dsimp only
    rw [hfound]

theorem cachedAnswer_afterLoads {responses : List ListAccountsResponse}
    {response : ListAccountsResponse} (hserved : ∀ message, response ≠ .failed message) :
    (empty.afterLoads responses).cachedAnswer walletIndex response =
      (empty.afterLoads (responses ++ [response])).accounts walletIndex := by
  have hsnoc : empty.afterLoads (responses ++ [response]) =
      (((empty.afterLoads responses).loadAccounts response).toOption).getD
        (empty.afterLoads responses) := by
    simp [afterLoads, List.foldl_append]
  rw [hsnoc]
  cases response with
  | failed message => exact (hserved message rfl).elim
  | refused => rfl
  | accounts accounts => rfl

/-- Digits are read as the number they are. -/
theorem parseU32_digits {digits : List Char} (hne : digits ≠ [])
    (hdigits : ∀ c ∈ digits, c.isDigit = true) (hfits : Nat.ofDigitChars 10 digits 0 < 2 ^ 32) :
    parseU32 digits = some (Nat.ofDigitChars 10 digits 0) := by
  have hsign : digits.head? ≠ some '+' := by
    intro hhead
    exact absurd (hdigits '+' (List.mem_of_head? hhead)) (by decide)
  have hall : digits.any (fun c => !c.isDigit) = false := by
    simpa [List.any_eq_false] using hdigits
  have hvalue : digits.foldl (fun n c => n * 10 + (c.toNat - '0'.toNat)) 0 =
      Nat.ofDigitChars 10 digits 0 := by
    rw [Nat.ofDigitChars_eq_foldl]
    congr 1
    funext n c
    rw [Nat.mul_comm]
  unfold parseU32
  rw [if_neg hsign]
  dsimp only
  rw [hall, hvalue, if_pos hfits]
  simp [hne]

/-- An account at the path of an index is read for that index. -/
theorem index_walletPath (hfits : walletIndex < 2 ^ 32) :
    extractWalletIndexFromPath (walletPath walletIndex) = some walletIndex := by
  have hdigits : ∀ c ∈ Nat.toDigits 10 walletIndex, c.isDigit = true := fun c hc =>
    Nat.isDigit_of_mem_toDigits (by decide) (by decide) hc
  have hlast : lastPart (walletPath walletIndex) = Nat.toDigits 10 walletIndex := by
    have hpath : (walletPath walletIndex).toList =
        "m/44'/60'/0'/0/".toList ++ Nat.toDigits 10 walletIndex := by
      unfold walletPath
      rw [String.toList_append, Nat.toString_eq_ofList_toDigits]
      exact congrArg _ String.toList_ofList
    have hslash : "m/44'/60'/0'/0/".toList.reverse.takeWhile (· != '/') = [] := by decide
    have hnoslash : ∀ c ∈ (Nat.toDigits 10 walletIndex).reverse, (c != '/') = true := by
      intro c hc
      have hdigit := hdigits c (List.mem_reverse.mp hc)
      by_contra hslash
      have heq : c = '/' := by simpa using hslash
      rw [heq] at hdigit
      exact absurd hdigit (by decide)
    unfold lastPart
    rw [hpath, List.reverse_append, List.takeWhile_append_of_pos hnoslash, hslash, List.append_nil,
      List.reverse_reverse]
  have hvalue : Nat.ofDigitChars 10 (Nat.toDigits 10 walletIndex) 0 = walletIndex :=
    Nat.ofDigitChars_ten_toDigits
  unfold extractWalletIndexFromPath
  rw [hlast, parseU32_digits Nat.toDigits_ne_nil hdigits (by rw [hvalue]; exact hfits), hvalue]

/-- The cache has the account of an index at the index's path exactly when, of the accounts read for
a number, the last one is at its path. -/
theorem cachedAnswer_on_path_iff (responses : List ListAccountsResponse)
    (response : ListAccountsResponse) :
    (∀ walletIndex account,
        (empty.afterLoads responses).cachedAnswer walletIndex response = some account →
        account.OnItsPath walletIndex) ↔
      (∃ message, response = .failed message) ∨
        ∀ earlier account later walletIndex,
          listed (responses ++ [response]) = earlier ++ account :: later →
          account.index = some walletIndex → (∀ a ∈ later, a.index ≠ some walletIndex) →
          account.OnItsPath walletIndex := by
  by_cases hfailed : ∃ message, response = .failed message
  · obtain ⟨message, rfl⟩ := hfailed
    constructor
    · intro _
      exact .inl ⟨message, rfl⟩
    · intro _ walletIndex account hcached
      cases hcached
  · have hserved : ∀ message, response ≠ .failed message := fun message h =>
      hfailed ⟨message, h⟩
    simp only [hfailed, false_or, cachedAnswer_afterLoads hserved, afterLoads_accounts_iff]
    constructor
    · intro h earlier account later walletIndex hsplit hindex hlater
      exact h walletIndex account ⟨earlier, later, hsplit, hindex, hlater⟩
    · rintro h walletIndex account ⟨earlier, later, hsplit, hindex, hlater⟩
      exact h earlier account later walletIndex hsplit hindex hlater

/-- Whatever the order and number of the loads, no index gets an account of another path exactly
when the wallet holds no such account that ends in a number. -/
theorem every_order_on_path_iff (held : List TurnkeyAccount) :
    (∀ responses, (∀ a ∈ listed responses, a ∈ held) → ∀ walletIndex account,
        (empty.afterLoads responses).accounts walletIndex = some account →
        account.OnItsPath walletIndex) ↔
      ∀ account ∈ held, ∀ walletIndex, account.index = some walletIndex →
        account.OnItsPath walletIndex := by
  constructor
  · intro h account hheld walletIndex hindex
    apply h [.accounts [account]] (by simpa [listed] using hheld)
    exact afterLoads_accounts_iff.mpr ⟨[], [], rfl, hindex, by simp⟩
  · intro h responses hlisted walletIndex account hloaded
    obtain ⟨earlier, later, hsplit, hindex, -⟩ := afterLoads_accounts_iff.mp hloaded
    apply h account _ walletIndex hindex
    apply hlisted
    rw [hsplit]
    simp

/-- What `create_wallet` answers out of the cache is the address of the account at the index's path,
for every index, exactly when of the accounts read for a number the last one is at its path; and
whatever the order and number of the loads, exactly when the wallet holds no account of another path
that ends in a number. -/
theorem cached_account_on_path_iff (responses : List ListAccountsResponse)
    (response : ListAccountsResponse) (held : List TurnkeyAccount) :
    ((∀ walletIndex account,
        (empty.afterLoads responses).cachedAnswer walletIndex response = some account →
        account.OnItsPath walletIndex ∧ ∀ parse create,
          ((empty.afterLoads responses).createWallet parse walletIndex response create).1 =
            (parse account.address).mapError fun e =>
              .apiError ("Invalid address format: " ++ e)) ↔
      (∃ message, response = .failed message) ∨
        ∀ earlier account later walletIndex,
          listed (responses ++ [response]) = earlier ++ account :: later →
          account.index = some walletIndex → (∀ a ∈ later, a.index ≠ some walletIndex) →
          account.OnItsPath walletIndex) ∧
    ((∀ loads, (∀ a ∈ listed loads, a ∈ held) → ∀ walletIndex account,
        (empty.afterLoads loads).accounts walletIndex = some account →
        account.OnItsPath walletIndex) ↔
      ∀ account ∈ held, ∀ walletIndex, account.index = some walletIndex →
        account.OnItsPath walletIndex) := by
  refine ⟨?_, every_order_on_path_iff held⟩
  rw [← cachedAnswer_on_path_iff]
  constructor
  · exact fun h walletIndex account hcached => (h walletIndex account hcached).1
  · intro h walletIndex account hcached
    exact ⟨h walletIndex account hcached, fun parse create => createWallet_cached hcached⟩

/-- A second account of the wallet, in another hardened branch, ends in the same number. -/
theorem cached_account_off_path :
    ¬ ∀ (responses : List ListAccountsResponse) (response : ListAccountsResponse)
      (walletIndex : ℕ) (account : TurnkeyAccount),
      (empty.afterLoads responses).cachedAnswer walletIndex response = some account →
      account.OnItsPath walletIndex := by
  intro h
  have hpath := h [] (.accounts [⟨"0x00000000000000000000000000000000000000a3",
    "m/44'/60'/0'/0/3"⟩, ⟨"0x00000000000000000000000000000000000000b3", "m/44'/60'/1'/0/3"⟩]) 3
    ⟨"0x00000000000000000000000000000000000000b3", "m/44'/60'/1'/0/3"⟩ (by decide)
  revert hpath
  unfold TurnkeyAccount.OnItsPath
  decide

end TurnkeyWalletManager
end Rrelayer
