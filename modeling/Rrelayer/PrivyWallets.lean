import Rrelayer.Transaction
import Rrelayer.Lib.Directory
import Rrelayer.Lib.Machine

/-! Wallets of a Privy account. A wallet has no name that the relayer gave it: the wallet of an index
is the one at that position of the list Privy answers. Each manager keeps a cache of its own. -/
namespace Rrelayer

structure PrivyWallet where
  id : String
  address : EvmAddress
  deriving DecidableEq, Repr

/-- An answer to `GET /v1/wallets`, as far as the manager reads it. -/
structure PrivyPage where
  data : List PrivyWallet
  nextCursor : Option String
  deriving DecidableEq, Repr

/-- Privy as a manager meets it. A cursor stands for a position of the list of an account, no cursor
for its start. Each call is given its course, which is up to Privy and the network, and leaves an
account and an answer; the answer may be lost although the call was carried out. -/
structure PrivyService where
  Account : Type
  Course : Type
  wallets : Account → List PrivyWallet
  position : Option String → ℕ
  listWallets : Account → Option String → Course → Except String PrivyPage
  createWallet : Account → Course → Account × Except String PrivyWallet

/-- What the manager takes for granted of the list: its pages follow each other and end with the
list, the wallets stand in the order of their creation, and each has an id of its own. -/
structure PrivyService.Lawful (V : PrivyService) : Prop where
  position_none : V.position none = 0
  listWallets_page {account : V.Account} {cursor : Option String} {course : V.Course}
    {page : PrivyPage} (h : V.listWallets account cursor course = .ok page) :
    page.data <+: (V.wallets account).drop (V.position cursor)
  listWallets_next {account : V.Account} {cursor : Option String} {course : V.Course}
    {page : PrivyPage} {next : String} (h : V.listWallets account cursor course = .ok page)
    (hnext : page.nextCursor = some next) :
    V.position (some next) = V.position cursor + page.data.length
  listWallets_last {account : V.Account} {cursor : Option String} {course : V.Course}
    {page : PrivyPage} (h : V.listWallets account cursor course = .ok page)
    (hlast : page.nextCursor = none) : page.data = (V.wallets account).drop (V.position cursor)
  createWallet_wallets (account : V.Account) (course : V.Course) :
    V.wallets account <+: V.wallets (V.createWallet account course).1
  createWallet_new {account : V.Account} {course : V.Course} {wallet : PrivyWallet}
    (h : (V.createWallet account course).2 = .ok wallet) :
    V.wallets (V.createWallet account course).1 = V.wallets account ++ [wallet]
  wallets_ids (account : V.Account) : ((V.wallets account).map (·.id)).Nodup

/-- Where a call is: before a page of the list, before the look into the cache, before the answer
to a creation, or with the new wallet at hand. A load without an index is that of a new manager. -/
inductive PrivyStage where
  | loading (walletIndex : Option ℕ) (cursor : Option String) (allWallets : List PrivyWallet)
  | looking (walletIndex : ℕ)
  | creating (walletIndex : ℕ)
  | storing (walletIndex : ℕ) (newWallet : PrivyWallet)
  deriving DecidableEq, Repr

structure PrivyTask where
  manager : ℕ
  stage : PrivyStage
  deriving DecidableEq, Repr

/-- A wallet handed out for an index. -/
structure PrivyAnswer where
  walletIndex : ℕ
  wallet : PrivyWallet
  deriving DecidableEq, Repr

structure PrivyWorld (V : PrivyService) where
  account : V.Account
  wallets : ℕ → ℕ → Option PrivyWallet
  tasks : List PrivyTask
  answers : List PrivyAnswer

inductive PrivyEvent (V : PrivyService) where
  /-- A manager is built anew and starts to load the list. -/
  | new (manager : ℕ)
  | createWallet (manager walletIndex : ℕ)
  | getAddress (manager walletIndex : ℕ)
  /-- The call at a position goes on. -/
  | reply (position : ℕ) (course : V.Course)
  /-- Somebody else creates a wallet in the account. -/
  | other (course : V.Course)

namespace PrivyWorld

variable {V : PrivyService} (s : PrivyWorld V)

/-- The wallet at a position of the list. -/
def wallet (walletIndex : ℕ) : Option PrivyWallet := (V.wallets s.account)[walletIndex]?

def goOn (position manager : ℕ) (stage : PrivyStage) : PrivyWorld V :=
  { s with tasks := s.tasks.set position ⟨manager, stage⟩ }

def giveUp (position : ℕ) : PrivyWorld V := { s with tasks := s.tasks.eraseIdx position }

def answer (walletIndex : ℕ) (wallet : PrivyWallet) : PrivyWorld V :=
  { s with answers := ⟨walletIndex, wallet⟩ :: s.answers }

/-- The whole list takes the place of what the cache has for its positions. -/
def loadAll (manager : ℕ) (allWallets : List PrivyWallet) : PrivyWorld V :=
  { s with wallets := Function.update s.wallets manager fun walletIndex =>
      allWallets[walletIndex]?.or (s.wallets manager walletIndex) }

/-- The next page is added; the list ends with the page that has no page after it. -/
def loadWallets (position manager : ℕ) (walletIndex : Option ℕ) (cursor : Option String)
    (allWallets : List PrivyWallet) (course : V.Course) : PrivyWorld V :=
  match V.listWallets s.account cursor course with
  | .error _ => s.giveUp position
  | .ok page =>
      let allWallets := allWallets ++ page.data
      match page.nextCursor with
      | some next => s.goOn position manager (.loading walletIndex (some next) allWallets)
      | none =>
          match walletIndex with
          | none => (s.loadAll manager allWallets).giveUp position
          | some walletIndex =>
              (s.loadAll manager allWallets).goOn position manager (.looking walletIndex)

def lookUp (position manager walletIndex : ℕ) : PrivyWorld V :=
  match s.wallets manager walletIndex with
  | some wallet => (s.giveUp position).answer walletIndex wallet
  | none => s.goOn position manager (.creating walletIndex)

def create (position manager walletIndex : ℕ) (course : V.Course) : PrivyWorld V :=
  match V.createWallet s.account course with
  | (account, .error _) => { s with account := account }.giveUp position
  | (account, .ok newWallet) =>
      { s with account := account }.goOn position manager (.storing walletIndex newWallet)

/-- An entry that is there stays, and the new wallet is handed out all the same. -/
def store (position manager walletIndex : ℕ) (newWallet : PrivyWallet) : PrivyWorld V :=
  ({ s with wallets := Function.update s.wallets manager (Function.update (s.wallets manager)
      walletIndex ((s.wallets manager walletIndex).or (some newWallet))) }.giveUp position).answer
    walletIndex newWallet

def advance (position : ℕ) (course : V.Course) (t : PrivyTask) : PrivyWorld V :=
  match t.stage with
  | .loading walletIndex cursor allWallets =>
      s.loadWallets position t.manager walletIndex cursor allWallets course
  | .looking walletIndex => s.lookUp position t.manager walletIndex
  | .creating walletIndex => s.create position t.manager walletIndex course
  | .storing walletIndex newWallet => s.store position t.manager walletIndex newWallet

def step (s : PrivyWorld V) : PrivyEvent V → PrivyWorld V
  | .new manager => { s with
      wallets := Function.update s.wallets manager fun _ => none
      tasks := s.tasks.filter (·.manager != manager) ++ [⟨manager, .loading none none []⟩] }
  | .createWallet manager walletIndex =>
      { s with tasks := s.tasks ++ [⟨manager, .loading (some walletIndex) none []⟩] }
  | .getAddress manager walletIndex =>
      match s.wallets manager walletIndex with
      | some wallet => s.answer walletIndex wallet
      | none => s
  | .reply position course =>
      match s.tasks[position]? with
      | some t => s.advance position course t
      | none => s
  | .other course => { s with account := (V.createWallet s.account course).1 }

abbrev run (s : PrivyWorld V) (es : List (PrivyEvent V)) : PrivyWorld V :=
  EventMachine.run step s es

/-- An account before any manager has looked at it. -/
def fresh (account : V.Account) : PrivyWorld V := ⟨account, fun _ _ => none, [], []⟩

/-- A wallet in use for an index: cached, about to be stored, or handed out. -/
inductive InUse (s : PrivyWorld V) : ℕ → PrivyWallet → Prop where
  | cached {manager walletIndex : ℕ} {wallet : PrivyWallet}
      (hwallet : s.wallets manager walletIndex = some wallet) : InUse s walletIndex wallet
  | storing {t : PrivyTask} {walletIndex : ℕ} {wallet : PrivyWallet} (ht : t ∈ s.tasks)
      (hstage : t.stage = .storing walletIndex wallet) : InUse s walletIndex wallet
  | answered {a : PrivyAnswer} (ha : a ∈ s.answers) : InUse s a.walletIndex a.wallet

/-- Every wallet in use for an index is the one at that position of the list. -/
def Placed (s : PrivyWorld V) : Prop :=
  ∀ walletIndex wallet, s.InUse walletIndex wallet → s.wallet walletIndex = some wallet

/-- The index a wallet is created for, by the call that the step answers. -/
def creates (s : PrivyWorld V) : PrivyEvent V → Option ℕ
  | .reply position course =>
      match s.tasks[position]?, (V.createWallet s.account course).2 with
      | some ⟨_, .creating walletIndex⟩, .ok _ => some walletIndex
      | _, _ => none
  | _ => none

/-- A wallet that is created for an index gets this position. -/
def Lands (s : PrivyWorld V) (e : PrivyEvent V) : Prop :=
  ∀ walletIndex ∈ s.creates e, walletIndex = (V.wallets s.account).length

/-- What a load has read so far is the beginning of the list, up to its cursor. -/
def Loads (s : PrivyWorld V) : Prop :=
  ∀ t ∈ s.tasks, ∀ walletIndex cursor allWallets, t.stage = .loading walletIndex cursor allWallets →
    allWallets <+: V.wallets s.account ∧ V.position cursor = allWallets.length

variable {s : PrivyWorld V} {e : PrivyEvent V} {walletIndex position manager : ℕ}
  {wallet : PrivyWallet} {course : V.Course} {stage : PrivyStage}

theorem creates_some (h : s.creates e = some walletIndex) : ∃ position course manager newWallet,
    e = .reply position course ∧ s.tasks[position]? = some ⟨manager, .creating walletIndex⟩ ∧
      (V.createWallet s.account course).2 = .ok newWallet := by
  cases e with
  | reply position course =>
    dsimp only [creates] at h
    split at h
    next taskManager created newWallet ht hnew =>
      cases h
      exact ⟨position, course, taskManager, newWallet, rfl, ht, hnew⟩
    next => cases h
  | new | createWallet | getAddress | other => cases h

/-- A wallet stands at one position. -/
theorem index_of_wallet (hlaw : V.Lawful) {i j : ℕ} (hi : s.wallet i = some wallet)
    (hj : s.wallet j = some wallet) : i = j := by
  have hids := hlaw.wallets_ids s.account
  have hlt : i < ((V.wallets s.account).map (·.id)).length := by
    rw [List.length_map]
    exact (List.getElem?_eq_some_iff.mp hi).1
  unfold PrivyWorld.wallet at hi hj
  rw [← List.getElem?_inj hlt hids, List.getElem?_map, List.getElem?_map, hi, hj]

/-- A wallet keeps its position when the list grows. -/
theorem extends_wallet {account : V.Account} (h : V.wallets s.account <+: V.wallets account) :
    Directory.Extends s.wallet (PrivyWorld.wallet { s with account := account }) := by
  intro walletIndex wallet hwallet
  obtain ⟨rest, hrest⟩ := h
  unfold PrivyWorld.wallet at hwallet ⊢
  rw [← hrest, List.getElem?_append_left (List.getElem?_eq_some_iff.mp hwallet).1]
  exact hwallet

/-- What is read after the beginning of a list is its beginning too. -/
theorem page_begins {all loaded page : List PrivyWallet} (h : loaded <+: all)
    (hpage : page <+: all.drop loaded.length) : loaded ++ page <+: all := by
  obtain ⟨rest, rfl⟩ := h
  rw [List.drop_left] at hpage
  exact (List.prefix_append_right_inj loaded).mpr hpage

section Parts

theorem Placed.giveUp (h : s.Placed) : (s.giveUp position).Placed := by
  intro walletIndex wallet huse
  cases huse with
  | cached hwallet => exact h _ _ (.cached hwallet)
  | storing ht hstage => exact h _ _ (.storing (List.mem_of_mem_eraseIdx ht) hstage)
  | answered ha => exact h _ _ (.answered ha)

theorem Placed.goOn (h : s.Placed) (hstage : ∀ walletIndex wallet,
    stage = .storing walletIndex wallet → s.wallet walletIndex = some wallet) :
    (s.goOn position manager stage).Placed := by
  intro walletIndex wallet huse
  cases huse with
  | cached hwallet => exact h _ _ (.cached hwallet)
  | storing ht hstoring =>
    rcases List.mem_or_eq_of_mem_set ht with ht | rfl
    · exact h _ _ (.storing ht hstoring)
    · exact hstage _ _ hstoring
  | answered ha => exact h _ _ (.answered ha)

theorem Placed.answer (h : s.Placed) (hwallet : s.wallet walletIndex = some wallet) :
    (s.answer walletIndex wallet).Placed := by
  intro otherIndex other huse
  cases huse with
  | cached hcached => exact h _ _ (.cached hcached)
  | storing ht hstage => exact h _ _ (.storing ht hstage)
  | answered ha =>
    rcases List.mem_cons.mp ha with rfl | ha
    · exact hwallet
    · exact h _ _ (.answered ha)

/-- An entry that is changed holds the wallet at its position. -/
theorem Placed.cache (h : s.Placed) (manager : ℕ) (cache : ℕ → Option PrivyWallet)
    (hcache : ∀ walletIndex wallet, cache walletIndex = some wallet →
      s.wallets manager walletIndex = some wallet ∨ s.wallet walletIndex = some wallet) :
    Placed { s with wallets := Function.update s.wallets manager cache } := by
  intro walletIndex wallet huse
  cases huse with
  | @cached other _ _ hwallet =>
    by_cases hsame : other = manager
    · rw [hsame] at hwallet
      dsimp only at hwallet
      rw [Function.update_self] at hwallet
      rcases hcache _ _ hwallet with hcached | hplaced
      · exact h _ _ (.cached hcached)
      · exact hplaced
    · dsimp only at hwallet
      rw [Function.update_of_ne hsame] at hwallet
      exact h _ _ (.cached hwallet)
  | storing ht hstage => exact h _ _ (.storing ht hstage)
  | answered ha => exact h _ _ (.answered ha)

theorem Placed.grow (h : s.Placed) {account : V.Account}
    (hgrows : V.wallets s.account <+: V.wallets account) :
    Placed { s with account := account } := by
  intro walletIndex wallet huse
  apply extends_wallet hgrows
  cases huse with
  | cached hwallet => exact h _ _ (.cached hwallet)
  | storing ht hstage => exact h _ _ (.storing ht hstage)
  | answered ha => exact h _ _ (.answered ha)

theorem Placed.loadAll (h : s.Placed) {allWallets : List PrivyWallet}
    (hbegin : allWallets <+: V.wallets s.account) : (s.loadAll manager allWallets).Placed := by
  refine h.cache manager _ fun walletIndex wallet hcache => ?_
  rcases Option.or_eq_some_iff.mp hcache with hloaded | ⟨-, hcached⟩
  · right
    obtain ⟨rest, hrest⟩ := hbegin
    unfold PrivyWorld.wallet
    rw [← hrest, List.getElem?_append_left (List.getElem?_eq_some_iff.mp hloaded).1]
    exact hloaded
  · exact .inl hcached

/-- The new wallet only fills an empty entry. -/
theorem Placed.store (h : s.Placed) {newWallet : PrivyWallet}
    (hnew : s.wallet walletIndex = some newWallet) :
    (s.store position manager walletIndex newWallet).Placed := by
  have hcached := h.cache manager (Function.update (s.wallets manager) walletIndex
    ((s.wallets manager walletIndex).or (some newWallet))) ?_
  · exact hcached.giveUp.answer hnew
  · intro otherIndex other hother
    by_cases hsame : otherIndex = walletIndex
    · rw [hsame, Function.update_self] at hother
      rw [hsame]
      rcases Option.or_eq_some_iff.mp hother with hold | ⟨-, hold⟩
      · exact .inl hold
      · exact .inr (hnew.trans hold)
    · rw [Function.update_of_ne hsame] at hother
      exact .inl hother

theorem Loads.giveUp (h : s.Loads) : (s.giveUp position).Loads :=
  fun t ht => h t (List.mem_of_mem_eraseIdx ht)

theorem Loads.goOn (h : s.Loads) (hstage : ∀ walletIndex cursor allWallets,
    stage = .loading walletIndex cursor allWallets →
      allWallets <+: V.wallets s.account ∧ V.position cursor = allWallets.length) :
    (s.goOn position manager stage).Loads := by
  intro t ht
  rcases List.mem_or_eq_of_mem_set ht with ht | rfl
  · exact h t ht
  · exact hstage

theorem Loads.cache (h : s.Loads) (wallets : ℕ → ℕ → Option PrivyWallet) :
    Loads { s with wallets := wallets } := h

theorem Loads.grow (h : s.Loads) {account : V.Account}
    (hgrows : V.wallets s.account <+: V.wallets account) :
    Loads { s with account := account } := by
  intro t ht walletIndex cursor allWallets hstage
  obtain ⟨hbegin, hposition⟩ := h t ht walletIndex cursor allWallets hstage
  exact ⟨hbegin.trans hgrows, hposition⟩

end Parts

section Steps

variable (hlaw : V.Lawful)
include hlaw

/-- A page leaves a load at the beginning of the list. -/
theorem loadWallets_page {cursor : Option String} {allWallets : List PrivyWallet} {page : PrivyPage}
    (hbegin : allWallets <+: V.wallets s.account) (hcursor : V.position cursor = allWallets.length)
    (hpage : V.listWallets s.account cursor course = .ok page) :
    allWallets ++ page.data <+: V.wallets s.account ∧
      (∀ next, page.nextCursor = some next →
        V.position (some next) = (allWallets ++ page.data).length) ∧
      (page.nextCursor = none → allWallets ++ page.data = V.wallets s.account) := by
  have hdata := hlaw.listWallets_page hpage
  rw [hcursor] at hdata
  refine ⟨page_begins hbegin hdata, fun next hnext => ?_, fun hlast => ?_⟩
  · rw [hlaw.listWallets_next hpage hnext, hcursor, List.length_append]
  · rw [hlaw.listWallets_last hpage hlast, hcursor]
    obtain ⟨rest, hrest⟩ := hbegin
    rw [← hrest, List.drop_left]

theorem loadWallets_keeps {cursor : Option String} {allWallets : List PrivyWallet}
    (hbegin : allWallets <+: V.wallets s.account) (hcursor : V.position cursor = allWallets.length)
    (loadFor : Option ℕ) (course : V.Course) :
    (s.Loads → (s.loadWallets position manager loadFor cursor allWallets course).Loads) ∧
      (s.Placed → (s.loadWallets position manager loadFor cursor allWallets course).Placed) := by
  unfold loadWallets
  rcases hlisted : V.listWallets s.account cursor course with error | page
  · exact ⟨fun h => h.giveUp, fun h => h.giveUp⟩
  · obtain ⟨hpage, hnext, -⟩ := loadWallets_page hlaw hbegin hcursor hlisted
    dsimp only
    split
    next next hsome =>
      refine ⟨fun h => h.goOn ?_, fun h => h.goOn fun _ _ hstage => nomatch hstage⟩
      rintro _ _ _ ⟨⟩
      exact ⟨hpage, hnext next hsome⟩
    next =>
      cases loadFor with
      | none => exact ⟨fun h => (Loads.cache h _).giveUp, fun h => (h.loadAll hpage).giveUp⟩
      | some walletIndex =>
        constructor
        · exact fun h => (Loads.cache h _).goOn fun _ _ _ hstage => nomatch hstage
        · exact fun h => (h.loadAll hpage).goOn fun _ _ hstage => nomatch hstage

theorem loads_started (h : s.Loads) (manager : ℕ) (loadFor : Option ℕ) :
    Loads { s with tasks := s.tasks ++ [⟨manager, .loading loadFor none []⟩] } := by
  intro t ht walletIndex cursor allWallets hstage
  rcases List.mem_append.mp ht with ht | ht
  · exact h t ht _ _ _ hstage
  · obtain rfl := List.mem_singleton.mp ht
    cases hstage
    exact ⟨List.nil_prefix, hlaw.position_none⟩

theorem create_loads (h : s.Loads) (course : V.Course) :
    (s.create position manager walletIndex course).Loads := by
  have hgrows := h.grow (hlaw.createWallet_wallets s.account course)
  unfold create
  split
  next hcreated =>
    rw [hcreated] at hgrows
    exact hgrows.giveUp
  next hcreated =>
    rw [hcreated] at hgrows
    exact hgrows.goOn fun _ _ _ hstage => nomatch hstage

theorem step_loads (h : s.Loads) (e : PrivyEvent V) : (s.step e).Loads := by
  cases e with
  | new manager =>
    have hothers : Loads { s with
        wallets := Function.update s.wallets manager fun _ => none
        tasks := s.tasks.filter (·.manager != manager) } :=
      fun t ht => h t (List.mem_of_mem_filter ht)
    exact loads_started hlaw hothers manager none
  | createWallet manager walletIndex => exact loads_started hlaw h manager (some walletIndex)
  | getAddress manager walletIndex =>
    unfold step
    dsimp only
    split
    · exact h
    · exact h
  | reply position course =>
    unfold step
    dsimp only
    split
    next t ht =>
      unfold advance
      split
      next loadFor cursor allWallets hstage =>
        obtain ⟨hbegin, hcursor⟩ := h t (List.mem_of_getElem? ht) _ _ _ hstage
        exact (loadWallets_keeps hlaw hbegin hcursor loadFor course).1 h
      next walletIndex _ =>
        unfold lookUp
        split
        · exact Loads.giveUp (s := s) h
        · exact h.goOn fun _ _ _ hstage => nomatch hstage
      next walletIndex _ => exact create_loads hlaw h course
      next walletIndex newWallet _ => exact (Loads.cache h _).giveUp
    next => exact h
  | other course => exact h.grow (hlaw.createWallet_wallets s.account course)

/-- A wallet that is created lands at the end of the list. -/
theorem wallet_created {newWallet : PrivyWallet}
    (h : (V.createWallet s.account course).2 = .ok newWallet) :
    PrivyWorld.wallet { s with account := (V.createWallet s.account course).1 }
      (V.wallets s.account).length = some newWallet := by
  unfold PrivyWorld.wallet
  rw [hlaw.createWallet_new h]
  simp

theorem create_placed (h : s.Placed) (hlands : ∀ wallet,
    (V.createWallet s.account course).2 = .ok wallet →
      walletIndex = (V.wallets s.account).length) :
    (s.create position manager walletIndex course).Placed := by
  have hgrows := h.grow (hlaw.createWallet_wallets s.account course)
  have hcreated := @wallet_created V s course hlaw
  unfold create
  rcases hanswer : V.createWallet s.account course with ⟨account, error | newWallet⟩
  all_goals rw [hanswer] at hgrows hcreated hlands
  · exact hgrows.giveUp
  · refine hgrows.goOn ?_
    rintro _ _ ⟨⟩
    rw [hlands newWallet rfl]
    exact hcreated rfl

omit hlaw in
theorem placed_started (h : s.Placed) (manager : ℕ) (loadFor : Option ℕ) :
    Placed { s with tasks := s.tasks ++ [⟨manager, .loading loadFor none []⟩] } := by
  intro walletIndex wallet huse
  cases huse with
  | cached hwallet => exact h _ _ (.cached hwallet)
  | storing ht hstage =>
    rcases List.mem_append.mp ht with ht | ht
    · exact h _ _ (.storing ht hstage)
    · obtain rfl := List.mem_singleton.mp ht
      cases hstage
  | answered ha => exact h _ _ (.answered ha)

/-- A step keeps every wallet in use at its position, if what it creates lands. -/
theorem step_placed (hloads : s.Loads) (h : s.Placed) (hlands : s.Lands e) :
    (s.step e).Placed := by
  cases e with
  | new manager =>
    have hcleared := h.cache manager (fun _ => none) fun _ _ hnone => nomatch hnone
    have hothers : Placed { s with
        wallets := Function.update s.wallets manager fun _ => none
        tasks := s.tasks.filter (·.manager != manager) } := by
      intro walletIndex wallet huse
      cases huse with
      | cached hwallet => exact hcleared _ _ (.cached hwallet)
      | storing ht hstage => exact h _ _ (.storing (List.mem_of_mem_filter ht) hstage)
      | answered ha => exact h _ _ (.answered ha)
    exact placed_started hothers manager none
  | createWallet manager walletIndex => exact placed_started h manager (some walletIndex)
  | getAddress manager walletIndex =>
    unfold step
    dsimp only
    split
    next wallet hwallet => exact h.answer (h _ _ (.cached hwallet))
    next => exact h
  | reply position course =>
    unfold step
    dsimp only
    split
    next t ht =>
      unfold advance
      split
      next loadFor cursor allWallets hstage =>
        obtain ⟨hbegin, hcursor⟩ := hloads t (List.mem_of_getElem? ht) _ _ _ hstage
        exact (loadWallets_keeps hlaw hbegin hcursor loadFor course).2 h
      next walletIndex _ =>
        unfold lookUp
        split
        next wallet hwallet =>
          have hplaced := h _ _ (.cached hwallet)
          exact h.giveUp.answer hplaced
        next => exact h.goOn fun _ _ hstage => nomatch hstage
      next walletIndex hstage =>
        refine create_placed hlaw h fun wallet hwallet => hlands walletIndex ?_
        obtain ⟨taskManager, taskStage⟩ := t
        subst hstage
        simp [creates, ht, hwallet]
      next walletIndex newWallet hstage =>
        exact h.store (h _ _ (.storing (List.mem_of_getElem? ht) hstage))
    next => exact h
  | other course => exact h.grow (hlaw.createWallet_wallets s.account course)

/-- A wallet that is created elsewhere is in use for an index that is not its own. -/
theorem lands_of_placed (h : (s.step e).Placed) : s.Lands e := by
  intro walletIndex hcreates
  obtain ⟨position, course, manager, newWallet, rfl, ht, hnew⟩ := creates_some hcreates
  have hwallet := wallet_created hlaw hnew
  rcases hanswer : V.createWallet s.account course with ⟨account, answer⟩
  rw [hanswer] at hnew hwallet
  obtain rfl : answer = .ok newWallet := hnew
  have hstep : s.step (.reply position course) = { s with account := account }.goOn position
      manager (.storing walletIndex newWallet) := by
    simp [step, ht, advance, create, hanswer]
  have hmem : (⟨manager, .storing walletIndex newWallet⟩ : PrivyTask) ∈
      (s.step (.reply position course)).tasks := by
    rw [hstep]
    exact List.mem_set (List.getElem?_eq_some_iff.mp ht).1 _
  have hplaced := h _ _ (.storing hmem rfl)
  rw [hstep] at hplaced
  exact index_of_wallet hlaw hplaced hwallet

end Steps

theorem fresh_loads (account : V.Account) : (fresh account).Loads := fun _ ht => nomatch ht

theorem fresh_placed (account : V.Account) : (fresh account).Placed := by
  intro walletIndex wallet huse
  cases huse with
  | cached hwallet => cases hwallet
  | storing ht => cases ht
  | answered ha => cases ha

theorem placed_run (hlaw : V.Lawful) {account : V.Account} {es : List (PrivyEvent V)}
    (h : EventMachine.Along step Lands (fresh account) es) : ((fresh account).run es).Placed := by
  have hboth : ((fresh account).run es).Loads ∧ ((fresh account).run es).Placed := by
    apply h.invariant (P := fun s => s.Loads ∧ s.Placed)
    · exact fun s e hlands h => ⟨step_loads hlaw h.1 e, step_placed hlaw h.1 h.2 hlands⟩
    · exact ⟨fresh_loads account, fresh_placed account⟩
  exact hboth.2

/-- In every run of any number of managers over one account, every wallet in use for an index is at
any time the one at this position of the list exactly when every wallet that is created for an index
gets this position: a creation out of order, or one that another overtakes, breaks it. -/
theorem wallets_placed_iff (hlaw : V.Lawful) (account : V.Account) (es : List (PrivyEvent V)) :
    EventMachine.Along step Lands (fresh account) es ↔
      ∀ before after, es = before ++ after → ((fresh account).run before).Placed := by
  constructor
  · rintro hlands before after rfl
    exact placed_run hlaw (EventMachine.along_append.mp hlands).1
  · intro hplaced
    rw [EventMachine.along_iff_split]
    intro before e after hes
    have hafter := hplaced (before ++ [e]) after (by rw [hes]; simp)
    have hrun : (fresh account).run (before ++ [e]) = ((fresh account).run before).step e := by
      simp [run, EventMachine.run]
    rw [hrun] at hafter
    exact lands_of_placed hlaw hafter

/-- The call is refused, or carried out with the wallet that is created, its answer served or lost. -/
inductive PrivyReply where
  | refused
  | served (wallet : PrivyWallet)
  | lost (wallet : PrivyWallet)

/-- A list of one page to which wallets are appended. -/
def onePagePrivy : PrivyService where
  Account := { wallets : List PrivyWallet // (wallets.map (·.id)).Nodup }
  Course := PrivyReply
  wallets := Subtype.val
  position _ := 0
  listWallets account _ course := match course with
    | .served _ => .ok ⟨account.1, none⟩
    | .refused | .lost _ => .error "no answer"
  createWallet account course := match course with
    | .refused => (account, .error "refused")
    | .served wallet =>
        if h : ((account.1 ++ [wallet]).map (·.id)).Nodup then (⟨account.1 ++ [wallet], h⟩, .ok wallet)
        else (account, .error "taken")
    | .lost wallet =>
        if h : ((account.1 ++ [wallet]).map (·.id)).Nodup then
          (⟨account.1 ++ [wallet], h⟩, .error "no answer")
        else (account, .error "taken")

theorem onePagePrivy_lawful : onePagePrivy.Lawful where
  position_none := rfl
  listWallets_page {account cursor course page} h := by
    cases course with
    | served wallet =>
      cases h
      exact List.prefix_refl _
    | refused | lost wallet => cases h
  listWallets_next {account cursor course page next} h hnext := by
    cases course with
    | served wallet =>
      cases h
      cases hnext
    | refused | lost wallet => cases h
  listWallets_last {account cursor course page} h hlast := by
    cases course with
    | served wallet =>
      cases h
      rfl
    | refused | lost wallet => cases h
  createWallet_wallets account course := by
    cases course with
    | refused => exact List.prefix_refl _
    | served wallet | lost wallet =>
      dsimp only [onePagePrivy]
      split
      · exact List.prefix_append _ _
      · exact List.prefix_refl _
  createWallet_new {account course wallet} h := by
    cases course with
    | refused => cases h
    | served created =>
      dsimp only [onePagePrivy] at h ⊢
      split at h
      next hnew =>
        cases h
        rw [dif_pos hnew]
      next => cases h
    | lost created =>
      dsimp only [onePagePrivy] at h
      split at h
      · cases h
      · cases h
  wallets_ids account := account.2

/-- An account without wallets. -/
def noWallets : onePagePrivy.Account := ⟨[], List.nodup_nil⟩

def firstWallet : PrivyWallet := ⟨"a1", 5⟩

def secondWallet : PrivyWallet := ⟨"b2", 6⟩

/-- Two wallets are created, the second with its answer lost, and a new manager finds them. -/
def createdInTurn : List (PrivyEvent onePagePrivy) :=
  .createWallet 0 0 :: List.replicate 4 (.reply 0 (.served firstWallet)) ++
    [.createWallet 0 1, .reply 0 (.served firstWallet), .reply 0 (.served firstWallet),
      .reply 0 (.lost secondWallet), .new 0, .reply 0 (.served firstWallet), .getAddress 0 1]

theorem wallets_placed_created :
    EventMachine.Along step Lands (fresh noWallets) createdInTurn ↔
      ∀ before after, createdInTurn = before ++ after → ((fresh noWallets).run before).Placed :=
  wallets_placed_iff onePagePrivy_lawful noWallets createdInTurn

/-- Two calls for the first index overlap: each creates a wallet and hands its own out. -/
example : ((fresh noWallets).run (.createWallet 0 0 :: .createWallet 0 0 ::
    [.reply 0 (.served firstWallet), .reply 0 (.served firstWallet), .reply 1 (.served firstWallet),
      .reply 1 (.served firstWallet), .reply 0 (.served firstWallet), .reply 1 (.served secondWallet),
      .reply 0 (.served firstWallet), .reply 0 (.served firstWallet)])).answers =
    [⟨0, secondWallet⟩, ⟨0, firstWallet⟩] := by decide

/-- An index has one wallet and a wallet one index. -/
theorem index_iff_wallet (hlaw : V.Lawful) (h : s.Placed) {i j : ℕ} {v w : PrivyWallet}
    (hv : s.InUse i v) (hw : s.InUse j w) : i = j ↔ v = w := by
  constructor
  · rintro rfl
    exact Option.some.inj ((h _ _ hv).symm.trans (h _ _ hw))
  · rintro rfl
    exact index_of_wallet hlaw (h _ _ hv) (h _ _ hw)

/-- The calls come one at a time, none for an index beyond the next one, and nobody else creates
wallets. -/
def InTurn (s : PrivyWorld V) : PrivyEvent V → Prop
  | .new _ => s.tasks = []
  | .createWallet _ walletIndex => s.tasks = [] ∧ walletIndex ≤ (V.wallets s.account).length
  | .other _ => False
  | .getAddress .. | .reply .. => True

/-- What is known of the one call there is. -/
def StageInTurn (s : PrivyWorld V) (manager : ℕ) : PrivyStage → Prop
  | .loading walletIndex cursor allWallets => allWallets <+: V.wallets s.account ∧
      V.position cursor = allWallets.length ∧ ∀ i ∈ walletIndex, i ≤ (V.wallets s.account).length
  | .looking walletIndex => walletIndex ≤ (V.wallets s.account).length ∧
      ∀ i < (V.wallets s.account).length, (s.wallets manager i).isSome
  | .creating walletIndex => walletIndex = (V.wallets s.account).length
  | .storing _ _ => True

def Turn (s : PrivyWorld V) : Prop :=
  s.tasks = [] ∨ ∃ t, s.tasks = [t] ∧ s.StageInTurn t.manager t.stage

theorem lands_of_turn (h : s.Turn) : s.Lands e := by
  intro walletIndex hcreates
  obtain ⟨position, course, manager, newWallet, rfl, ht, -⟩ := creates_some hcreates
  have hmem := List.mem_of_getElem? ht
  rcases h with hnone | ⟨u, hone, hturn⟩
  · rw [hnone] at hmem
    cases hmem
  · rw [hone] at hmem
    obtain rfl := List.mem_singleton.mp hmem
    exact hturn

section Turns

variable (hlaw : V.Lawful)
include hlaw

theorem turn_loadWallets {loadFor : Option ℕ} {cursor : Option String}
    {allWallets : List PrivyWallet}
    (htasks : s.tasks = [⟨manager, .loading loadFor cursor allWallets⟩])
    (hbegin : allWallets <+: V.wallets s.account) (hcursor : V.position cursor = allWallets.length)
    (hindex : ∀ i ∈ loadFor, i ≤ (V.wallets s.account).length) (course : V.Course) :
    (s.loadWallets 0 manager loadFor cursor allWallets course).Turn := by
  unfold loadWallets
  rcases hlisted : V.listWallets s.account cursor course with error | page
  · exact .inl (by simp [giveUp, htasks])
  · obtain ⟨hpage, hnext, hlast⟩ := loadWallets_page hlaw hbegin hcursor hlisted
    dsimp only
    split
    next next hsome =>
      exact .inr ⟨⟨manager, .loading loadFor (some next) (allWallets ++ page.data)⟩,
        by simp [goOn, htasks], hpage, hnext next hsome, hindex⟩
    next hnone =>
      cases loadFor with
      | none => exact .inl (by simp [giveUp, loadAll, htasks])
      | some walletIndex =>
        refine .inr ⟨⟨manager, .looking walletIndex⟩, by simp [goOn, loadAll, htasks],
          hindex walletIndex rfl, fun i hi => ?_⟩
        have hlisted : i < (V.wallets s.account).length := hi
        simp [goOn, loadAll, hlast hnone, hlisted]

theorem turn_reply {t : PrivyTask} (hone : s.tasks = [t]) (hstage : s.StageInTurn t.manager t.stage)
    (course : V.Course) : (s.advance 0 course t).Turn := by
  unfold advance
  split
  next loadFor cursor allWallets hloading =>
    rw [hloading] at hstage
    obtain ⟨hbegin, hcursor, hindex⟩ := hstage
    refine turn_loadWallets hlaw ?_ hbegin hcursor hindex course
    rw [hone, ← hloading]
  next walletIndex hlooking =>
    rw [hlooking] at hstage
    obtain ⟨hle, hfull⟩ := hstage
    unfold lookUp
    split
    · exact .inl (by simp [answer, giveUp, hone])
    next hmissing =>
      refine .inr ⟨⟨t.manager, .creating walletIndex⟩, by simp [goOn, hone], ?_⟩
      by_contra hne
      have hlt : walletIndex < (V.wallets s.account).length := lt_of_le_of_ne hle hne
      have hsome := hfull walletIndex hlt
      rw [hmissing] at hsome
      cases hsome
  next walletIndex _ =>
    unfold create
    split
    · exact .inl (by simp [giveUp, hone])
    next account newWallet _ =>
      exact .inr ⟨⟨t.manager, .storing walletIndex newWallet⟩, by simp [goOn, hone], trivial⟩
  next walletIndex newWallet _ => exact .inl (by simp [store, answer, giveUp, hone])

theorem turn_step (h : s.Turn) (hturn : s.InTurn e) : (s.step e).Turn := by
  cases e with
  | new manager =>
    have hnone : s.tasks = [] := hturn
    exact .inr ⟨⟨manager, .loading none none []⟩, by simp [step, hnone], List.nil_prefix,
      hlaw.position_none, fun _ hi => nomatch hi⟩
  | createWallet manager walletIndex =>
    obtain ⟨hnone, hle⟩ := hturn
    refine .inr ⟨⟨manager, .loading (some walletIndex) none []⟩, by simp [step, hnone],
      List.nil_prefix, hlaw.position_none, ?_⟩
    rintro _ ⟨⟩
    exact hle
  | getAddress manager walletIndex =>
    unfold step
    dsimp only
    split
    · exact h
    · exact h
  | other course => exact hturn.elim
  | reply position course =>
    unfold step
    dsimp only
    split
    next t ht =>
      rcases h with hnone | ⟨u, hone, hstage⟩
      · rw [hnone] at ht
        cases ht
      obtain ⟨hposition, htask⟩ := List.getElem?_eq_some_iff.mp ht
      have hzero : position = 0 := by
        rw [hone, List.length_singleton] at hposition
        omega
      subst hzero
      have hsame : u = t := by simpa [hone] using htask
      subst hsame
      exact turn_reply hlaw hone hstage course
    next => exact h

end Turns

/-- Calls that come in turn give every index the wallet at its position, whatever fails and whenever
a manager is built anew: an index has one wallet, and a wallet one index. -/
theorem wallets_in_turn (hlaw : V.Lawful) {account : V.Account} {es : List (PrivyEvent V)}
    (h : EventMachine.Along step InTurn (fresh account) es) {i j : ℕ} {v w : PrivyWallet}
    (hv : ((fresh account).run es).InUse i v) (hw : ((fresh account).run es).InUse j w) :
    ((fresh account).run es).wallet i = some v ∧ (i = j ↔ v = w) := by
  have hlands : EventMachine.Along step Lands (fresh account) es := by
    refine h.of_invariant (P := Turn) (fun s e hturn hs => turn_step hlaw hs hturn)
      (fun s e _ hs => lands_of_turn hs) ?_
    exact .inl rfl
  exact ⟨placed_run hlaw hlands _ _ hv, index_iff_wallet hlaw (placed_run hlaw hlands) hv hw⟩

theorem wallets_in_turn_created :
    ((fresh noWallets).run createdInTurn).wallet 1 = some secondWallet ∧
      (1 = 0 ↔ secondWallet = firstWallet) := by
  have hturn : EventMachine.Along step InTurn (fresh noWallets) createdInTurn :=
    ⟨⟨rfl, by decide⟩, trivial, trivial, trivial, trivial, ⟨rfl, by decide⟩, trivial, trivial,
      trivial, rfl, trivial, trivial, trivial⟩
  have hanswers : ((fresh noWallets).run createdInTurn).answers =
      [⟨1, secondWallet⟩, ⟨0, firstWallet⟩] := by decide
  have hlast : ((fresh noWallets).run createdInTurn).InUse 1 secondWallet :=
    .answered (a := ⟨1, secondWallet⟩) (by simp [hanswers])
  have hfirst : ((fresh noWallets).run createdInTurn).InUse 0 firstWallet :=
    .answered (a := ⟨0, firstWallet⟩) (by simp [hanswers])
  exact wallets_in_turn onePagePrivy_lawful hturn hlast hfirst

end PrivyWorld

end Rrelayer
