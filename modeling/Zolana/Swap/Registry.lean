import Zolana.Swap.MakerIndex

set_option autoImplicit false

/-! # Loading the asset registry

`asset_registry` of the client library. Anyone can create accounts, and the indexers resolve mints
by what is loaded; so every account has to be one of the shielded pool at the address of its own
mint. A registry that loads has exactly what these accounts say, and it gives a mint one id, which
is what taker and maker need to agree on the mints of an order.
-/

namespace Zolana.Swap.Sdk

/-- `SplAssetRegistry`. -/
structure SplAssetRegistry where
  assetId : UInt64
  mint : Address
  deriving DecidableEq

/-- An account that the RPC lists, with its address. -/
structure ProgramAccount where
  address : Address
  owner : Address
  data : List UInt8
  deriving DecidableEq

/-- The surroundings of the loader. -/
structure RegistryContext extends IndexContext where
  /-- `PROGRAM_ID_PUBKEY`. -/
  programId : Address
  /-- `get_program_accounts_filtered`, of the program's accounts with the size and the
  discriminator of a registry account. -/
  getProgramAccountsFiltered : Option (List ProgramAccount)
  /-- `SplAssetRegistry::from_account_bytes`. -/
  fromAccountBytes : List UInt8 → Option SplAssetRegistry
  /-- `pda::spl_asset_registry`. -/
  splAssetRegistry : Address → Address
  /-- `AssetRegistry::default`. -/
  defaultRegistry : AssetRegistry
  /-- `AssetRegistry::insert`. -/
  insert : AssetRegistry → UInt64 → Address → Option AssetRegistry

/-- The default registry knows SOL alone, and inserting sets one id. -/
structure RegistryContext.Documented (L : RegistryContext) : Prop where
  default : ∀ ⦃assetId mint⦄, L.defaultRegistry.resolve assetId = some mint → mint = L.solMint
  inserted : ∀ ⦃assets assetId mint assets'⦄, L.insert assets assetId mint = some assets' →
    assets'.resolve assetId = some ⟨mint, assetId⟩
  kept : ∀ ⦃assets assetId mint assets'⦄, L.insert assets assetId mint = some assets' →
    ∀ other, other ≠ assetId → assets'.resolve other = assets.resolve other

/-! ## The loader -/

section Loader

variable (L : RegistryContext)

/-- One round of the loop of `asset_registry`. -/
def insertAccount (assets : AssetRegistry) (account : ProgramAccount) : SdkResult AssetRegistry := do
  let registry ← orWrapped (L.fromAccountBytes account.data) "decode SPL asset registry: "
  bailIf (¬(account.owner = L.programId ∧ account.address = L.splAssetRegistry registry.mint))
    "invalid SPL asset registry account"
  orErr (L.insert assets registry.assetId registry.mint)

/-- `asset_registry`. -/
def assetRegistry : SdkResult AssetRegistry := do
  let accounts ← orErr L.getProgramAccountsFiltered
  accounts.foldlM (insertAccount L) L.defaultRegistry

end Loader

/-! ## What is loaded -/

section Loaded

variable {L : RegistryContext}

/-- The account is the shielded pool's registry account of the entry's mint. -/
structure ProgramAccount.Registers (L : RegistryContext) (account : ProgramAccount)
    (entry : SplAssetRegistry) : Prop where
  data : L.fromAccountBytes account.data = some entry
  owner : account.owner = L.programId
  address : account.address = L.splAssetRegistry entry.mint

theorem insertAccount_eq_ok {assets assets' : AssetRegistry} {account : ProgramAccount} :
    insertAccount L assets account = .ok assets' ↔
      ∃ entry, account.Registers L entry ∧
        L.insert assets entry.assetId entry.mint = some assets' := by
  simp only [insertAccount, SdkResult.bind_eq_ok, orWrapped_eq_ok, bailIf_eq_ok, orErr_eq_ok,
    not_not]
  constructor
  · rintro ⟨entry, hdata, _, ⟨howner, haddress⟩, hinsert⟩
    exact ⟨entry, ⟨hdata, howner, haddress⟩, hinsert⟩
  · rintro ⟨entry, hentry, hinsert⟩
    exact ⟨entry, hentry.data, (), ⟨hentry.owner, hentry.address⟩, hinsert⟩

/-- The registry holds what the accounts register, besides what it had by default. -/
structure Loaded (L : RegistryContext) (accounts : List ProgramAccount) (assets : AssetRegistry) :
    Prop where
  valid : ∀ account ∈ accounts, ∃ entry, account.Registers L entry
  sound : ∀ assetId mint, assets.resolve assetId = some mint →
    L.defaultRegistry.resolve assetId = some mint ∨
      mint.assetId = assetId ∧ ∃ account ∈ accounts, account.Registers L ⟨assetId, mint.asset⟩
  complete : ∀ account ∈ accounts, ∀ entry, account.Registers L entry →
    ∃ mint, assets.resolve entry.assetId = some mint ∧ mint.assetId = entry.assetId ∧
      ∃ account' ∈ accounts, account'.Registers L ⟨entry.assetId, mint.asset⟩
  kept : ∀ assetId, (∀ account ∈ accounts, ∀ entry, account.Registers L entry →
    entry.assetId ≠ assetId) → assets.resolve assetId = L.defaultRegistry.resolve assetId

theorem Loaded.nil : Loaded L [] L.defaultRegistry where
  valid := by simp
  sound _ _ h := .inl h
  complete := by simp
  kept _ _ := rfl

/-- One more account. -/
theorem Loaded.step (hL : L.Documented) {accounts : List ProgramAccount}
    {assets assets' : AssetRegistry} {account : ProgramAccount} (h : Loaded L accounts assets)
    (hstep : insertAccount L assets account = .ok assets') :
    Loaded L (accounts ++ [account]) assets' := by
  obtain ⟨new, hnew, hinsert⟩ := insertAccount_eq_ok.mp hstep
  have hlast : account ∈ accounts ++ [account] := by simp
  have hold : ∀ {account'}, account' ∈ accounts → account' ∈ accounts ++ [account] :=
    fun hmem => List.mem_append_left _ hmem
  constructor
  case valid =>
    intro account' hmem
    rcases List.mem_append.mp hmem with hmem | hmem
    · exact h.valid account' hmem
    · rw [List.mem_singleton.mp hmem]
      exact ⟨new, hnew⟩
  case sound =>
    intro assetId mint hresolve
    by_cases hid : assetId = new.assetId
    · subst hid
      rw [hL.inserted hinsert, Option.some.injEq] at hresolve
      subst hresolve
      exact .inr ⟨rfl, account, hlast, hnew⟩
    · rw [hL.kept hinsert assetId hid] at hresolve
      rcases h.sound assetId mint hresolve with hdefault | ⟨hmint, account', hmem, hregisters⟩
      · exact .inl hdefault
      · exact .inr ⟨hmint, account', hold hmem, hregisters⟩
  case complete =>
    intro account' hmem entry hentry
    by_cases hid : entry.assetId = new.assetId
    · -- a later account with the id takes the place of an earlier one
      rw [hid, hL.inserted hinsert]
      exact ⟨_, rfl, rfl, account, hlast, hnew⟩
    · rw [hL.kept hinsert _ hid]
      rcases List.mem_append.mp hmem with hmem | hmem
      · obtain ⟨mint, hresolve, hmint, account'', hmem'', hregisters⟩ :=
          h.complete account' hmem entry hentry
        exact ⟨mint, hresolve, hmint, account'', hold hmem'', hregisters⟩
      · have hdata := hentry.data
        rw [List.mem_singleton.mp hmem, hnew.data, Option.some.injEq] at hdata
        exact absurd (congrArg SplAssetRegistry.assetId hdata.symm) hid
  case kept =>
    intro assetId hother
    have hid : assetId ≠ new.assetId := (hother account hlast new hnew).symm
    rw [hL.kept hinsert assetId hid]
    exact h.kept assetId fun account' hmem => hother account' (hold hmem)

/-- All accounts of a listing. -/
theorem Loaded.run (hL : L.Documented) {accounts rest : List ProgramAccount}
    {assets assets' : AssetRegistry} (h : Loaded L accounts assets)
    (hrun : rest.foldlM (insertAccount L) assets = .ok assets') :
    Loaded L (accounts ++ rest) assets' := by
  induction rest generalizing accounts assets with
  | nil =>
      obtain rfl := Except.ok.inj hrun
      rwa [List.append_nil]
  | cons account rest ih =>
      rw [List.foldlM_cons, SdkResult.bind_eq_ok] at hrun
      obtain ⟨next, hstep, hrun⟩ := hrun
      have hall := ih (h.step hL hstep) hrun
      rwa [List.append_assoc, List.singleton_append] at hall

/-- Accounts with addresses of their own register a mint once. -/
theorem ProgramAccount.Registers.assetId_unique {accounts : List ProgramAccount}
    (hnodup : (accounts.map (·.address)).Nodup) {account account' : ProgramAccount}
    (hmem : account ∈ accounts) (hmem' : account' ∈ accounts) {assetId assetId' : UInt64}
    {mint : Address} (h : account.Registers L ⟨assetId, mint⟩)
    (h' : account'.Registers L ⟨assetId', mint⟩) : assetId = assetId' := by
  have hsame : account = account' :=
    List.inj_on_of_nodup_map hnodup hmem hmem' (h.address.trans h'.address.symm)
  subst hsame
  have hentry := Option.some.inj (h.data.symm.trans h'.data)
  exact congrArg SplAssetRegistry.assetId hentry

/-- What resolves is SOL, or is registered by an account. -/
theorem Loaded.resolveMint (hL : L.Documented) {accounts : List ProgramAccount}
    {assets : AssetRegistry} (h : Loaded L accounts assets) {assetId : UInt64} {mint : Mint}
    (hresolve : resolveMint L.toIndexContext assets assetId = .ok mint) :
    mint = L.solMint ∨
      mint.assetId = assetId ∧ ∃ account ∈ accounts, account.Registers L ⟨assetId, mint.asset⟩ := by
  rw [Sdk.resolveMint] at hresolve
  split at hresolve
  · exact .inl (Except.ok.inj hresolve).symm
  · rcases h.sound assetId mint (orErr_eq_ok.mp hresolve) with hdefault | hregistered
    · exact .inl (hL.default hdefault)
    · exact .inr hregistered

end Loaded

/-- **A registry that loads is the one on the ledger.** If the load succeeds, every listed account
is the shielded pool's registry account of its mint, and the registry resolves exactly the ids that
these accounts register, besides the default ones, each to a mint with such an account; an id that
no account registers resolves as by default. If the accounts have addresses of their own and none
is for SOL, a mint has one id. -/
theorem asset_registry_loads {L : RegistryContext} (hL : L.Documented)
    {accounts : List ProgramAccount} (hlist : L.getProgramAccountsFiltered = some accounts)
    {assets : AssetRegistry} (h : assetRegistry L = .ok assets) :
    Loaded L accounts assets ∧
      ((accounts.map (·.address)).Nodup →
        (∀ account ∈ accounts, ∀ entry, account.Registers L entry →
          entry.mint ≠ L.solMint.asset) →
        OneIdPerMint L.toIndexContext assets) := by
  rw [assetRegistry, hlist, SdkResult.bind_eq_ok] at h
  obtain ⟨_, hlisted, hrun⟩ := h
  obtain rfl := Option.some.inj (orErr_eq_ok.mp hlisted)
  have hloaded : Loaded L accounts assets := Loaded.nil.run hL hrun
  refine ⟨hloaded, ?_⟩
  intro hnodup hsol assetId assetId' mint mint' hmint hmint' hasset
  rcases hloaded.resolveMint hL hmint with rfl | ⟨hid, account, hmem, hregisters⟩
  · rcases hloaded.resolveMint hL hmint' with rfl | ⟨-, account', hmem', hregisters'⟩
    · rfl
    · exact absurd hasset.symm (hsol account' hmem' _ hregisters')
  · rcases hloaded.resolveMint hL hmint' with rfl | ⟨hid', account', hmem', hregisters'⟩
    · exact absurd hasset (hsol account hmem _ hregisters)
    · rw [← hasset] at hregisters'
      have hids := hregisters.assetId_unique hnodup hmem hmem' hregisters'
      cases mint
      cases mint'
      simp_all

/-! ## A sample load -/

namespace Sample

/-- Two accounts, each at the address of its mint. -/
noncomputable def registryContext : RegistryContext where
  toIndexContext := indexContext
  programId := Bytes.replicate 32 1
  getProgramAccountsFiltered :=
    some [⟨Bytes.replicate 32 20, Bytes.replicate 32 1, [2]⟩,
      ⟨Bytes.replicate 32 21, Bytes.replicate 32 1, [3]⟩]
  fromAccountBytes bytes :=
    if bytes = [2] then some ⟨2, Bytes.replicate 32 20⟩
    else if bytes = [3] then some ⟨3, Bytes.replicate 32 21⟩
    else none
  splAssetRegistry mint := mint
  defaultRegistry := ⟨fun assetId => if assetId = 1 then some ⟨Bytes.replicate 32 0, 1⟩ else none⟩
  insert assets assetId mint :=
    some ⟨fun other => if other = assetId then some ⟨mint, assetId⟩ else assets.resolve other⟩

theorem registryContext_documented : registryContext.Documented where
  default := by
    intro assetId mint h
    obtain ⟨-, h⟩ := Option.ite_none_right_eq_some.mp h
    exact (Option.some.inj h).symm
  inserted := by
    intro assets assetId mint assets' h
    obtain rfl := Option.some.inj h
    exact if_pos rfl
  kept := by
    intro assets assetId mint assets' h other hother
    obtain rfl := Option.some.inj h
    exact if_neg hother

end Sample

open Sdk.Sample in
theorem asset_registry_loads_sample :
    ∃ assets, assetRegistry registryContext = .ok assets ∧
      OneIdPerMint registryContext.toIndexContext assets := by
  refine ⟨_, rfl, (asset_registry_loads registryContext_documented rfl rfl).2 (by decide) ?_⟩
  intro account hmem entry hentry
  -- an account is at the address of its mint
  rw [← show account.address = entry.mint from hentry.address]
  rcases List.mem_cons.mp hmem with rfl | hmem
  · decide
  · rw [List.mem_singleton.mp hmem]
    decide

end Zolana.Swap.Sdk
