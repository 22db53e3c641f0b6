import Zolana.Basic.Refinement
import Zolana.Swap.Instruction

set_option autoImplicit false

/-! # Accounts for SPP

Both SDKs lay out the accounts of an instruction alike: the ones that its handler takes come first,
and SPP gets the rest.
-/

namespace Zolana

open Swap.Sdk (AccountMeta Instruction)

/-- What an SDK writes into the accounts for SPP besides the payer and the tree. -/
structure SppLayout where
  /-- `nullifier_pda_accounts(tree, nullifier_hashes)`. -/
  nullifierPdaAccounts : Address → List (Bytes 32) → List AccountMeta
  /-- `SHIELDED_POOL_PROGRAM_ID`. -/
  shieldedPoolProgramId : Address
  /-- The PDA that signs the CPI. -/
  authority : Address

/-- The accounts for SPP, in the order of its transact: payer, trees, nullifier accounts and the
authority. -/
def SppLayout.accounts (layout : SppLayout) (payer tree : Address) (transact : TransactIxData) :
    List AccountMeta :=
  [.new payer true, .new tree false, .newReadonly layout.shieldedPoolProgramId false,
    .newReadonly (Bytes.replicate 32 0) false, .new tree false] ++
  layout.nullifierPdaAccounts tree (transact.inputs.map (·.nullifierHash)) ++
  [.newReadonly layout.authority false]

/-- The accounts that the runtime passes on for metas: in their order, with the privileges asked
for. -/
def PassedFor (metas : List AccountMeta) (accounts : List AccountView) : Prop :=
  List.Forall₂ (fun m a => a.address = m.pubkey ∧ (m.isSigner = true → a.isSigner = true) ∧
    (m.isWritable = true → a.isWritable = true)) metas accounts

/-- How many accounts `invoke::<16>` has room for. -/
def cpiRoom : ℕ := 16

/-- The accounts that the runtime passes on for an instruction whose handler takes the first `taken`
of them, where the CPI has room for the rest. -/
structure Swap.Sdk.Instruction.Fits (ins : Instruction) (taken : ℕ) (accounts : List AccountView) :
    Prop where
  passes : ins.Passes accounts
  room : accounts.length ≤ taken + cpiRoom

/-- An instruction that lists no more is passed on as it is. -/
theorem Swap.Sdk.Instruction.fits_self {ins : Instruction} {taken : ℕ}
    (h : ins.accounts.length ≤ taken + cpiRoom) :
    ins.Fits taken (ins.accounts.map fun m => ⟨m.pubkey, m.isSigner, m.isWritable⟩) :=
  ⟨ins.passes_self, by rwa [List.length_map]⟩

/-- The client library of the program accepts the accounts that the SDK lays out, with any owners
behind them, as long as the CPI has room for them. -/
def SppLayout.Accepted (layout : SppLayout) (R : Runtime) : Prop :=
  ∀ ⦃payer tree transact owners accounts⦄,
    PassedFor (layout.accounts payer tree transact ++ owners) accounts →
      accounts.length ≤ cpiRoom → R.sppTransactAccounts accounts [layout.authority] = .ok ()

/-- One account for each nullifier hash. -/
def SppLayout.OnePerNullifier (layout : SppLayout) : Prop :=
  ∀ tree hashes, (layout.nullifierPdaAccounts tree hashes).length = hashes.length

/-- With one input there is room for all accounts. -/
theorem SppLayout.OnePerNullifier.room {layout : SppLayout} (h : layout.OnePerNullifier)
    {payer tree : Address} {transact : TransactIxData} (hinput : transact.inputs.length = 1)
    {metas : List AccountMeta} {accounts : List AccountView}
    (hpassed : PassedFor (metas ++ layout.accounts payer tree transact) accounts) :
    accounts.length ≤ metas.length + cpiRoom := by
  have hpdas : (layout.nullifierPdaAccounts tree (transact.inputs.map (·.nullifierHash))).length =
      1 := by
    rw [h, List.length_map, hinput]
  rw [← hpassed.length_eq, List.length_append]
  simp [SppLayout.accounts, hpdas, cpiRoom]

/-- A signer among the metas signs what is passed on. -/
theorem PassedFor.mem_signers {metas : List AccountMeta} {accounts : List AccountView}
    (h : PassedFor metas accounts) {m : AccountMeta} (hm : m ∈ metas) (hsigner : m.isSigner = true) :
    m.pubkey ∈ (accounts.filter (·.isSigner)).map (·.address) := by
  obtain ⟨a, ha, haddress, hsigns, -⟩ := exists_mem_of_forall₂ h hm
  rw [← haddress]
  exact List.mem_map_of_mem (List.mem_filter.mpr ⟨ha, hsigns hsigner⟩)

/-- The authority of a layout is among what is passed on. -/
theorem PassedFor.authority_mem {layout : SppLayout} {payer tree : Address}
    {transact : TransactIxData} {owners : List AccountMeta} {accounts : List AccountView}
    (h : PassedFor (layout.accounts payer tree transact ++ owners) accounts) :
    layout.authority ∈ accounts.map (·.address) := by
  have hmeta : AccountMeta.newReadonly layout.authority false ∈
      layout.accounts payer tree transact ++ owners :=
    List.mem_append_left _ (List.mem_append_right _ List.mem_cons_self)
  obtain ⟨a, ha, haddress, -⟩ := exists_mem_of_forall₂ h hmeta
  exact List.mem_map.mpr ⟨a, ha, haddress⟩

/-- The first account of every instruction is the payer, who signs and is writable. -/
theorem PassedFor.payer {payer : Address} {metas : List AccountMeta} {accounts : List AccountView}
    (h : PassedFor (.new payer true :: metas) accounts) :
    ∃ view rest, accounts = view :: rest ∧ view.address = payer ∧ view.isSigner = true ∧
      view.isWritable = true ∧ PassedFor metas rest := by
  obtain ⟨view, rest, ⟨haddress, hsigner, hwritable⟩, hrest, rfl⟩ := List.forall₂_cons_left_iff.mp h
  exact ⟨view, rest, rfl, haddress, hsigner rfl, hwritable rfl, hrest⟩

/-- A dedicated signer behind it signs. -/
theorem PassedFor.signer {signer : Address} {metas : List AccountMeta}
    {accounts : List AccountView} (h : PassedFor (.newReadonly signer true :: metas) accounts) :
    ∃ view rest, accounts = view :: rest ∧ view.address = signer ∧ view.isSigner = true ∧
      PassedFor metas rest := by
  obtain ⟨view, rest, ⟨haddress, hsigner, -⟩, hrest, rfl⟩ := List.forall₂_cons_left_iff.mp h
  exact ⟨view, rest, rfl, haddress, hsigner rfl, hrest⟩

/-- What is left for SPP makes the CPI, which the payer signs besides the authority. -/
theorem SppLayout.Accepted.cpi {layout : SppLayout} {R : Runtime} (h : layout.Accepted R)
    {payer tree : Address} {transact : TransactIxData} {owners : List AccountMeta}
    {accounts : List AccountView}
    (hpassed : PassedFor (layout.accounts payer tree transact ++ owners) accounts)
    (hroom : accounts.length ≤ cpiRoom) (bytes : List UInt8) :
    accounts ≠ [] ∧ R.sppTransactAccounts accounts [layout.authority] = .ok () ∧
      payer ∈ (Cpi.mk accounts bytes [layout.authority]).signers ∧
      layout.authority ∈ (Cpi.mk accounts bytes [layout.authority]).signers := by
  refine ⟨?_, h hpassed hroom, List.mem_append_left _ ?_, List.mem_append_right _ List.mem_cons_self⟩
  · rintro rfl
    cases hpassed
  · exact hpassed.mem_signers (m := .new payer true) (by simp [SppLayout.accounts]) rfl

end Zolana
