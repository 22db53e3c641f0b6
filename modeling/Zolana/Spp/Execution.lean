import Zolana.Spp.Agreement
import Zolana.Spp.System

set_option autoImplicit false

/-! # Instructions that go through

The other direction of soundness: when does an instruction become a step of the system? The
program decides on the clock and on what it is sent, and SPP on the transact, on the keys that
sign and on the ledger. For an honest client only the clock and the ledger are left to decide.
SPP's own deadline for relaying a transact is not part of this.
-/

namespace Zolana

/-! ## What SPP asks for besides unspent inputs -/

/-- SPP accepts the transact on every ledger on which its inputs are unspent. -/
structure SppReady (C : Crypto) (signers : List Address) (t : TransactIxData) (op : TxOpening) :
    Prop where
  commits : SppCommits C t op
  nodup : op.spent.Nodup
  signed : ∀ sp, some sp ∈ op.inputs → ∃ s ∈ signers, sp.AuthorizedBy C s
  conserved : ∀ asset, balance op.spent asset = balance op.created asset

theorem SppReady.accepts {C : Crypto} {signers : List Address} {t : TransactIxData}
    {op : TxOpening} {ledger : Ledger Utxo} (h : SppReady C signers t op)
    (hunspent : ∀ u ∈ op.spent, u ∈ ledger.unspent) : SppAccepts C ledger signers t op :=
  ⟨h.commits, h.nodup, hunspent, h.signed, h.conserved⟩

/-- SPP executes the transact with these spends and outputs, dummies aside. -/
structure SppOpens (C : Crypto) (t : TransactIxData) (op : TxOpening) (spends : List Spend)
    (outputs : List Utxo) (privateTxBlinding : Bytes 32) : Prop where
  commits : SppCommits C t op
  inputs : op.inputs.reduceOption = spends
  created : op.created = outputs
  blinding : Fr.ofBytes privateTxBlinding = some op.privateTxBlinding

namespace SppOpens

variable {C : Crypto} {t : TransactIxData} {op : TxOpening} {spends : List Spend}
  {outputs : List Utxo} {blinding : Bytes 32}

theorem spent (h : SppOpens C t op spends outputs blinding) : op.spent = spends.map Spend.utxo := by
  rw [TxOpening.spent, List.reduceOption_map, h.inputs]

/-- In words, it moves the UTXOs of these hashes. -/
theorem moves (h : SppOpens C t op spends outputs blinding) {ins outs : List (Bytes 32)}
    (hins : List.Forall₂ (fun u word => Publishes word (C.utxoHash u)) (spends.map Spend.utxo) ins)
    (houts : List.Forall₂ (fun u word => Publishes word (C.utxoHash u)) outputs outs) :
    SppMoves C t op ins outs blinding :=
  ⟨h.commits, by rw [h.spent]; exact hins, by rw [h.created]; exact houts, h.blinding⟩

/-- What is left to show of the spends and the outputs. -/
theorem ready (h : SppOpens C t op spends outputs blinding) {signers : List Address}
    (hnodup : (spends.map Spend.utxo).Nodup)
    (hsigned : ∀ sp ∈ spends, ∃ s ∈ signers, sp.AuthorizedBy C s)
    (hconserved : ∀ asset, balance (spends.map Spend.utxo) asset = balance outputs asset) :
    SppReady C signers t op where
  commits := h.commits
  nodup := by rw [h.spent]; exact hnodup
  signed := by
    intro sp hsp
    rw [← List.reduceOption_mem_iff, h.inputs] at hsp
    exact hsigned sp hsp
  conserved := by
    intro asset
    rw [h.spent, h.created]
    exact hconserved asset

end SppOpens

/-! ## Balances -/

theorem balance_cons (u : Utxo) (us : List Utxo) (asset : Fr) :
    balance (u :: us) asset = (if u.asset = asset then u.amount.val else 0) + balance us asset := by
  by_cases h : u.asset = asset
  · simp [balance, h]
  · simp [balance, h]

/-- A UTXO that pays the asset and the amount of another one is worth as much. -/
theorem Pays.balance_singleton {u v : Utxo} {owner : Fr} (h : Pays v u.asset u.amount owner)
    (asset : Fr) : balance [u] asset = balance [v] asset := by
  rw [balance_cons, balance_cons, h.asset, h.amount]

/-- Two payments are worth what they pay for, in any order. -/
theorem Pays.balance_pair {a b c d : Utxo} {o o' : Fr} (hc : Pays c a.asset a.amount o)
    (hd : Pays d b.asset b.amount o') (asset : Fr) :
    balance [a, b] asset = balance [c, d] asset := by
  simp only [balance_cons, hc.asset, hc.amount, hd.asset, hd.amount]

/-- A UTXO is worth the two of its asset that it is split into. -/
theorem balance_split {u v w : Utxo} (hv : v.asset = u.asset) (hw : w.asset = u.asset)
    (hamount : u.amount.val = v.amount.val + w.amount.val) (asset : Fr) :
    balance [u] asset = balance [v, w] asset := by
  rw [balance_cons, balance_cons, balance_cons, hv, hw]
  by_cases h : u.asset = asset
  · simp only [h, if_true, hamount, add_assoc]
  · simp only [h, if_false, zero_add]

/-! ## Owners -/

/-- The key of an address spends what the address owns, with the address's nullifier secret. -/
theorem Wallet.Documented.authorizedBy {C : Crypto} {W : Wallet} (hW : W.Documented C)
    {signer : Address} {secret : Fr} {nullifierPubkey : Bytes 32} {viewingPubkey : X25519Pubkey}
    {u : Utxo} (hsecret : W.nullifierPubkey secret = some nullifierPubkey)
    (howner : W.ownerHash ⟨.ed25519 signer, nullifierPubkey, viewingPubkey⟩ =
      some u.owner.toBytes) : Spend.AuthorizedBy C ⟨u, secret⟩ signer := by
  obtain ⟨pk, n, owner, hpk, hn, hposeidon, hword⟩ := hW.ownerHash_eq_some howner
  rw [hW.identity_iff] at hpk
  rw [hW.nullifierPubkey, Option.map_eq_some_iff] at hsecret
  obtain ⟨npk, hnpk, rfl⟩ := hsecret
  rw [Fr.ofBytes_toBytes, Option.some.injEq] at hn
  subst hn
  have hsame : u.owner = owner := Fr.toBytes_injective hword
  exact ⟨npk, hnpk, Crypto.ownerHash_eq_some.mpr ⟨pk, hpk, by rw [hsame]; exact hposeidon⟩⟩

/-! ## Inputs of a wallet

`shared.rs` and `SppTxHashes::new` of both SDKs. -/

/-- `input_sum`; the sum of `u64` values in an `i128`. -/
def inputSum (inputs : List SppProofInputUtxo) (asset : Address) : ℤ :=
  ((inputs.filter (·.utxo.asset.asset = asset)).map fun input => (input.utxo.amount.toNat : ℤ)).sum

theorem inputSum_cons (input : SppProofInputUtxo) (inputs : List SppProofInputUtxo)
    (asset : Address) : inputSum (input :: inputs) asset =
      (if input.utxo.asset.asset = asset then (input.utxo.amount.toNat : ℤ) else 0) +
        inputSum inputs asset := by
  by_cases h : input.utxo.asset.asset = asset
  · simp [inputSum, h]
  · simp [inputSum, h]

/-- Inputs without an amount add up to nothing. -/
theorem inputSum_eq_zero {inputs : List SppProofInputUtxo} (asset : Address)
    (h : ∀ input ∈ inputs, input.utxo.amount = 0) : inputSum inputs asset = 0 := by
  induction inputs with
  | nil => rfl
  | cons input inputs ih =>
      have hrest : inputSum inputs asset = 0 :=
        ih fun i hi => h i (List.mem_cons_of_mem _ hi)
      rw [inputSum_cons, hrest, h input List.mem_cons_self]
      simp

/-- `SppProofInputs`, as far as the SDKs read it. -/
structure SppProofInputs where
  inputUtxos : List SppProofInputUtxo
  blindingSeed : Bytes 32
  outputTreeId : UInt16
  deriving DecidableEq

/-- `SppTxHashes::new`, with `private_tx_blinding()` of the client library. The SDKs have the three
values in a type of their own. -/
def sppTxHashes (privateTxBlinding : SppProofInputs → Option (Bytes 32)) (inputs : SppProofInputs) :
    SdkResult (Bytes 32 × Bytes 32 × UInt16) := do
  let sourceInput ← orErrText inputs.inputUtxos.head? "missing source input"
  let blinding ← orErr (privateTxBlinding inputs)
  return (sourceInput.utxoHash, blinding, inputs.outputTreeId)

/-- SPP spends the input of a wallet, with the secret, as a UTXO. -/
structure SppProofInputUtxo.OpensAs (C : Crypto) (W : Wallet) (input : SppProofInputUtxo)
    (signer : Address) (sp : Spend) : Prop where
  owner : input.utxo.owner = .ed25519 signer
  dataHash : input.dataHash = none
  opening : input.utxo.opening C W input.nullifierPubkey (Bytes.replicate 32 0) input.treeId =
    some sp.utxo
  utxoHash : (C.utxoHash sp.utxo).map Fr.toBytes = some input.utxoHash
  secret : W.nullifierPubkey sp.nullifierSecret = some input.nullifierPubkey

/-- A wallet input is worth its amount of its mint, and its owner signs for it. -/
theorem SppProofInputUtxo.OpensAs.fields {C : Crypto} {W : Wallet} (hW : W.Documented C)
    {input : SppProofInputUtxo} {signer : Address} {sp : Spend} (h : input.OpensAs C W signer sp) :
    C.hashBytes input.utxo.asset.asset.1 = some sp.utxo.asset ∧
      sp.utxo.amount = Fr.ofU64 input.utxo.amount ∧ sp.AuthorizedBy C signer := by
  have hopening := h.opening
  rw [WalletUtxo.opening, h.owner, SppProofOutputUtxo.opening_eq_some] at hopening
  obtain ⟨-, howner, hasset, hamount, -, -, -⟩ := hopening
  refine ⟨hasset, hamount, ?_⟩
  have howner' : W.ownerHash ⟨.ed25519 signer, input.nullifierPubkey, ⟨Bytes.replicate 33 0⟩⟩ =
      some sp.utxo.owner.toBytes := by
    rw [hW.ownerHash]
    exact howner
  exact hW.authorizedBy h.secret howner'

/-- A wallet funds a lock with its first input; the others are dummies. -/
structure SppProofInputs.FundedBy (C : Crypto) (W : Wallet) (inputs : SppProofInputs)
    (signer : Address) (sp : Spend) : Prop where
  first : ∃ input dummies, inputs.inputUtxos = input :: dummies ∧ input.OpensAs C W signer sp ∧
    ∀ dummy ∈ dummies, dummy.utxo.amount = 0

/-- What the SDK hashes as its source is the UTXO that is spent. -/
theorem SppProofInputs.FundedBy.source {C : Crypto} {W : Wallet} {inputs : SppProofInputs}
    {signer : Address} {sp : Spend} (h : inputs.FundedBy C W signer sp)
    {privateTxBlinding : SppProofInputs → Option (Bytes 32)} {source blinding : Bytes 32}
    {treeId : UInt16} (hhashes : sppTxHashes privateTxBlinding inputs = .ok (source, blinding, treeId)) :
    (C.utxoHash sp.utxo).map Fr.toBytes = some source := by
  obtain ⟨input, dummies, hinputs, hinput, -⟩ := h.first
  simp only [sppTxHashes, hinputs, List.head?_cons, SdkResult.bind_eq_ok, orErrText_eq_ok,
    orErr_eq_ok, pure, Except.pure, Except.ok.injEq, Prod.mk.injEq, Option.some.injEq] at hhashes
  obtain ⟨_, rfl, _, -, rfl, -, -⟩ := hhashes
  exact hinput.utxoHash

/-- Where the sum over the inputs covers a nonzero amount, the wallet's input is of that mint and
covers it alone. -/
theorem SppProofInputs.FundedBy.covers {C : Crypto} {W : Wallet} (hW : W.Documented C)
    {inputs : SppProofInputs} {signer : Address} {sp : Spend} (h : inputs.FundedBy C W signer sp)
    {mint : Address} {amount changeAmount : UInt64} (hne : amount ≠ 0)
    (hsum : inputSum inputs.inputUtxos mint - amount.toNat = changeAmount.toNat) :
    C.hashBytes mint.1 = some sp.utxo.asset ∧
      sp.utxo.amount.val = changeAmount.toNat + amount.toNat ∧ sp.AuthorizedBy C signer := by
  obtain ⟨input, dummies, hinputs, hinput, hdummies⟩ := h.first
  obtain ⟨hasset, hamount, hauth⟩ := hinput.fields hW
  rw [hinputs, inputSum_cons, inputSum_eq_zero mint hdummies] at hsum
  have hpos : 0 < amount.toNat := by
    rw [Nat.pos_iff_ne_zero]
    intro h0
    exact hne (UInt64.toNat_inj.mp h0)
  by_cases hmint : input.utxo.asset.asset = mint
  · rw [if_pos hmint] at hsum
    refine ⟨by rw [← hmint]; exact hasset, ?_, hauth⟩
    rw [hamount, Fr.val_ofU64]
    omega
  · rw [if_neg hmint] at hsum
    omega

/-! ## Locking and getting back -/

/-- What SPP publishes for one spend into one output is what the builders compute. -/
theorem SpendsInto.opens {C : Crypto} {t : TransactIxData} {op : TxOpening} {input output : Utxo}
    {secret : Fr} {blinding privateTxHash : Bytes 32}
    (h : SpendsInto C input output blinding privateTxHash)
    (hopens : SppOpens C t op [⟨input, secret⟩] [output] blinding) :
    t.privateTxHash = privateTxHash := by
  obtain ⟨x, y, -, -, hx, hy, -⟩ := h.commits
  have hmoves : SppMoves C t op [x.toBytes] [y.toBytes] blinding :=
    hopens.moves (.cons ⟨x, hx, Fr.ofBytes_toBytes x⟩ .nil)
      (.cons ⟨y, hy, Fr.ofBytes_toBytes y⟩ .nil)
  exact h.spp (by rw [hx]; rfl) (by rw [hy]; rfl) hmoves

/-- What SPP publishes for one spend into two outputs likewise. -/
theorem LocksInto.opens {C : Crypto} {t : TransactIxData} {op : TxOpening} {sp : Spend}
    {change locked : Utxo} {source blinding privateTxHash : Bytes 32}
    (h : LocksInto C source change locked blinding privateTxHash)
    (hsource : (C.utxoHash sp.utxo).map Fr.toBytes = some source)
    (hopens : SppOpens C t op [sp] [change, locked] blinding) :
    t.privateTxHash = privateTxHash := by
  obtain ⟨changeWord, hchange, lockedWord, hlocked, -⟩ := h.calls
  obtain ⟨x, hx, rfl⟩ := ProofInputUtxo.hash_eq_ok.mp hchange
  obtain ⟨y, hy, rfl⟩ := ProofInputUtxo.hash_eq_ok.mp hlocked
  obtain ⟨s, hs, rfl⟩ := Option.map_eq_some_iff.mp hsource
  have hmoves : SppMoves C t op [s.toBytes] [x.toBytes, y.toBytes] blinding :=
    hopens.moves (.cons ⟨s, hs, Fr.ofBytes_toBytes s⟩ .nil)
      (.cons ⟨x, hx, Fr.ofBytes_toBytes x⟩ (.cons ⟨y, hy, Fr.ofBytes_toBytes y⟩ .nil))
  exact h.spp (by rw [hx]; rfl) (by rw [hy]; rfl) hmoves

/-- A refund of what the program's PDA has locked is ready for SPP. -/
theorem SppOpens.ready_refund {C : Crypto} {t : TransactIxData} {op : TxOpening} {sp : Spend}
    {refund : Utxo} {blinding : Bytes 32} {owner : Fr} (h : SppOpens C t op [sp] [refund] blinding)
    (hpays : Pays refund sp.utxo.asset sp.utxo.amount owner) {signer : Address}
    {signers : List Address} (hsigner : signer ∈ signers) (hauth : sp.AuthorizedBy C signer) :
    SppReady C signers t op := by
  refine h.ready (List.nodup_singleton _) ?_ hpays.balance_singleton
  intro sp' hsp'
  rw [List.mem_singleton.mp hsp']
  exact ⟨signer, hsigner, hauth⟩

/-- A wallet input that is split into a locked amount and its change is ready for SPP. -/
theorem SppOpens.ready_lock {C : Crypto} {W : Wallet} (hW : W.Documented C) {t : TransactIxData}
    {op : TxOpening} {sp : Spend} {change locked : Utxo} {blinding : Bytes 32}
    (h : SppOpens C t op [sp] [change, locked] blinding) {inputs : SppProofInputs}
    {signer : Address} (hfunded : inputs.FundedBy C W signer sp) {mint : Address}
    {amount changeAmount : UInt64} (hne : amount ≠ 0)
    (hsum : inputSum inputs.inputUtxos mint - amount.toNat = changeAmount.toNat)
    (hmint : C.hashBytes mint.1 = some locked.asset) (hchangeAsset : change.asset = locked.asset)
    (hlocked : locked.amount = Fr.ofU64 amount) (hchange : change.amount = Fr.ofU64 changeAmount)
    {signers : List Address} (hsigner : signer ∈ signers) : SppReady C signers t op := by
  obtain ⟨hasset, hamount, hauth⟩ := hfunded.covers hW hne hsum
  have hlockedAsset : locked.asset = sp.utxo.asset := Option.some.inj (hmint.symm.trans hasset)
  have hval : sp.utxo.amount.val = change.amount.val + locked.amount.val := by
    rw [hchange, hlocked, Fr.val_ofU64, Fr.val_ofU64]
    exact hamount
  refine h.ready (List.nodup_singleton _) ?_
    (balance_split (hchangeAsset.trans hlockedAsset) hlockedAsset hval)
  intro sp' hsp'
  rw [List.mem_singleton.mp hsp']
  exact ⟨signer, hsigner, hauth⟩

/-! ## Instructions -/

theorem withinWindow_eq_error {error : ProgramError} {now : Int64} {timestamp : UInt64}
    (h : ¬(0 ≤ now.toInt ∧ now.toInt ≤ timestamp.toNat)) :
    withinWindow error now timestamp = .error error := by
  rw [withinWindow, if_neg]
  intro hcond
  have hok : withinWindow error now timestamp = .ok () := if_pos hcond
  exact h (withinWindow_eq_ok.mp hok)

theorem afterWindow_eq_error {error : ProgramError} {now : Int64} {timestamp : UInt64}
    (h : ¬(0 ≤ now.toInt ∧ timestamp.toNat < now.toInt)) :
    afterWindow error now timestamp = .error error := by
  rw [afterWindow, if_neg]
  intro hcond
  have hok : afterWindow error now timestamp = .ok () := if_pos hcond
  exact h (afterWindow_eq_ok.mp hok)

/-- The instruction goes through in its window: there the program makes the one CPI, which holds
the transact and is signed by the owners of what it spends. Outside the program refuses it. -/
structure Program.GoesThrough (P : Program) (window : ℤ → Prop) (refusal : ProgramError)
    (accounts : AccountIterator) (data : List UInt8) (cpi : Cpi) (t : TransactIxData)
    (op : TxOpening) : Prop where
  accepts : ∀ now : Int64, window now.toInt → P.process now accounts data = .ok cpi
  refuses : ∀ now : Int64, ¬window now.toInt → P.process now accounts data = .error refusal
  transact : cpi.Transact P.runtime t
  ready : SppReady P.crypto cpi.signers t op

/-- A handler that has come to a check of the clock goes through if what it forwards does. -/
theorem Program.GoesThrough.of_check {P : Program} {window : ℤ → Prop} {refusal : ProgramError}
    {check : Int64 → ProgramResult Unit} (hopen : ∀ now, window now.toInt → check now = .ok ())
    (hclosed : ∀ now, ¬window now.toInt → check now = .error refusal) {accounts : AccountIterator}
    {data : List UInt8} {result : ProgramResult Cpi}
    (hprocess : ∀ now, P.process now accounts data = (do
      check now
      result)) {cpi : Cpi} (hresult : result = .ok cpi) {t : TransactIxData} {op : TxOpening}
    (hread : cpi.Transact P.runtime t) (hready : SppReady P.crypto cpi.signers t op) :
    P.GoesThrough window refusal accounts data cpi t op where
  accepts := by
    intro now h
    rw [hprocess, hopen now h]
    exact hresult
  refuses := by
    intro now h
    rw [hprocess, hclosed now h]
    rfl
  transact := hread
  ready := hready

/-- Clock and ledger decide: whatever the state, the instruction is a step from it at `now` exactly
if the clock has not passed `now`, the window is open and the inputs are unspent. The step moves
`spent` into `created`. -/
structure Program.Delivers (P : Program) (window : ℤ → Prop) (refusal : ProgramError)
    (accounts : AccountIterator) (data : List UInt8) (t : TransactIxData) (op : TxOpening)
    (spent created : List Utxo) : Prop where
  refuses : ∀ now : Int64, ¬window now.toInt → P.process now accounts data = .error refusal
  step_iff : ∀ (s : State) (now : Int64),
    (∃ cpi s', P.Step s (.instruction now accounts data cpi t op) s') ↔
      s.clock ≤ now ∧ window now.toInt ∧ ∀ u ∈ spent, u ∈ s.ledger.unspent
  ledger : ∀ s now cpi s', P.Step s (.instruction now accounts data cpi t op) s' →
    s'.ledger = s.ledger.apply spent created

/-- An instruction that goes through delivers. -/
theorem Program.GoesThrough.delivers {P : Program} {window : ℤ → Prop} {refusal : ProgramError}
    {accounts : AccountIterator} {data : List UInt8} {cpi : Cpi} {t : TransactIxData}
    {op : TxOpening} (h : P.GoesThrough window refusal accounts data cpi t op)
    {spent created : List Utxo} (hspent : op.spent = spent) (hcreated : op.created = created) :
    P.Delivers window refusal accounts data t op spent created where
  refuses := h.refuses
  step_iff := by
    intro s now
    rw [← hspent]
    constructor
    · rintro ⟨cpi', s', hstep⟩
      cases hstep with
      | instruction hclock hprocess hread hspp =>
          refine ⟨hclock, ?_, hspp.unspent⟩
          by_contra hclosed
          rw [h.refuses now hclosed] at hprocess
          cases hprocess
    · rintro ⟨hclock, hopen, hunspent⟩
      exact ⟨cpi, _, .instruction hclock (h.accepts now hopen) h.transact
        (h.ready.accepts hunspent)⟩
  ledger := by
    intro s now cpi' s' hstep
    rw [← hspent, ← hcreated]
    cases hstep with
    | instruction _ _ _ _ => rfl

end Zolana
