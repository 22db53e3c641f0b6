import Zolana.TimelockEscrow.Reclaim

set_option autoImplicit false

/-! # Escrow and withdraw on one UTXO

An escrow is created as an output with a data record and spent as an input with empty data, and
both circuits see it as a witness. The three forms hash alike. What the two builders return
satisfies the circuits and carries the hashes that SPP and the program compute.
-/

namespace Zolana.TimelockEscrow.Sdk

variable {X : ProofContext}

/-! ## The forms of an escrow -/

/-- The SDK's terms hash is the circuits' hash of the witness terms. -/
theorem EscrowTerms.dataHash_witness (hW : X.wallet.Documented X.env.crypto) {terms : EscrowTerms}
    {input : EscrowTermsProofInput} {word : Bytes 32} (hinput : terms.proofInput X = .ok input)
    (h : terms.dataHash X = .ok word) :
    ∃ d, input.witness.dataHash X.env.crypto = some d ∧ word = d.toBytes := by
  obtain ⟨hcreator, hunlock⟩ := EscrowTerms.of_proofInput hW hinput
  obtain ⟨owner, howner, rfl⟩ := EscrowTerms.proofInput_eq_ok.mp hinput
  have hword : owner = Fr.toBytes (decimal owner) := Option.some.inj (howner.symm.trans hcreator)
  simp only [EscrowTerms.dataHash, hinput, bind, Except.bind, EscrowTermsProofInput.dataHash,
    orErr_eq_ok] at h
  obtain ⟨fes, d, hfes, hd, rfl⟩ := Crypto.hashv_eq_some.mp h
  rw [hword] at hfes
  simp only [List.mapM_cons, List.mapM_nil, Fr.ofBytes_toBytes, ofBytes_u64RightAlign,
    Option.bind_eq_bind, Option.bind_some, Option.pure_def, Option.some.injEq] at hfes
  subst hfes
  refine ⟨d, ?_, rfl⟩
  rw [TimelockEscrow.EscrowTerms.dataHash, hunlock]
  exact hd

namespace EscrowUtxo.OpensAt

variable {escrow : EscrowUtxo} {treeId : UInt16} {input : EscrowTermsProofInput} {u : ProofInputUtxo}

/-- The UTXO of an escrow with a nonzero amount carries the terms of the escrow. -/
theorem carriesTerms (hW : X.wallet.Documented X.env.crypto)
    (hL : X.client.Documented X.env.crypto X.wallet) (hne : escrow.amount ≠ 0)
    (h : escrow.OpensAt X treeId input u) : CarriesTerms X.env.crypto u input.witness := by
  obtain ⟨word, _, hword, -, hu⟩ := h.fields hL
  obtain ⟨hring, -, -, hamount, -, hdata, -⟩ := SppProofOutputUtxo.opening_eq_some.mp hu
  obtain ⟨d, hd, rfl⟩ := EscrowTerms.dataHash_witness hW h.input hword
  rw [Option.map_some, Option.getD_some, Fr.ofBytes_toBytes] at hdata
  refine ⟨hring, ?_, ?_⟩
  · rw [hd, hdata]
  · rw [hamount]
    intro h0
    exact hne (Fr.ofU64_inj.mp h0)

/-- The escrow output has the hash of the UTXO. -/
theorem outputHash (hW : X.wallet.Documented X.env.crypto)
    (hL : X.client.Documented X.env.crypto X.wallet) (h : escrow.OpensAt X treeId input u) :
    ∃ output, escrow.outputUtxo X = .ok output ∧
      X.wallet.outputHash output treeId = (X.env.crypto.utxoHash u).map Fr.toBytes := by
  obtain ⟨output, houtput, hu⟩ := h.utxo
  refine ⟨output, houtput, ?_⟩
  simp only [EscrowUtxo.outputUtxo, SdkResult.bind_eq_ok, orErr_eq_ok, pure, Except.pure,
    Except.ok.injEq] at houtput
  obtain ⟨word, -, nullifierPubkey, -, rfl⟩ := houtput
  exact outputHash_of_proofInputUtxo hW hL rfl rfl rfl hu

/-- Every input that spends the escrow has that hash. -/
theorem spend_utxoHash (hW : X.wallet.Documented X.env.crypto)
    (hL : X.client.Documented X.env.crypto X.wallet) (h : escrow.OpensAt X treeId input u)
    {leafIndex : UInt64} {spend : SppProofInputUtxo}
    (hspend : escrow.toInputUtxo X treeId leafIndex = .ok spend) :
    (X.env.crypto.utxoHash u).map Fr.toBytes = some spend.utxoHash := by
  obtain ⟨word, nullifierPubkey, hword, hnullifier, hu⟩ := h.fields hL
  have hhash := hL.utxoHash_of_opening hW hu
  simp only [EscrowUtxo.toInputUtxo, SdkResult.bind_eq_ok, orErr_eq_ok, pure, Except.pure,
    Except.ok.injEq] at hspend
  obtain ⟨word', hword', nullifierPubkey', hnullifier', utxoHash, hutxo, nullifier, -, rfl⟩ := hspend
  have hwords : word = word' := Except.ok.inj (hword.symm.trans hword')
  have hnullifiers : nullifierPubkey = nullifierPubkey' :=
    Option.some.inj (hnullifier.symm.trans hnullifier')
  subst hwords hnullifiers
  exact hhash.symm.trans hutxo

/-- In one tree an escrow is one UTXO. -/
theorem unique {input' : EscrowTermsProofInput} {u' : ProofInputUtxo}
    (h : escrow.OpensAt X treeId input u) (h' : escrow.OpensAt X treeId input' u') : u = u' := by
  obtain ⟨output, houtput, hu⟩ := h.utxo
  obtain ⟨output', houtput', hu'⟩ := h'.utxo
  have hsame : output = output' := Except.ok.inj (houtput.symm.trans houtput')
  subst hsame
  exact Option.some.inj (hu.symm.trans hu')

end EscrowUtxo.OpensAt

/-! ## Escrow -/

/-- The proof inputs of an escrow agree with the circuit and with SPP. -/
structure EscrowProofInputs.Agrees (X : ProofContext) (p : EscrowProofInputParams)
    (inputs : EscrowProofInputs) : Prop where
  circuit : inputs.witness.Satisfied X.env.crypto
  change : X.wallet.outputHash p.change p.sppTxHashes.outputTreeId =
    (X.env.crypto.utxoHash inputs.change).map Fr.toBytes
  escrow : ∃ output, p.escrowUtxo.outputUtxo X = .ok output ∧
    X.wallet.outputHash output p.sppTxHashes.outputTreeId =
      (X.env.crypto.utxoHash inputs.escrowUtxo).map Fr.toBytes
  privateTxHash : ∀ output changeHash escrowHash t op, p.escrowUtxo.outputUtxo X = .ok output →
    X.wallet.outputHash p.change p.sppTxHashes.outputTreeId = some changeHash →
    X.wallet.outputHash output p.sppTxHashes.outputTreeId = some escrowHash →
    SppMoves X.env.crypto t op [p.sppTxHashes.sourceInputHash] [changeHash, escrowHash]
      p.sppTxHashes.privateTxBlinding →
    t.privateTxHash = inputs.privateTxHash

/-- The change is checked, but for its amount. -/
theorem EscrowProofInputs.Built.change_checked {p : EscrowProofInputParams}
    {inputs : EscrowProofInputs} (h : inputs.Built X p) :
    Checked p.change p.escrowUtxo.asset.asset p.change.amount p.escrowUtxo.terms.creator :=
  ⟨h.change_owner, congrArg Mint.asset h.change_asset, rfl, h.change_plain⟩

/-- Whatever the change amounts to, the witness of an escrow satisfies the circuit. -/
theorem EscrowProofInputs.Built.satisfied (hW : X.wallet.Documented X.env.crypto)
    (hL : X.client.Documented X.env.crypto X.wallet) {p : EscrowProofInputParams}
    {inputs : EscrowProofInputs} (h : inputs.Built X p) (hamount : p.escrowUtxo.amount ≠ 0) :
    inputs.witness.Satisfied X.env.crypto := by
  obtain ⟨hcreator, -⟩ := EscrowTerms.of_proofInput hW h.opens.input
  obtain ⟨hasset, -⟩ := h.opens.asset_amount hL
  obtain ⟨hpays, hchangeAsset, hchangeOwner, -, -⟩ := h.change_checked.pays hL h.changeUtxo
  have hassets : inputs.change.asset = inputs.escrowUtxo.asset :=
    Option.some.inj (hchangeAsset.symm.trans hasset)
  have howners : inputs.change.owner = inputs.terms.witness.ownerHash :=
    Fr.toBytes_injective (Option.some.inj (hchangeOwner.symm.trans hcreator))
  refine
    { escrow := h.opens.carriesTerms hW hL hamount
      change := hpays.dataless
      change_asset := hassets
      change_owner := howners
      privateTxHash := ?_ }
  rw [EscrowProofInputs.witness, h.sourceInputHash, h.privateTxBlinding]
  exact h.locksInto.circuit

theorem EscrowProofInputs.Built.agrees (hW : X.wallet.Documented X.env.crypto)
    (hL : X.client.Documented X.env.crypto X.wallet) {p : EscrowProofInputParams}
    {inputs : EscrowProofInputs} (h : inputs.Built X p) (hamount : p.escrowUtxo.amount ≠ 0) :
    inputs.Agrees X p := by
  have hchange : X.wallet.outputHash p.change p.sppTxHashes.outputTreeId =
      (X.env.crypto.utxoHash inputs.change).map Fr.toBytes :=
    h.change_checked.outputHash hW hL h.changeUtxo
  refine
    { circuit := h.satisfied hW hL hamount
      change := hchange
      escrow := h.opens.outputHash hW hL
      privateTxHash := ?_ }
  intro output changeHash escrowHash t op houtput hchangeHash hescrowHash hspp
  obtain ⟨output', houtput', hhash⟩ := h.opens.outputHash hW hL
  have hsame : output = output' := Except.ok.inj (houtput.symm.trans houtput')
  subst hsame
  exact h.locksInto.spp (hchange.symm.trans hchangeHash) (hhash.symm.trans hescrowHash) hspp

/-! ## Withdraw -/

/-- The proof inputs of a withdraw agree with the circuit, with SPP and with the program that
`creator` signs. -/
structure WithdrawProofInputs.Agrees (X : ProofContext) (p : WithdrawProofInputParams)
    (inputs : WithdrawProofInputs) (creator : Address) : Prop where
  circuit : inputs.witness.Satisfied X.env.crypto
  escrowInput : ∀ leafIndex spend,
    p.escrowUtxo.toInputUtxo X p.inputTreeId leafIndex = .ok spend →
    (X.env.crypto.utxoHash inputs.escrowUtxo).map Fr.toBytes = some spend.utxoHash
  sourceOutput : X.wallet.outputHash p.sourceOutput p.outputTreeId =
    (X.env.crypto.utxoHash inputs.sourceOutput).map Fr.toBytes
  privateTxHash : ∀ leafIndex spend sourceHash t op,
    p.escrowUtxo.toInputUtxo X p.inputTreeId leafIndex = .ok spend →
    X.wallet.outputHash p.sourceOutput p.outputTreeId = some sourceHash →
    SppMoves X.env.crypto t op [spend.utxoHash] [sourceHash] p.privateTxBlinding →
    t.privateTxHash = inputs.privateTxHash
  publicInputHash : ∃ pk, X.env.crypto.solanaOwnerIdentity creator = some pk ∧
    WithdrawPublicInput.hash X.env.crypto ⟨inputs.privateTxHash,
      p.escrowUtxo.terms.unlockTimestamp, pk.toBytes⟩ = .ok inputs.publicInputHash
  program : ∀ now caller signer iter data ix, caller.isSigner = true → caller.isWritable = true →
    signer.isSigner = true → signer.address = creator → X.env.withdrawIxData data = some ix →
    ix.unlockTimestamp = p.escrowUtxo.terms.unlockTimestamp →
    ix.transact.privateTxHash = inputs.privateTxHash →
    processWithdrawIx X.env now (caller :: signer :: iter) data = do
      checkAfterWindow now ix.unlockTimestamp
      verifyGroth16 X.env ix.proof.compressed inputs.publicInputHash withdrawVerifyingkey
      forward X.env iter ix.transact

/-- What `process_withdraw_ix` checks once it has computed its public input. -/
theorem processWithdrawIx_of_publicInput {E : Env} {now : Int64} {caller signer : AccountView}
    {iter : AccountIterator} {data : List UInt8} {ix : WithdrawIxData} {pk : Fr}
    {publicInput : Bytes 32} (hcaller : caller.isSigner = true)
    (hwritable : caller.isWritable = true) (hsigner : signer.isSigner = true)
    (hpk : E.crypto.solanaOwnerIdentity signer.address = some pk)
    (hix : E.withdrawIxData data = some ix)
    (hpublic : WithdrawPublicInput.hash E.crypto
      ⟨ix.transact.privateTxHash, ix.unlockTimestamp, pk.toBytes⟩ = .ok publicInput) :
    processWithdrawIx E now (caller :: signer :: iter) data = (do
      checkAfterWindow now ix.unlockTimestamp
      verifyGroth16 E ix.proof.compressed publicInput withdrawVerifyingkey
      forward E iter ix.transact) := by
  have hfirst : AccountIterator.nextSignerMut (caller :: signer :: iter) =
      .ok (caller, signer :: iter) :=
    AccountIterator.nextSignerMut_eq_ok.mpr ⟨rfl, hcaller, hwritable⟩
  have hsecond : AccountIterator.nextSigner (signer :: iter) = .ok (signer, iter) :=
    AccountIterator.nextSigner_eq_ok.mpr ⟨rfl, hsigner⟩
  simp only [processWithdrawIx, hfirst, hsecond, hpk, hix, hpublic, okOr, bind, Except.bind]

theorem WithdrawProofInputs.Built.agrees (hW : X.wallet.Documented X.env.crypto)
    (hL : X.client.Documented X.env.crypto X.wallet) {p : WithdrawProofInputParams}
    {inputs : WithdrawProofInputs} {creator : Address} (h : inputs.Built X p)
    (hamount : p.escrowUtxo.amount ≠ 0)
    (hcreator : p.escrowUtxo.terms.creator.signingPubkey = .ed25519 creator) :
    inputs.Agrees X p creator := by
  have hsource : X.wallet.outputHash p.sourceOutput p.outputTreeId =
      (X.env.crypto.utxoHash inputs.sourceOutput).map Fr.toBytes :=
    h.sourceOutput.outputHash hW hL h.sourceUtxo
  -- the SDK reads the identity off the creator's address, the program off the signer
  have hidentity := h.ownerPkField
  rw [hcreator, hW.ownerProofInputHash, Option.map_eq_some_iff] at hidentity
  obtain ⟨pk, hpk, hpkField⟩ := hidentity
  have hpublic := h.publicInputHash
  rw [← hpkField] at hpublic
  refine
    { circuit := h.satisfied hW hL (h.opens.carriesTerms hW hL hamount)
      escrowInput := fun _ _ => h.opens.spend_utxoHash hW hL
      sourceOutput := hsource
      privateTxHash := ?_
      publicInputHash := ⟨pk, hpk, hpublic⟩
      program := ?_ }
  · intro leafIndex spend sourceHash t op hspend hhash hspp
    exact h.spendsInto.spp (h.opens.spend_utxoHash hW hL hspend) (hsource.symm.trans hhash) hspp
  · intro now caller signer iter data ix hcaller hwritable hsigner haddress hix hunlock hprivate
    refine processWithdrawIx_of_publicInput hcaller hwritable hsigner (by rw [haddress]; exact hpk)
      hix ?_
    rw [hprivate, hunlock]
    exact hpublic

/-- **The escrow builders agree with circuits, program and SPP.** For every escrow of a nonzero
amount whose creator is a Solana key, both builders return satisfying witnesses with the hashes
that SPP and the program compute. In one tree, the UTXO that the withdraw spends is the one that
the escrow has created. -/
theorem escrow_builders_agree (hW : X.wallet.Documented X.env.crypto)
    (hL : X.client.Documented X.env.crypto X.wallet) (escrow : EscrowUtxo) (creator : Address)
    (hamount : escrow.amount ≠ 0) (hcreator : escrow.terms.creator.signingPubkey = .ed25519 creator) :
    (∀ (p : EscrowProofInputParams) (inputs : EscrowProofInputs), p.escrowUtxo = escrow →
      p.toProofInputs X = .ok inputs → inputs.Agrees X p) ∧
    (∀ (q : WithdrawProofInputParams) (withdraw : WithdrawProofInputs), q.escrowUtxo = escrow →
      q.toProofInputs X = .ok withdraw → withdraw.Agrees X q creator) ∧
    ∀ (p : EscrowProofInputParams) (inputs : EscrowProofInputs) (q : WithdrawProofInputParams)
      (withdraw : WithdrawProofInputs), p.escrowUtxo = escrow → q.escrowUtxo = escrow →
      p.toProofInputs X = .ok inputs → q.toProofInputs X = .ok withdraw →
      q.inputTreeId = p.sppTxHashes.outputTreeId →
      withdraw.escrowUtxo = inputs.escrowUtxo ∧
        ∀ leafIndex spend, escrow.toInputUtxo X q.inputTreeId leafIndex = .ok spend →
          ∃ output, escrow.outputUtxo X = .ok output ∧
            X.wallet.outputHash output p.sppTxHashes.outputTreeId = some spend.utxoHash := by
  refine ⟨?_, ?_, ?_⟩
  · rintro p inputs rfl h
    exact (p.toProofInputs_eq_ok.mp h).agrees hW hL hamount
  · rintro q withdraw rfl h
    exact (q.toProofInputs_eq_ok.mp h).agrees hW hL hamount hcreator
  · rintro p inputs q withdraw hp hq hinputs hwithdraw htree
    have hcreated := (p.toProofInputs_eq_ok.mp hinputs).opens
    have hspent := (q.toProofInputs_eq_ok.mp hwithdraw).opens
    rw [hp] at hcreated
    rw [hq, htree] at hspent
    refine ⟨hspent.unique hcreated, ?_⟩
    intro leafIndex spend hspend
    rw [htree] at hspend
    obtain ⟨output, houtput, hhash⟩ := hcreated.outputHash hW hL
    exact ⟨output, houtput, hhash.trans (hcreated.spend_utxoHash hW hL hspend)⟩

namespace Sample

/-- What the creator spends: exactly the amount of the escrow. -/
def creatorFunds : Utxo := ⟨1003, 20, 7, 31, 0, 0, 0, 0⟩

/-- An escrow without change: the change output has the amount zero. -/
def fullEscrowParams : EscrowProofInputParams where
  escrowUtxo := (escrowParams 100).escrowUtxo
  change := .plain ⟨Bytes.replicate 32 20, 2⟩ 0 (Fr.toBytes 32) creatorAddress
  sppTxHashes := ⟨hashWord .linear creatorFunds, Fr.toBytes 55, 3⟩

/-- The refund, from the tree of the escrow into another one. -/
def withdrawParams : WithdrawProofInputParams where
  escrowUtxo := (escrowParams 100).escrowUtxo
  sourceOutput := (escrowParams 100).escrowUtxo.sourceOutput creatorAddress (Fr.toBytes 34)
  privateTxBlinding := Fr.toBytes 56
  inputTreeId := 3
  outputTreeId := 1

/-- The transact of the escrow, with a dummy input. -/
def escrowOpening (inputs : EscrowProofInputs) : TxOpening :=
  ⟨[some ⟨creatorFunds, 5⟩, none], [some inputs.change, some inputs.escrowUtxo], 55⟩

/-- The transact of the withdraw, with padding. -/
def withdrawOpening (inputs : WithdrawProofInputs) : TxOpening :=
  ⟨[some ⟨inputs.escrowUtxo, 0⟩, none], [none, some inputs.sourceOutput], 56⟩

set_option maxRecDepth 4000 in
theorem fullEscrowParams_moves :
    ∃ inputs, fullEscrowParams.toProofInputs linearContext = .ok inputs ∧
      (escrowOpening inputs).Moves .linear 200 := by decide

set_option maxRecDepth 4000 in
theorem withdrawParams_moves :
    ∃ inputs, withdrawParams.toProofInputs linearContext = .ok inputs ∧
      (withdrawOpening inputs).Moves .linear 200 := by decide

end Sample

open Sdk.Sample in
theorem escrow_builders_agree_sample :
    ∃ inputs withdraw, fullEscrowParams.toProofInputs linearContext = .ok inputs ∧
      inputs.Agrees linearContext fullEscrowParams ∧
      withdrawParams.toProofInputs linearContext = .ok withdraw ∧
      withdraw.Agrees linearContext withdrawParams TimelockEscrow.Sample.creator ∧
      withdraw.escrowUtxo = inputs.escrowUtxo ∧ (escrowOpening inputs).Moves .linear 200 ∧
      (withdrawOpening withdraw).Moves .linear 200 := by
  obtain ⟨inputs, hinputs, hmoves⟩ := fullEscrowParams_moves
  obtain ⟨withdraw, hwithdraw, hmoves'⟩ := withdrawParams_moves
  obtain ⟨hescrow, hrefund, hsame⟩ := escrow_builders_agree (X := linearContext)
    (Wallet.ofCrypto_documented .linear) (Client.ofCrypto_documented fun _ => rfl)
    (escrowParams 100).escrowUtxo TimelockEscrow.Sample.creator (by decide) rfl
  obtain ⟨hutxo, -⟩ := hsame fullEscrowParams inputs withdrawParams withdraw rfl rfl hinputs
    hwithdraw rfl
  exact ⟨inputs, withdraw, hinputs, hescrow fullEscrowParams inputs rfl hinputs, hwithdraw,
    hrefund withdrawParams withdraw rfl hwithdraw, hutxo, hmoves, hmoves'⟩

end Zolana.TimelockEscrow.Sdk
