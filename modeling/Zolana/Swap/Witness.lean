import Zolana.Swap.TermsHash

set_option autoImplicit false

/-! # The proof builders meet the circuits

When the builder of a take returns proof inputs, their witness satisfies the circuit and the
hashes in them are those that SPP and the program compute from the transact. Each builder
re-implements the constraints of its circuit; what both rails share is read off once.
-/

namespace Zolana.Swap.Sdk

variable {X : ProofContext}

/-! ## The terms and the order -/

theorem OrderTerms.proofInput_eq_ok {terms : OrderTerms} {input : OrderTermsProofInput} :
    terms.proofInput X.toContext = .ok input ↔
      ∃ asset owner taker, X.env.crypto.hashBytes terms.destinationMint.1 = some asset ∧
        X.wallet.ownerHash terms.destination = some owner ∧
        X.env.crypto.solanaOwnerIdentity terms.taker = some taker ∧
        input = ⟨asset.toBytes, terms.destinationAmount, owner,
          terms.destination.viewingPubkey.bytes, terms.expiry, taker.toBytes, terms.takeMode⟩ := by
  simp only [OrderTerms.proofInput, SdkResult.bind_eq_ok, hashBytes_eq_ok, orErr_eq_ok,
    addressDataHash_eq_ok, pure, Except.pure, Except.ok.injEq]
  constructor
  · rintro ⟨_, ⟨asset, hasset, rfl⟩, owner, howner, _, ⟨taker, htaker, rfl⟩, rfl⟩
    exact ⟨asset, owner, taker, hasset, howner, htaker, rfl⟩
  · rintro ⟨asset, owner, taker, hasset, howner, htaker, rfl⟩
    exact ⟨_, ⟨asset, hasset, rfl⟩, owner, howner, _, ⟨taker, htaker, rfl⟩, rfl⟩

/-- The witness terms that the SDK makes of its terms are the terms it means. -/
theorem OrderTerms.denotes_witness (hW : X.wallet.Documented X.env.crypto) {terms : OrderTerms}
    {input : OrderTermsProofInput} (h : terms.proofInput X.toContext = .ok input) :
    terms.Denotes X.toContext input.witness := by
  obtain ⟨asset, ownerWord, taker, hasset, howner, htaker, rfl⟩ := OrderTerms.proofInput_eq_ok.mp h
  obtain ⟨_, _, owner, -, -, -, rfl⟩ := hW.ownerHash_eq_some howner
  exact
    { destinationAsset := hasset.trans (congrArg some (decimal_toBytes asset).symm)
      destinationAmount := decimal_u64RightAlign _
      makerOwnerHash :=
        howner.trans (congrArg (fun x => some (Fr.toBytes x)) (decimal_toBytes owner).symm)
      expiry := decimal_u64RightAlign _
      takerPkFe := htaker.trans (congrArg some (decimal_toBytes taker).symm)
      takeMode := decimal_u64RightAlign _ }

/-- The SDK's terms hash is the circuit's hash of the witness terms. -/
theorem OrderTerms.dataHash_witness (hW : X.wallet.Documented X.env.crypto)
    (hL : X.client.Documented X.env.crypto X.wallet) (hkeys : X.env.crypto.HashesKeys)
    {terms : OrderTerms} {input : OrderTermsProofInput} {word : Bytes 32}
    (hinput : terms.proofInput X.toContext = .ok input)
    (h : terms.dataHash X.toContext = .ok word) :
    ∃ d, input.witness.hash X.env.crypto = some d ∧ word = d.toBytes := by
  simp only [OrderTerms.dataHash, hinput, bind, Except.bind] at h
  exact input.dataHash_witness hW.compressedAddressHash
    (fun _ _ => Wallet.bytes_of_x25519FromBytes hL.x25519FromBytes) hkeys h

/-- The client reads the order in a tree as the UTXO `u`, and its terms as `input`. -/
structure OrderUtxo.OpensAt (X : ProofContext) (order : OrderUtxo) (treeId : UInt16)
    (input : OrderTermsProofInput) (u : ProofInputUtxo) : Prop where
  input : order.terms.proofInput X.toContext = .ok input
  utxo : ∃ output, order.outputUtxo X.toContext order.terms.destination.viewingPubkey = .ok output ∧
    X.client.proofInputUtxo output treeId = some u

namespace OrderUtxo.OpensAt

variable {order : OrderUtxo} {treeId : UInt16} {input : OrderTermsProofInput} {u : ProofInputUtxo}

/-- The fields of the UTXO that an order is read as. -/
theorem fields (hL : X.client.Documented X.env.crypto X.wallet)
    (h : order.OpensAt X treeId input u) :
    ∃ word nullifierPubkey, order.terms.dataHash X.toContext = .ok word ∧
      X.wallet.nullifierPubkey 0 = some nullifierPubkey ∧
      ((⟨order.sourceMint, order.sourceAmount, order.blinding, none, none, some word, none,
        none⟩ : SppProofOutputUtxo).opening X.env.crypto (X.wallet.ownerHash
          ⟨.ed25519 (orderAuthority X.env), nullifierPubkey,
            order.terms.destination.viewingPubkey⟩) treeId = some u) := by
  obtain ⟨output, houtput, hu⟩ := h.utxo
  simp only [OrderUtxo.outputUtxo, SdkResult.bind_eq_ok, orErr_eq_ok, pure, Except.pure,
    Except.ok.injEq] at houtput
  obtain ⟨word, hword, nullifierPubkey, hnullifier, data, -, rfl⟩ := houtput
  refine ⟨word, nullifierPubkey, hword, hnullifier, ?_⟩
  rw [hL.proofInputUtxo _ _ _ rfl rfl rfl] at hu
  exact hu

/-- The UTXO of an order with a nonzero amount carries the terms of the order. -/
theorem carriesTerms (hW : X.wallet.Documented X.env.crypto)
    (hL : X.client.Documented X.env.crypto X.wallet) (hkeys : X.env.crypto.HashesKeys)
    (hne : order.sourceAmount ≠ 0) (h : order.OpensAt X treeId input u) :
    CarriesTerms X.env.crypto u input.witness := by
  obtain ⟨word, _, hword, -, hu⟩ := h.fields hL
  obtain ⟨hring, -, -, hamount, -, hdata, -⟩ := SppProofOutputUtxo.opening_eq_some.mp hu
  obtain ⟨d, hd, rfl⟩ := OrderTerms.dataHash_witness hW hL hkeys h.input hword
  rw [Option.map_some, Option.getD_some, Fr.ofBytes_toBytes] at hdata
  refine ⟨hring, ?_, ?_⟩
  · rw [hd, hdata]
  · rw [hamount]
    intro h0
    exact hne (Fr.ofU64_inj.mp h0)

theorem asset_amount_blinding (hL : X.client.Documented X.env.crypto X.wallet)
    (h : order.OpensAt X treeId input u) :
    X.env.crypto.hashBytes order.sourceMint.asset.1 = some u.asset ∧
      u.amount = Fr.ofU64 order.sourceAmount ∧ Fr.ofBytes order.blinding = some u.blinding := by
  obtain ⟨_, _, -, -, hu⟩ := h.fields hL
  obtain ⟨-, -, hasset, hamount, hblinding, -, -⟩ := SppProofOutputUtxo.opening_eq_some.mp hu
  exact ⟨hasset, hamount, hblinding⟩

/-- The nullifier that the client computes for the order is the one that SPP publishes. -/
theorem nullifier (hL : X.client.Documented X.env.crypto X.wallet)
    (h : order.OpensAt X treeId input u) {hash : Fr} {n : Bytes 32}
    (hhash : X.env.crypto.utxoHash u = some hash)
    (hn : X.client.nullifier 0 hash.toBytes order.blinding = some n) :
    ∃ nf, Spend.nullifier X.env.crypto ⟨u, 0⟩ = some nf ∧ n = nf.toBytes := by
  obtain ⟨-, -, hblinding⟩ := h.asset_amount_blinding hL
  rw [hL.nullifier] at hn
  obtain ⟨fes, nf, hfes, hposeidon, rfl⟩ := Crypto.hashv_eq_some.mp hn
  simp only [List.mapM_cons, List.mapM_nil, Fr.ofBytes_toBytes, hblinding, Option.bind_eq_bind,
    Option.bind_some, Option.pure_def, Option.some.injEq] at hfes
  subst hfes
  refine ⟨nf, ?_, rfl⟩
  simp only [Spend.nullifier, hhash, Option.bind_eq_bind, Option.bind_some]
  exact hposeidon

/-- The client hashes the input form of the order to the hash of the UTXO. -/
theorem inputHash (hW : X.wallet.Documented X.env.crypto)
    (hL : X.client.Documented X.env.crypto X.wallet) (h : order.OpensAt X treeId input u) :
    ∃ word nullifierPubkey, order.terms.dataHash X.toContext = .ok word ∧
      X.wallet.nullifierPubkey 0 = some nullifierPubkey ∧
      X.client.utxoHash
          ⟨.ed25519 (orderAuthority X.env), order.sourceMint, order.sourceAmount, order.blinding, none⟩
          nullifierPubkey word (Bytes.replicate 32 0) treeId =
        (X.env.crypto.utxoHash u).map Fr.toBytes := by
  obtain ⟨word, nullifierPubkey, hword, hnullifier, hu⟩ := h.fields hL
  exact ⟨word, nullifierPubkey, hword, hnullifier, hL.utxoHash_of_opening hW hu⟩

/-- **The two forms of an order are one UTXO.** The input form of the order, at any leaf of the
tree, has the hash of the output form, and the nullifier of that hash. -/
theorem toInputUtxo (hW : X.wallet.Documented X.env.crypto)
    (hL : X.client.Documented X.env.crypto X.wallet) (h : order.OpensAt X treeId input u)
    {hash : Fr} {n : Bytes 32} (hhash : X.env.crypto.utxoHash u = some hash)
    (hn : X.client.nullifier 0 hash.toBytes order.blinding = some n) (leafIndex : UInt64) :
    ∃ spend, order.toInputUtxo X treeId leafIndex = .ok spend ∧
      spend.utxoHash = hash.toBytes ∧ spend.nullifier = n ∧ spend.treeId = treeId := by
  obtain ⟨word, nullifierPubkey, hword, hnullifier, hutxo⟩ := h.inputHash hW hL
  rw [hhash] at hutxo
  refine ⟨⟨⟨.ed25519 (orderAuthority X.env), order.sourceMint, order.sourceAmount, order.blinding,
    none⟩, hash.toBytes, n, nullifierPubkey, some word, none, treeId, leafIndex⟩, ?_, rfl, rfl, rfl⟩
  simp only [OrderUtxo.toInputUtxo, SdkResult.bind_eq_ok, orErr_eq_ok, pure, Except.pure]
  exact ⟨word, hword, nullifierPubkey, hnullifier, _, hutxo, n, hn, rfl⟩

/-- Every input form that is returned has that hash. -/
theorem spend_utxoHash (hW : X.wallet.Documented X.env.crypto)
    (hL : X.client.Documented X.env.crypto X.wallet) (h : order.OpensAt X treeId input u)
    {leafIndex : UInt64} {spend : SppProofInputUtxo}
    (hspend : order.toInputUtxo X treeId leafIndex = .ok spend) :
    (X.env.crypto.utxoHash u).map Fr.toBytes = some spend.utxoHash := by
  obtain ⟨word, nullifierPubkey, hword, hnullifier, hhash⟩ := h.inputHash hW hL
  simp only [OrderUtxo.toInputUtxo, SdkResult.bind_eq_ok, orErr_eq_ok, pure, Except.pure,
    Except.ok.injEq] at hspend
  obtain ⟨word', hword', nullifierPubkey', hnullifier', utxoHash, hutxo, nullifier, -, rfl⟩ := hspend
  have hwords : word = word' := Except.ok.inj (hword.symm.trans hword')
  have hnullifiers : nullifierPubkey = nullifierPubkey' :=
    Option.some.inj (hnullifier.symm.trans hnullifier')
  subst hwords hnullifiers
  exact hhash.symm.trans hutxo

/-- The order output has the hash of the UTXO, whichever key it is encrypted to. -/
theorem outputHash (hW : X.wallet.Documented X.env.crypto)
    (hL : X.client.Documented X.env.crypto X.wallet) (h : order.OpensAt X treeId input u)
    (takerViewingPubkey : X25519Pubkey) :
    ∃ output, order.outputUtxo X.toContext takerViewingPubkey = .ok output ∧
      X.wallet.outputHash output treeId = (X.env.crypto.utxoHash u).map Fr.toBytes := by
  obtain ⟨output, houtput, hu⟩ := h.utxo
  simp only [OrderUtxo.outputUtxo, SdkResult.bind_eq_ok, orErr_eq_ok, pure, Except.pure,
    Except.ok.injEq] at houtput
  obtain ⟨word, hword, nullifierPubkey, hnullifier, data, hdata, rfl⟩ := houtput
  rw [hL.proofInputUtxo _ _ _ rfl rfl rfl] at hu
  let owner : ShieldedAddress :=
    ⟨.ed25519 (orderAuthority X.env), nullifierPubkey, takerViewingPubkey⟩
  let encrypted := (SppProofOutputUtxo.plain order.sourceMint order.sourceAmount order.blinding
    owner).withUtxoData data word
  -- an owner hash is of the signing and the nullifier key alone
  have hopening : encrypted.opening X.env.crypto (X.wallet.ownerHash owner) treeId = some u := by
    rw [hW.ownerHash] at hu ⊢
    exact hu
  refine ⟨encrypted, ?_, ?_⟩
  · simp only [OrderUtxo.outputUtxo, SdkResult.bind_eq_ok, orErr_eq_ok, pure, Except.pure,
      Except.ok.injEq]
    exact ⟨word, hword, nullifierPubkey, hnullifier, data, hdata, rfl⟩
  · rw [hW.outputHash encrypted owner treeId rfl rfl rfl, hopening]
    rfl

end OrderUtxo.OpensAt

/-! ## What both takes share -/

/-- What the start of both builders checks. -/
structure TakeProofInputParams.Parties (p : TakeProofInputParams) (takeMode : UInt64)
    (taker : ShieldedAddress) : Prop where
  takerIn : Checked p.takerIn p.orderUtxo.terms.destinationMint
    p.orderUtxo.terms.destinationAmount taker
  sourceOutput : Checked p.sourceOutput p.orderUtxo.sourceMint.asset p.orderUtxo.sourceAmount taker
  destinationOutput : Checked p.destinationOutput p.orderUtxo.terms.destinationMint
    p.orderUtxo.terms.destinationAmount p.orderUtxo.terms.destination
  takeMode : p.orderUtxo.terms.takeMode = takeMode

theorem TakeProofInputParams.checkOutputs_eq_ok {p : TakeProofInputParams} {takeMode : UInt64}
    {refusal : String} {taker : ShieldedAddress} :
    p.checkOutputs takeMode refusal = .ok taker ↔ p.Parties takeMode taker := by
  simp only [TakeProofInputParams.checkOutputs, SdkResult.bind_eq_ok, checkOutputUtxo_eq_ok,
    bailIf_eq_ok, ne_eq, not_not, pure, Except.pure, Except.ok.injEq]
  constructor
  · rintro ⟨_, htaker, _, hsource, _, rfl, _, hdestination, _, rfl, _, hmode, rfl⟩
    exact ⟨htaker, hsource, hdestination, hmode⟩
  · rintro ⟨htaker, hsource, hdestination, hmode⟩
    exact ⟨_, htaker, _, hsource, (), rfl, _, hdestination, (), rfl, (), hmode, rfl⟩

/-- The UTXOs and the `private_tx_hash` that a builder of a take has computed. -/
structure TakeProofInputParams.Built (X : ProofContext) (p : TakeProofInputParams)
    (order : OrderTermsProofInput)
    (orderUtxo takerIn sourceOutput destinationOutput : ProofInputUtxo)
    (privateTxHash : Bytes 32) : Prop where
  opens : p.orderUtxo.OpensAt X p.inputTreeId order orderUtxo
  takerInUtxo : X.client.proofInputUtxo p.takerIn p.inputTreeId = some takerIn
  sourceUtxo : X.client.proofInputUtxo p.sourceOutput p.outputTreeId = some sourceOutput
  destinationUtxo :
    X.client.proofInputUtxo p.destinationOutput p.outputTreeId = some destinationOutput
  commits : ∃ ins outs blinding d,
    [orderUtxo, takerIn].mapM X.env.crypto.utxoHash = some ins ∧
    [sourceOutput, destinationOutput].mapM X.env.crypto.utxoHash = some outs ∧
    Fr.ofBytes p.privateTxBlinding = some blinding ∧
    X.env.crypto.privateTxHash ins outs blinding = some d ∧ privateTxHash = d.toBytes

/-- SPP executes the transact with these UTXOs: the order, spent under the nullifier key with
the secret zero, and the taker's input go in, the two outputs go out. -/
structure SppSettles (C : Crypto) (t : TransactIxData) (op : TxOpening)
    (orderUtxo takerIn sourceOutput destinationOutput : Utxo) (privateTxBlinding : Bytes 32) :
    Prop where
  commits : SppCommits C t op
  inputs : ∃ secret, op.inputs = [some ⟨orderUtxo, 0⟩, some ⟨takerIn, secret⟩]
  outputs : op.outputs = [some sourceOutput, some destinationOutput]
  blinding : Fr.ofBytes privateTxBlinding = some op.privateTxBlinding

namespace TakeProofInputParams.Built

variable {p : TakeProofInputParams} {order : OrderTermsProofInput}
  {orderUtxo takerIn sourceOutput destinationOutput : ProofInputUtxo} {privateTxHash : Bytes 32}
  {takeMode : UInt64} {taker : ShieldedAddress}

/-- The constraints that both take circuits share. -/
theorem core (hW : X.wallet.Documented X.env.crypto)
    (hL : X.client.Documented X.env.crypto X.wallet) (hkeys : X.env.crypto.HashesKeys)
    (h : p.Built X order orderUtxo takerIn sourceOutput destinationOutput privateTxHash)
    (hparties : p.Parties takeMode taker) (hmode : takeMode = 0 ∨ takeMode = 1)
    (hsource : p.orderUtxo.sourceAmount ≠ 0)
    (hdestination : p.orderUtxo.terms.destinationAmount ≠ 0) :
    Take.Core.Satisfied X.env.crypto
      ⟨order.witness, orderUtxo, takerIn, sourceOutput, destinationOutput,
        decimal p.privateTxBlinding⟩ (decimal privateTxHash) := by
  have hterms := OrderTerms.denotes_witness hW h.opens.input
  obtain ⟨hasset, hamount, -⟩ := h.opens.asset_amount_blinding hL
  obtain ⟨htakerPays, htakerAsset, htakerOwner, -, -⟩ := hparties.takerIn.pays hL h.takerInUtxo
  obtain ⟨hsourcePays, hsourceAsset, hsourceOwner, -, -⟩ :=
    hparties.sourceOutput.pays hL h.sourceUtxo
  obtain ⟨hdestPays, hdestAsset, hdestOwner, -, -⟩ :=
    hparties.destinationOutput.pays hL h.destinationUtxo
  obtain ⟨ins, outs, blinding, d, hins, houts, hblinding, hd, hword⟩ := h.commits
  have howner : sourceOutput.owner = takerIn.owner := by
    rw [htakerOwner, Option.some.injEq] at hsourceOwner
    exact (Fr.toBytes_injective hsourceOwner).symm
  have hmaker : destinationOutput.owner = order.witness.makerOwnerHash := by
    have hsame := hdestOwner.symm.trans hterms.makerOwnerHash
    rw [Option.some.injEq] at hsame
    exact Fr.toBytes_injective hsame
  have htakeMode : p.orderUtxo.terms.takeMode = TAKE_MODE_DERIVED ∨
      p.orderUtxo.terms.takeMode = TAKE_MODE_VERIFIABLE := by
    rw [hparties.takeMode]
    exact hmode
  refine
    { wellFormed := hterms.wellFormed_iff.mpr ⟨hdestination, htakeMode⟩
      order := h.opens.carriesTerms hW hL hkeys hsource
      takerIn := ?_
      sourceOutput := ?_
      destinationOutput := ?_
      privateTxHash := ⟨ins, outs, hins, houts, ?_⟩ }
  · have heq : takerIn.asset = order.witness.destinationAsset :=
      Option.some.inj (htakerAsset.symm.trans hterms.destinationAsset)
    exact ⟨htakerPays.dataless, heq, htakerPays.amount.trans hterms.destinationAmount.symm, rfl⟩
  · have heq : sourceOutput.asset = orderUtxo.asset :=
      Option.some.inj (hsourceAsset.symm.trans hasset)
    exact ⟨hsourcePays.dataless, heq, hsourcePays.amount.trans hamount.symm, howner⟩
  · have heq : destinationOutput.asset = order.witness.destinationAsset :=
      Option.some.inj (hdestAsset.symm.trans hterms.destinationAsset)
    exact ⟨hdestPays.dataless, heq, hdestPays.amount.trans hterms.destinationAmount.symm, hmaker⟩
  · rw [decimal_of_ofBytes hblinding, hword, decimal_toBytes]
    exact hd

/-- The `private_tx_hash` of the builder is the one that SPP publishes. -/
theorem spp_privateTxHash
    (h : p.Built X order orderUtxo takerIn sourceOutput destinationOutput privateTxHash)
    {t : TransactIxData} {op : TxOpening}
    (hspp : SppSettles X.env.crypto t op orderUtxo takerIn sourceOutput destinationOutput
      p.privateTxBlinding) : t.privateTxHash = privateTxHash := by
  obtain ⟨ins, outs, blinding, d, hins, houts, hblinding, hd, hword⟩ := h.commits
  obtain ⟨secret, hinputs⟩ := hspp.inputs
  have hb : blinding = op.privateTxBlinding :=
    Option.some.inj (hblinding.symm.trans hspp.blinding)
  have hspent : op.spent = [orderUtxo, takerIn] := by
    rw [TxOpening.spent, hinputs]
    rfl
  have hcreated : op.created = [sourceOutput, destinationOutput] := by
    rw [TxOpening.created, hspp.outputs]
    rfl
  rw [← hspent] at hins
  rw [← hcreated] at houts
  have hop : op.privateTxHash X.env.crypto = some d := by
    rw [TxOpening.privateTxHash_of_utxos hins houts, ← hb]
    exact hd
  obtain ⟨d', hop', hpublished⟩ := hspp.commits.privateTxHash
  have hdd : d = d' := Option.some.inj (hop.symm.trans hop')
  rw [hword, hdd]
  exact (Fr.toBytes_of_ofBytes hpublished).symm

end TakeProofInputParams.Built

/-- The derivations of blindings on words are those on field elements. -/
theorem derive_eq_ok {f : Fr → Fr → Option Fr} {a b word : Bytes 32} :
    (orErr do
      let n ← Fr.ofBytes a
      let s ← Fr.ofBytes b
      (f n s).map Fr.toBytes) = .ok word ↔
      ∃ n s d, Fr.ofBytes a = some n ∧ Fr.ofBytes b = some s ∧ f n s = some d ∧
        word = d.toBytes := by
  simp only [orErr_eq_ok, Option.bind_eq_bind, Option.bind_eq_some_iff, Option.map_eq_some_iff,
    eq_comm (a := word)]
  constructor
  · rintro ⟨n, hn, s, hs, d, hd, hword⟩
    exact ⟨n, s, d, hn, hs, hd, hword⟩
  · rintro ⟨n, s, d, hn, hs, hd, hword⟩
    exact ⟨n, hn, s, hs, d, hd, hword⟩

/-! ## The derived take -/

namespace TakeProofInputParams

theorem checkBlinding_eq_ok {output : SppProofOutputUtxo} {firstNullifier seed : Bytes 32}
    {index : UInt32} {u : Unit} :
    checkBlinding X output firstNullifier seed index = .ok u ↔
      deriveTransactOutputBlinding X.toContext firstNullifier seed index = .ok output.blinding := by
  simp only [checkBlinding, SdkResult.bind_eq_ok, bailIf_eq_ok, ne_eq, not_not]
  constructor
  · rintro ⟨blinding, hblinding, rfl⟩
    exact hblinding
  · intro h
    exact ⟨_, h, rfl⟩

/-- The blindings of the parameters are those that the order and its nullifier determine. -/
structure Blinded (X : ProofContext) (p : TakeProofInputParams) (firstNullifier : Bytes 32) :
    Prop where
  derived : ∃ blindingSeed seed, takeBlindingSeed X.toContext p.orderUtxo.blinding = .ok blindingSeed ∧
    deriveOutputBlindingSeed X.toContext firstNullifier blindingSeed = .ok seed ∧
    derivePrivateTxBlinding X firstNullifier blindingSeed = .ok p.privateTxBlinding ∧
    deriveTransactOutputBlinding X.toContext firstNullifier seed 0 = .ok p.sourceOutput.blinding ∧
    deriveTransactOutputBlinding X.toContext firstNullifier seed 1 =
      .ok p.destinationOutput.blinding

/-- What the builder has checked and computed when it succeeds. -/
theorem of_toProofInputs {p : TakeProofInputParams} {inputs : TakeProofInputs}
    (h : p.toProofInputs X = .ok inputs) :
    ∃ taker orderHash, p.Parties TAKE_MODE_DERIVED taker ∧
      p.Built X inputs.order inputs.orderUtxo inputs.takerIn inputs.sourceOutput
        inputs.destinationOutput inputs.privateTxHash ∧
      X.env.crypto.utxoHash inputs.orderUtxo = some orderHash ∧
      X.client.nullifier 0 orderHash.toBytes p.orderUtxo.blinding = some inputs.firstNullifier ∧
      p.Blinded X inputs.firstNullifier ∧
      TakePublicInput.hash X.env.crypto ⟨inputs.privateTxHash, p.orderUtxo.terms.expiry,
        inputs.firstNullifier⟩ = .ok inputs.publicInputHash ∧
      inputs.privateTxBlinding = p.privateTxBlinding := by
  simp only [toProofInputs, SdkResult.bind_eq_ok, checkOutputs_eq_ok, orErr_eq_ok,
    bailIf_eq_ok, ne_eq, not_not, checkBlinding_eq_ok, ofProgram_eq_ok, pure, Except.pure,
    Except.ok.injEq] at h
  obtain ⟨taker, hparties, order, horder, output, houtput, orderUtxo, horderUtxo, orderWord,
    horderHash, firstNullifier, hnullifier, blindingSeed, hseed, seed, hout, _, hblinding, _, rfl, _,
    hblinding0, _, hblinding1, takerIn, htakerIn, source, hsource, destination, hdestination,
    takerWord, htakerHash, sourceWord, hsourceHash, destinationWord, hdestinationHash,
    privateTxHash, hprivate, publicInputHash, hpublic, rfl⟩ := h
  have hcommits := privateTxHash_of_words (.cons horderHash (.cons htakerHash .nil))
    (.cons hsourceHash (.cons hdestinationHash .nil)) hprivate
  obtain ⟨orderHash, hhash, rfl⟩ := ProofInputUtxo.hash_eq_ok.mp horderHash
  exact ⟨taker, orderHash, hparties,
    { opens := ⟨horder, output, houtput, horderUtxo⟩
      takerInUtxo := htakerIn
      sourceUtxo := hsource
      destinationUtxo := hdestination
      commits := hcommits },
    hhash, hnullifier, ⟨blindingSeed, seed, hseed, hout, hblinding, hblinding0, hblinding1⟩,
    hpublic, rfl⟩

/-- Derived blindings pass `AssertTransactionBlindings` in the circuit. -/
theorem Blinded.assertTransactionBlindings {p : TakeProofInputParams} {firstNullifier : Bytes 32}
    {n orderBlinding blinding0 blinding1 : Fr} (h : p.Blinded X firstNullifier)
    (hn : Fr.ofBytes firstNullifier = some n)
    (horder : Fr.ofBytes p.orderUtxo.blinding = some orderBlinding)
    (h0 : Fr.ofBytes p.sourceOutput.blinding = some blinding0)
    (h1 : Fr.ofBytes p.destinationOutput.blinding = some blinding1) :
    ∃ seed, X.env.crypto.poseidon [Take.blindingSeedDomain, orderBlinding] = some seed ∧
      X.env.crypto.assertTransactionBlindings n seed (decimal p.privateTxBlinding) blinding0
        blinding1 = some () := by
  obtain ⟨seedWord, outWord, hseed, hout, hprivate, hfirst, hsecond⟩ := h.derived
  obtain ⟨fes, seed, hfes, hposeidon, rfl⟩ := Crypto.hashv_eq_some.mp (orErr_eq_ok.mp hseed)
  simp only [List.mapM_cons, List.mapM_nil, ofBytes_takeBlindingDomain, horder,
    Option.bind_eq_bind, Option.bind_some, Option.pure_def, Option.some.injEq] at hfes
  subst hfes
  obtain ⟨n', s, out, hn', hs, hderive, rfl⟩ := derive_eq_ok.mp hout
  obtain ⟨n₂, s₂, ptb, hn₂, hs₂, hptb, hptbWord⟩ := derive_eq_ok.mp hprivate
  obtain ⟨n₃, o₃, b0, hn₃, ho₃, hb0, hb0Word⟩ :=
    derive_eq_ok (f := fun n s => X.env.crypto.deriveTransactOutputBlinding n s 0).mp hfirst
  obtain ⟨n₄, o₄, b1, hn₄, ho₄, hb1, hb1Word⟩ :=
    derive_eq_ok (f := fun n s => X.env.crypto.deriveTransactOutputBlinding n s 1).mp hsecond
  -- every word denotes one field element
  rw [Fr.ofBytes_toBytes, Option.some.injEq] at hs hs₂ ho₃ ho₄
  subst hs hs₂ ho₃ ho₄
  rw [hn, Option.some.injEq] at hn' hn₂ hn₃ hn₄
  subst hn' hn₂ hn₃ hn₄
  rw [hb0Word, Fr.ofBytes_toBytes, Option.some.injEq] at h0
  rw [hb1Word, Fr.ofBytes_toBytes, Option.some.injEq] at h1
  subst h0 h1
  refine ⟨seed, hposeidon, Crypto.assertTransactionBlindings_eq_some.mpr ⟨?_, out, hderive, hb0, hb1⟩⟩
  rw [hptbWord, decimal_toBytes]
  exact hptb

/-- The equalities of the take circuit on asset, amount, data, owner, take mode and blindings,
read on the parameters. -/
structure Consistent (X : ProofContext) (p : TakeProofInputParams) : Prop where
  takerIn_asset : p.takerIn.asset.asset = p.orderUtxo.terms.destinationMint
  takerIn_amount : p.takerIn.amount = p.orderUtxo.terms.destinationAmount
  takerIn_plain : p.takerIn.Plain
  sourceOutput_asset : p.sourceOutput.asset.asset = p.orderUtxo.sourceMint.asset
  sourceOutput_amount : p.sourceOutput.amount = p.orderUtxo.sourceAmount
  sourceOutput_plain : p.sourceOutput.Plain
  sourceOutput_owner : p.sourceOutput.ownerAddress = p.takerIn.ownerAddress
  destinationOutput_asset : p.destinationOutput.asset.asset = p.orderUtxo.terms.destinationMint
  destinationOutput_amount : p.destinationOutput.amount = p.orderUtxo.terms.destinationAmount
  destinationOutput_plain : p.destinationOutput.Plain
  destinationOutput_owner : p.destinationOutput.ownerAddress = some p.orderUtxo.terms.destination
  takeMode : p.orderUtxo.terms.takeMode = TAKE_MODE_DERIVED
  blindings : ∃ spend, p.orderUtxo.toInputUtxo X p.inputTreeId 0 = .ok spend ∧
    p.Blinded X spend.nullifier

end TakeProofInputParams

/-- The proof inputs of a derived take agree with the circuit, with SPP and with the program. -/
structure TakeProofInputs.Agrees (X : ProofContext) (p : TakeProofInputParams)
    (inputs : TakeProofInputs) : Prop where
  circuit : inputs.witness.Satisfied X.env.crypto
  orderInput : ∀ leafIndex, ∃ spend,
    p.orderUtxo.toInputUtxo X p.inputTreeId leafIndex = .ok spend ∧
    (X.env.crypto.utxoHash inputs.orderUtxo).map Fr.toBytes = some spend.utxoHash ∧
    spend.nullifier = inputs.firstNullifier
  takerIn : X.wallet.outputHash p.takerIn p.inputTreeId =
    (X.env.crypto.utxoHash inputs.takerIn).map Fr.toBytes
  sourceOutput : X.wallet.outputHash p.sourceOutput p.outputTreeId =
    (X.env.crypto.utxoHash inputs.sourceOutput).map Fr.toBytes
  destinationOutput : X.wallet.outputHash p.destinationOutput p.outputTreeId =
    (X.env.crypto.utxoHash inputs.destinationOutput).map Fr.toBytes
  hashes : ∀ t op, SppSettles X.env.crypto t op inputs.orderUtxo inputs.takerIn
    inputs.sourceOutput inputs.destinationOutput p.privateTxBlinding →
    t.privateTxHash = inputs.privateTxHash ∧
      (t.expiryUnixTs = p.orderUtxo.terms.expiry → ∃ firstInput,
        t.inputs.head? = some firstInput ∧ TakePublicInput.hash X.env.crypto
          ⟨t.privateTxHash, t.expiryUnixTs, firstInput.nullifierHash⟩ =
            .ok inputs.publicInputHash)

/-- The first nullifier that SPP publishes for a settlement is the order's. -/
theorem SppSettles.head_inputs {C : Crypto} {t : TransactIxData} {op : TxOpening}
    {orderUtxo takerIn sourceOutput destinationOutput : Utxo} {blinding : Bytes 32} {nf : Fr}
    (h : SppSettles C t op orderUtxo takerIn sourceOutput destinationOutput blinding)
    (hnf : Spend.nullifier C ⟨orderUtxo, 0⟩ = some nf) :
    ∃ firstInput, t.inputs.head? = some firstInput ∧ firstInput.nullifierHash = nf.toBytes := by
  obtain ⟨secret, hinputs⟩ := h.inputs
  have hnullifiers := h.commits.nullifiers
  rw [hinputs] at hnullifiers
  rcases hlist : t.inputs with _ | ⟨first, rest⟩
  · rw [hlist] at hnullifiers
    cases hnullifiers
  · rw [hlist] at hnullifiers
    obtain ⟨hfirst, -⟩ := List.forall₂_cons.mp hnullifiers
    obtain ⟨nf', hnf', hword⟩ := hfirst _ rfl
    have heq : nf = nf' := Option.some.inj (hnf.symm.trans hnf')
    exact ⟨first, rfl, by rw [heq]; exact (Fr.toBytes_of_ofBytes hword).symm⟩

/-- The witness of the builder satisfies the take circuit. -/
theorem TakeProofInputParams.circuit_satisfied (hW : X.wallet.Documented X.env.crypto)
    (hL : X.client.Documented X.env.crypto X.wallet) (hkeys : X.env.crypto.HashesKeys)
    {p : TakeProofInputParams} {inputs : TakeProofInputs}
    (hsource : p.orderUtxo.sourceAmount ≠ 0)
    (hdestination : p.orderUtxo.terms.destinationAmount ≠ 0)
    (h : p.toProofInputs X = .ok inputs) : inputs.witness.Satisfied X.env.crypto := by
  obtain ⟨taker, orderHash, hparties, hbuilt, hhash, hnullifier, hblinded, hpublic, hblinding⟩ :=
    TakeProofInputParams.of_toProofInputs h
  obtain ⟨nf, -, hword⟩ := hbuilt.opens.nullifier hL hhash hnullifier
  have hcore := hbuilt.core hW hL hkeys hparties (.inl rfl) hsource hdestination
  have hterms := OrderTerms.denotes_witness hW hbuilt.opens.input
  obtain ⟨-, -, hb⟩ := hbuilt.opens.asset_amount_blinding hL
  obtain ⟨-, -, -, hb0, -⟩ := hparties.sourceOutput.pays hL hbuilt.sourceUtxo
  obtain ⟨-, -, -, hb1, -⟩ := hparties.destinationOutput.pays hL hbuilt.destinationUtxo
  have hfirst : Fr.ofBytes inputs.firstNullifier = some nf := by
    rw [hword, Fr.ofBytes_toBytes]
  refine ⟨?_, ?_, ?_, ?_⟩
  · rw [TakeProofInputs.witness, hterms.takeMode, hparties.takeMode]
    rfl
  · show ∃ seed, X.env.crypto.poseidon [Take.blindingSeedDomain, inputs.orderUtxo.blinding] =
        some seed ∧ X.env.crypto.assertTransactionBlindings (decimal inputs.firstNullifier) seed
        (decimal inputs.privateTxBlinding) inputs.sourceOutput.blinding
        inputs.destinationOutput.blinding = some ()
    rw [decimal_of_ofBytes hfirst, hblinding]
    exact hblinded.assertTransactionBlindings hfirst hb hb0 hb1
  · rw [TakeProofInputs.witness, hblinding]
    exact hcore
  · rw [TakeProofInputs.witness, hterms.expiry]
    exact poseidon_of_publicInputHash hpublic

/-- Proof inputs of the builder agree with circuit, SPP and program. -/
theorem TakeProofInputParams.agrees (hW : X.wallet.Documented X.env.crypto)
    (hL : X.client.Documented X.env.crypto X.wallet) (hkeys : X.env.crypto.HashesKeys)
    {p : TakeProofInputParams} {inputs : TakeProofInputs}
    (hsource : p.orderUtxo.sourceAmount ≠ 0)
    (hdestination : p.orderUtxo.terms.destinationAmount ≠ 0)
    (h : p.toProofInputs X = .ok inputs) : inputs.Agrees X p := by
  obtain ⟨taker, orderHash, hparties, hbuilt, hhash, hnullifier, -, hpublic, -⟩ :=
    TakeProofInputParams.of_toProofInputs h
  obtain ⟨nf, hnf, hword⟩ := hbuilt.opens.nullifier hL hhash hnullifier
  refine
    { circuit := p.circuit_satisfied hW hL hkeys hsource hdestination h
      orderInput := ?_
      takerIn := hparties.takerIn.outputHash hW hL hbuilt.takerInUtxo
      sourceOutput := hparties.sourceOutput.outputHash hW hL hbuilt.sourceUtxo
      destinationOutput := hparties.destinationOutput.outputHash hW hL hbuilt.destinationUtxo
      hashes := ?_ }
  · intro leafIndex
    obtain ⟨spend, hspend, hspendHash, hspendNullifier, -⟩ :=
      hbuilt.opens.toInputUtxo hW hL hhash hnullifier leafIndex
    exact ⟨spend, hspend, by rw [hhash, hspendHash]; rfl, hspendNullifier⟩
  · intro t op hspp
    have hprivate : t.privateTxHash = inputs.privateTxHash := hbuilt.spp_privateTxHash hspp
    refine ⟨hprivate, ?_⟩
    intro hexpiry
    obtain ⟨firstInput, hhead, hfirstWord⟩ := hspp.head_inputs hnf
    refine ⟨firstInput, hhead, ?_⟩
    rw [hprivate, hexpiry, hfirstWord, ← hword]
    exact hpublic

/-- Parameters that the builder accepts are consistent. -/
theorem TakeProofInputParams.consistent (hW : X.wallet.Documented X.env.crypto)
    (hL : X.client.Documented X.env.crypto X.wallet) {p : TakeProofInputParams}
    {inputs : TakeProofInputs} (h : p.toProofInputs X = .ok inputs) : p.Consistent X := by
  obtain ⟨taker, orderHash, hparties, hbuilt, hhash, hnullifier, hblinded, -, -⟩ :=
    TakeProofInputParams.of_toProofInputs h
  obtain ⟨spend, hspend, -, hspendNullifier, -⟩ :=
    hbuilt.opens.toInputUtxo hW hL hhash hnullifier 0
  exact
    { takerIn_asset := hparties.takerIn.asset
      takerIn_amount := hparties.takerIn.amount
      takerIn_plain := hparties.takerIn.plain
      sourceOutput_asset := hparties.sourceOutput.asset
      sourceOutput_amount := hparties.sourceOutput.amount
      sourceOutput_plain := hparties.sourceOutput.plain
      sourceOutput_owner := hparties.sourceOutput.owner.trans hparties.takerIn.owner.symm
      destinationOutput_asset := hparties.destinationOutput.asset
      destinationOutput_amount := hparties.destinationOutput.amount
      destinationOutput_plain := hparties.destinationOutput.plain
      destinationOutput_owner := hparties.destinationOutput.owner
      takeMode := hparties.takeMode
      blindings := ⟨spend, hspend, by rw [hspendNullifier]; exact hblinded⟩ }

/-- **The take builder agrees with circuit and program.** What it returns for an order of
nonzero amounts is a satisfying witness with the hashes that SPP and the program compute, and
parameters that violate an equality of the circuit make it fail. -/
theorem take_builder_agrees (hW : X.wallet.Documented X.env.crypto)
    (hL : X.client.Documented X.env.crypto X.wallet) (hkeys : X.env.crypto.HashesKeys)
    (p : TakeProofInputParams) (hsource : p.orderUtxo.sourceAmount ≠ 0)
    (hdestination : p.orderUtxo.terms.destinationAmount ≠ 0) :
    (∀ inputs, p.toProofInputs X = .ok inputs → inputs.Agrees X p) ∧
      (¬p.Consistent X → ∃ e, p.toProofInputs X = .error e) := by
  constructor
  · intro inputs h
    exact p.agrees hW hL hkeys hsource hdestination h
  · intro hnot
    rcases SdkResult.ok_or_error (p.toProofInputs X) with ⟨inputs, h⟩ | herr
    · exact absurd (p.consistent hW hL h) hnot
    · exact herr

/-! ## The sample's take

The parameters of the take that the sample environment accepts. -/

namespace Sample

open Swap.Sample

noncomputable def proofContext : ProofContext where
  toContext := context
  client := .ofCrypto crypto (.ofCrypto crypto)

theorem proofContext_documented : proofContext.client.Documented crypto proofContext.wallet :=
  Client.ofCrypto_documented fun _ => rfl

def takeParams : TakeProofInputParams where
  orderUtxo := orderUtxo TAKE_MODE_DERIVED 33
  takerIn := .plain ⟨Bytes.replicate 32 21, 3⟩ 9 (Fr.toBytes 34) takerAddress
  sourceOutput := .plain ⟨Bytes.replicate 32 20, 2⟩ 7 (Fr.toBytes 3038) takerAddress
  destinationOutput := .plain ⟨Bytes.replicate 32 21, 3⟩ 9 (Fr.toBytes 3039) makerAddress
  privateTxBlinding := Fr.toBytes 2024
  inputTreeId := 0
  outputTreeId := 0

def takeInputs : TakeProofInputs where
  publicInputHash := Fr.toBytes 1020
  privateTxHash := Fr.toBytes 500
  firstNullifier := Fr.toBytes 1013
  order := ⟨Fr.toBytes 21, 9, Fr.toBytes 1003, Bytes.replicate 33 0, 100, Fr.toBytes 12, 0⟩
  orderUtxo := order
  takerIn := payment
  sourceOutput := source
  destinationOutput := destination
  privateTxBlinding := Fr.toBytes 2024

theorem takeParams_ok : takeParams.toProofInputs proofContext = .ok takeInputs := by decide

end Sample

open Sdk.Sample in
theorem take_builder_agrees_sample :
    takeInputs.Agrees proofContext takeParams ∧
      SppSettles Swap.Sample.crypto Swap.Sample.takeTransact Swap.Sample.takeOpening
        takeInputs.orderUtxo takeInputs.takerIn takeInputs.sourceOutput
        takeInputs.destinationOutput takeParams.privateTxBlinding :=
  ⟨(take_builder_agrees context_documented proofContext_documented crypto_hashesKeys takeParams
      (by decide) (by decide)).1 takeInputs takeParams_ok,
    ⟨by decide, ⟨6, rfl⟩, rfl, by decide⟩⟩

end Zolana.Swap.Sdk
