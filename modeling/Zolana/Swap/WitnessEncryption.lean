import Zolana.Swap.Witness

set_option autoImplicit false

/-! # The builder of the verifiable take

The builder of the take with verifiable encryption checks owners, assets, amounts and the mode
by hand, and encrypts the payout by its own code path. All of it agrees with the circuit, with
SPP and with the program but for one constraint: the circuit wants the payment to belong to the
taker of the terms, and the builder never looks at the key that owns it.
-/

namespace Zolana.Swap.Sdk

variable {X : ProofContext}

/-! ## The ciphertext -/

/-- The SDK encrypts to the ciphertext of the circuit. -/
theorem ciphertext_eq_some (hW : X.wallet.Documented X.env.crypto)
    {w : TakeVerifiableEncryption.Circuit} {orderBlinding blinding : Blinding} {mint : Address}
    {amount : UInt64} {ciphertext : Bytes 72} {ctHash : Bytes 32}
    (horder : Fr.ofBytes orderBlinding = some w.core.orderUtxo.blinding)
    (hasset : X.env.crypto.hashBytes mint.1 = some w.core.order.destinationAsset)
    (hamount : w.core.order.destinationAmount = Fr.ofU64 amount)
    (hblinding : Fr.ofBytes blinding = some w.core.destinationOutput.blinding)
    (h : destinationCiphertextWithHash X.toContext orderBlinding mint amount blinding =
      .ok (ciphertext, ctHash)) :
    w.ciphertext X.env.crypto = some ciphertext := by
  simp only [destinationCiphertextWithHash, SdkResult.bind_eq_ok, hashBytes_eq_ok, pure,
    Except.pure, Except.ok.injEq, Prod.mk.injEq] at h
  obtain ⟨_, ⟨asset, hasset', rfl⟩, secretWord, hsecret, ct, hct, _, -, rfl, -⟩ := h
  have hassets : asset = w.core.order.destinationAsset :=
    Option.some.inj (hasset'.symm.trans hasset)
  subst hassets
  obtain ⟨fes, secret, hfes, hposeidon, rfl⟩ := Crypto.hashv_eq_some.mp (orErr_eq_ok.mp hsecret)
  have hdomain : Fr.ofBytes (u64RightAlign TAKE_ENC_KDF_DOMAIN) = some takeEncKdfDomain :=
    ofBytes_u64RightAlign TAKE_ENC_KDF_DOMAIN
  simp only [rightAlignBlinding, List.mapM_cons, List.mapM_nil, horder, hdomain,
    Option.bind_eq_bind, Option.bind_some, Option.pure_def, Option.some.injEq] at hfes
  subst hfes
  obtain ⟨secret', hsecret', happly⟩ := symmetricApply_eq_ok.mp hct
  rw [Fr.ofBytes_toBytes, Option.some.injEq] at hsecret'
  subst hsecret'
  rw [hW.mergeInfo] at happly
  simp only [TakeVerifiableEncryption.Circuit.ciphertext,
    TakeVerifiableEncryption.Circuit.plaintext, Option.bind_eq_bind, Option.bind_eq_some_iff,
    Option.pure_def, Option.some.injEq, Gnark.fieldToBytesBE_word, Gnark.fieldToBytesBE_u64]
  refine ⟨secret, hposeidon, _, ⟨_, ⟨amount, hamount, rfl⟩, _, rfl, _, rfl, rfl⟩, ?_⟩
  rw [Fr.toBytes_of_ofBytes hblinding]
  exact happly

/-! ## The builder -/

/-- The proof inputs of a take with verifiable encryption agree with SPP and with the
program. -/
structure TakeVerifiableEncryptionProofInputs.Agrees (X : ProofContext)
    (p : TakeVerifiableEncryptionProofInputParams)
    (inputs : TakeVerifiableEncryptionProofInputs) : Prop where
  order : ∃ output, p.orderUtxo.outputUtxo X.toContext
      p.orderUtxo.terms.destination.viewingPubkey = .ok output ∧
    X.wallet.outputHash output p.inputTreeId =
      (X.env.crypto.utxoHash inputs.orderUtxo).map Fr.toBytes
  takerIn : X.wallet.outputHash p.takerIn p.inputTreeId =
    (X.env.crypto.utxoHash inputs.takerIn).map Fr.toBytes
  sourceOutput : X.wallet.outputHash p.sourceOutput p.outputTreeId =
    (X.env.crypto.utxoHash inputs.sourceOutput).map Fr.toBytes
  destinationOutput : X.wallet.outputHash p.destinationOutput p.outputTreeId =
    (X.env.crypto.utxoHash inputs.destinationOutput).map Fr.toBytes
  hashes : ∀ t op, SppSettles X.env.crypto t op inputs.orderUtxo inputs.takerIn
    inputs.sourceOutput inputs.destinationOutput p.privateTxBlinding →
    t.privateTxHash = inputs.privateTxHash ∧
      ∀ ciphertext, p.orderUtxo.destinationCiphertext X p.destinationOutput = .ok ciphertext →
        t.outputs.getLast?.bind (·.data) = some ciphertext →
        t.expiryUnixTs = p.orderUtxo.terms.expiry →
        TakeVerifiableEncryptionPublicInput.hash X.env.crypto
          ⟨t.privateTxHash, t.expiryUnixTs, ciphertext⟩ = .ok inputs.publicInputHash

namespace TakeVerifiableEncryptionProofInputParams

/-- What the builder has checked and computed when it succeeds. -/
theorem of_toProofInputs {p : TakeVerifiableEncryptionProofInputParams}
    {inputs : TakeVerifiableEncryptionProofInputs}
    (h : TakeVerifiableEncryptionProofInputParams.toProofInputs X p = .ok inputs) :
    ∃ taker ciphertext ctHash, p.Parties TAKE_MODE_VERIFIABLE taker ∧
      p.Built X inputs.order inputs.orderUtxo inputs.takerIn inputs.sourceOutput
        inputs.destinationOutput inputs.privateTxHash ∧
      destinationCiphertextWithHash X.toContext p.orderUtxo.blinding
        p.orderUtxo.terms.destinationMint p.orderUtxo.terms.destinationAmount
        p.destinationOutput.blinding = .ok (ciphertext, ctHash) ∧
      TakeVerifiableEncryptionPublicInput.hash X.env.crypto ⟨inputs.privateTxHash,
        p.orderUtxo.terms.expiry, ciphertext.1⟩ = .ok inputs.publicInputHash ∧
      inputs.takerNullifierPk = taker.nullifierPubkey ∧
      inputs.privateTxBlinding = p.privateTxBlinding := by
  simp only [toProofInputs, SdkResult.bind_eq_ok, TakeProofInputParams.checkOutputs_eq_ok,
    orErr_eq_ok, ofProgram_eq_ok, pure, Except.pure, Except.ok.injEq] at h
  obtain ⟨taker, hparties, order, horder, output, houtput, orderUtxo, horderUtxo, takerIn,
    htakerIn, source, hsource, destination, hdestination, orderWord, horderHash, takerWord,
    htakerHash, sourceWord, hsourceHash, destinationWord, hdestinationHash, privateTxHash,
    hprivate, ⟨ciphertext, ctHash⟩, hciphertext, publicInputHash, hpublic, rfl⟩ := h
  have hcommits := privateTxHash_of_words (.cons horderHash (.cons htakerHash .nil))
    (.cons hsourceHash (.cons hdestinationHash .nil)) hprivate
  exact ⟨taker, ciphertext, ctHash, hparties,
    { opens := ⟨horder, output, houtput, horderUtxo⟩
      takerInUtxo := htakerIn
      sourceUtxo := hsource
      destinationUtxo := hdestination
      commits := hcommits },
    hciphertext, hpublic, rfl, rfl⟩

/-- The key that owns the taker's input is identified as the taker that the terms name. -/
def PaidByTaker (X : ProofContext) (p : TakeVerifiableEncryptionProofInputParams) : Prop :=
  ∃ owner, p.takerIn.ownerAddress = some owner ∧
    X.wallet.IdentifiedBy X.env.crypto owner.signingPubkey p.orderUtxo.terms.taker

/-- The circuit's constraint on the owner of the payment. -/
theorem takerIn_owner_iff (hC : X.env.crypto.Ideal) (hW : X.wallet.Documented X.env.crypto)
    {terms : OrderTerms} {T : Swap.OrderTerms}
    (hterms : terms.Denotes X.toContext T) {taker : ShieldedAddress} {owner : Fr}
    (howner : X.wallet.ownerHash taker = some owner.toBytes) :
    X.env.crypto.poseidon [T.takerPkFe, decimal taker.nullifierPubkey] = some owner ↔
      X.wallet.IdentifiedBy X.env.crypto taker.signingPubkey terms.taker := by
  obtain ⟨pk, n, owner', hpk, hn, hposeidon, hword⟩ := hW.ownerHash_eq_some howner
  have heq : owner = owner' := Fr.toBytes_injective hword
  subst heq
  rw [decimal_of_ofBytes hn]
  constructor
  · intro h
    have hlist := hC.poseidon h hposeidon
    simp only [List.cons.injEq, and_true] at hlist
    exact ⟨pk, by rw [hterms.takerPkFe, hlist], hpk⟩
  · rintro ⟨pk', hidentity, hkey⟩
    have hsame : pk = pk' := Fr.toBytes_injective (Option.some.inj (hpk.symm.trans hkey))
    subst hsame
    rw [hterms.takerPkFe, Option.some.injEq] at hidentity
    rw [hidentity]
    exact hposeidon

/-- What the builder returns has the hashes that SPP and the program compute. -/
theorem agrees (hW : X.wallet.Documented X.env.crypto)
    (hL : X.client.Documented X.env.crypto X.wallet)
    {p : TakeVerifiableEncryptionProofInputParams} {inputs : TakeVerifiableEncryptionProofInputs}
    (h : TakeVerifiableEncryptionProofInputParams.toProofInputs X p = .ok inputs) :
    inputs.Agrees X p := by
  obtain ⟨taker, ciphertext, ctHash, hparties, hbuilt, hciphertext, hpublic, -, -⟩ :=
    of_toProofInputs h
  refine
    { order := hbuilt.opens.outputHash hW hL _
      takerIn := hparties.takerIn.outputHash hW hL hbuilt.takerInUtxo
      sourceOutput := hparties.sourceOutput.outputHash hW hL hbuilt.sourceUtxo
      destinationOutput := hparties.destinationOutput.outputHash hW hL hbuilt.destinationUtxo
      hashes := ?_ }
  intro t op hspp
  have hprivate : t.privateTxHash = inputs.privateTxHash := hbuilt.spp_privateTxHash hspp
  refine ⟨hprivate, ?_⟩
  intro ct hct' _ hexpiry
  simp only [OrderUtxo.destinationCiphertext, hciphertext, SdkResult.bind_eq_ok, pure,
    Except.pure, Except.ok.injEq, exists_eq_left'] at hct'
  rw [hprivate, hexpiry, ← hct']
  exact hpublic

/-- The witness of the builder satisfies the circuit once the payment belongs to the taker of
the terms. -/
theorem circuit_satisfied (hC : X.env.crypto.Ideal) (hW : X.wallet.Documented X.env.crypto)
    (hL : X.client.Documented X.env.crypto X.wallet) (hkeys : X.env.crypto.HashesKeys)
    (hct : X.env.crypto.HashesCiphertexts) {p : TakeVerifiableEncryptionProofInputParams}
    (hsource : p.orderUtxo.sourceAmount ≠ 0)
    (hdestination : p.orderUtxo.terms.destinationAmount ≠ 0)
    {inputs : TakeVerifiableEncryptionProofInputs}
    (h : TakeVerifiableEncryptionProofInputParams.toProofInputs X p = .ok inputs)
    (hpaid : PaidByTaker X p) : inputs.witness.Satisfied X.env.crypto := by
  obtain ⟨taker, ciphertext, ctHash, hparties, hbuilt, hciphertext, hpublic, hnullifier,
    hblinding⟩ := of_toProofInputs h
  have hcore := hbuilt.core hW hL hkeys hparties (.inr rfl) hsource hdestination
  have hterms := OrderTerms.denotes_witness hW hbuilt.opens.input
  obtain ⟨-, -, hb⟩ := hbuilt.opens.asset_amount_blinding hL
  obtain ⟨-, -, howner, -, -⟩ := hparties.takerIn.pays hL hbuilt.takerInUtxo
  obtain ⟨-, -, -, hb1, -⟩ := hparties.destinationOutput.pays hL hbuilt.destinationUtxo
  obtain ⟨owner, howner', hkey⟩ := hpaid
  have hsame : owner = taker := Option.some.inj (howner'.symm.trans hparties.takerIn.owner)
  subst hsame
  obtain ⟨_, ctFe, hctFe, hhash⟩ := TakeVerifiableEncryptionPublicInput.hash_eq_ok.mp hpublic
  have hencrypt : inputs.witness.ciphertext X.env.crypto = some ciphertext :=
    ciphertext_eq_some hW hb hterms.destinationAsset hterms.destinationAmount hb1 hciphertext
  have hpublicInput : X.env.crypto.poseidon [decimal inputs.privateTxHash,
      Fr.ofU64 p.orderUtxo.terms.expiry, decimal ctFe.toBytes] =
        some (decimal inputs.publicInputHash) := poseidon_of_publicInputHash hhash
  refine ⟨?_, ?_, ?_, ctFe, ?_, ?_⟩
  · show inputs.order.witness.takeMode = takeModeVerifiable
    rw [hterms.takeMode, hparties.takeMode]
    rfl
  · show X.env.crypto.poseidon [inputs.order.witness.takerPkFe,
      decimal inputs.takerNullifierPk] = some inputs.takerIn.owner
    rw [hnullifier]
    exact (takerIn_owner_iff hC hW hterms howner).mpr hkey
  · rw [TakeVerifiableEncryptionProofInputs.witness, hblinding]
    exact hcore
  · -- the circuit's `HashBytes` of the ciphertext is the program's `ciphertext_hash`
    simp only [TakeVerifiableEncryption.Circuit.checkVerifiableEncryption, hencrypt,
      Option.bind_eq_bind, Option.bind_some]
    rw [hct.gnarkHashBytes]
    exact hctFe
  · rw [decimal_toBytes, ← hterms.expiry] at hpublicInput
    exact hpublicInput

/-- **The verifiable builder, up to the owner of the payment.** What it returns for an order of
nonzero amounts has the hashes that SPP and the program compute, and its witness satisfies the
circuit exactly if the key that owns the payment is identified as the taker that the terms
name. -/
theorem provable_iff (hC : X.env.crypto.Ideal) (hW : X.wallet.Documented X.env.crypto)
    (hL : X.client.Documented X.env.crypto X.wallet) (hkeys : X.env.crypto.HashesKeys)
    (hct : X.env.crypto.HashesCiphertexts) (p : TakeVerifiableEncryptionProofInputParams)
    (hsource : p.orderUtxo.sourceAmount ≠ 0)
    (hdestination : p.orderUtxo.terms.destinationAmount ≠ 0)
    {inputs : TakeVerifiableEncryptionProofInputs}
    (h : TakeVerifiableEncryptionProofInputParams.toProofInputs X p = .ok inputs) :
    inputs.Agrees X p ∧ (inputs.witness.Satisfied X.env.crypto ↔ PaidByTaker X p) := by
  refine ⟨agrees hW hL h, ?_⟩
  constructor
  · intro hsat
    obtain ⟨taker, _, _, hparties, hbuilt, -, -, hnullifier, -⟩ := of_toProofInputs h
    have hterms := OrderTerms.denotes_witness hW hbuilt.opens.input
    obtain ⟨-, -, howner, -, -⟩ := hparties.takerIn.pays hL hbuilt.takerInUtxo
    have hpoint : X.env.crypto.poseidon [inputs.order.witness.takerPkFe,
        decimal inputs.takerNullifierPk] = some inputs.takerIn.owner := hsat.takerIn_owner
    rw [hnullifier] at hpoint
    exact ⟨taker, hparties.takerIn.owner, (takerIn_owner_iff hC hW hterms howner).mp hpoint⟩
  · intro hpaid
    exact circuit_satisfied hC hW hL hkeys hct hsource hdestination h hpaid

end TakeVerifiableEncryptionProofInputParams

/-! ## Two sample payments

The verifiable order of the sample, paid by its taker and paid by the maker. -/

namespace Sample

open Swap.Sample

/-- The tables of the sample with the hashes of the maker's payment: two chains and a public
input. -/
def verifiableCrypto : Crypto :=
  { crypto with
    poseidon := Oracle.tabulate (Fr.offset 1000)
      (poseidonTable ++ [[106, 105], [109, 108], [500, 100, 23]])
    privateTxCommit i o b := Oracle.tabulate (Fr.offset 500)
      [((1030, 1031, 56) : Fr × Fr × Fr), (1021, 1022, 51)] (i, o, b) }

theorem verifiableCrypto_ideal : verifiableCrypto.Ideal :=
  .of_tables rfl rfl (fun _ _ _ => rfl) rfl (by decide) (by decide) (by decide) (by decide)
    (by decide)

theorem verifiableCrypto_hashesCiphertexts : verifiableCrypto.HashesCiphertexts :=
  ⟨crypto_hashesCiphertexts.gnarkHashBytes, crypto_hashesCiphertexts.collisionFree⟩

noncomputable def verifiableContext : ProofContext where
  env := { env with crypto := verifiableCrypto }
  wallet := .ofCrypto verifiableCrypto
  plainTextData := .tabulate [(orderUtxo TAKE_MODE_VERIFIABLE 35).terms.toPlaintext 3]
  client := .ofCrypto verifiableCrypto (.ofCrypto verifiableCrypto)

/-- The builder's parameters when `payer` pays, with the blindings of the payment, the source
output and the transaction. -/
def verifiableParams (payer : ShieldedAddress) (payment source privateTx : Fr) :
    TakeVerifiableEncryptionProofInputParams where
  orderUtxo := orderUtxo TAKE_MODE_VERIFIABLE 35
  takerIn := .plain ⟨Bytes.replicate 32 21, 3⟩ 9 payment.toBytes payer
  sourceOutput := .plain ⟨Bytes.replicate 32 20, 2⟩ 7 source.toBytes payer
  destinationOutput := .plain ⟨Bytes.replicate 32 21, 3⟩ 9 (Fr.toBytes 37) makerAddress
  privateTxBlinding := privateTx.toBytes
  inputTreeId := 0
  outputTreeId := 0

def verifiableOrderInput : OrderTermsProofInput :=
  ⟨Fr.toBytes 21, 9, Fr.toBytes 1003, Bytes.replicate 33 0, 100, Fr.toBytes 12, 1⟩

/-- What the builder returns for the taker's payment and for the maker's. -/
def takerInputs : TakeVerifiableEncryptionProofInputs :=
  ⟨Fr.toBytes 1023, Fr.toBytes 501, verifiableOrderInput, Fr.toBytes 1002, verifiableOrder, payment,
    verifiableSource, verifiableDestination, Fr.toBytes 51⟩

def makerInputs : TakeVerifiableEncryptionProofInputs :=
  ⟨Fr.toBytes 1032, Fr.toBytes 500, verifiableOrderInput, Fr.toBytes 1001, verifiableOrder,
    destination, refund, verifiableDestination, Fr.toBytes 56⟩

theorem takerInputs_ok :
    TakeVerifiableEncryptionProofInputParams.toProofInputs verifiableContext
      (verifiableParams takerAddress 34 36 51) = .ok takerInputs := by decide

theorem makerInputs_ok :
    TakeVerifiableEncryptionProofInputParams.toProofInputs verifiableContext
      (verifiableParams makerAddress 3039 38 56) = .ok makerInputs := by decide

end Sample

open Sdk.Sample in
theorem TakeVerifiableEncryptionProofInputParams.provable_iff_sample :
    takerInputs.Agrees verifiableContext (verifiableParams takerAddress 34 36 51) ∧
      takerInputs.witness.Satisfied verifiableCrypto := by
  have h := TakeVerifiableEncryptionProofInputParams.provable_iff (X := verifiableContext)
    verifiableCrypto_ideal (Wallet.ofCrypto_documented verifiableCrypto)
    (Client.ofCrypto_documented fun _ => rfl) crypto_hashesKeys verifiableCrypto_hashesCiphertexts
    (verifiableParams takerAddress 34 36 51) (by decide) (by decide) takerInputs_ok
  exact ⟨h.1, h.2.mpr ⟨takerAddress, rfl, 12, by decide, by decide⟩⟩

open Sdk.Sample in
/-- The builder accepts a payment that belongs to someone else than the taker, and no proof
exists for what it returns. -/
theorem TakeVerifiableEncryptionProofInputParams.not_provable :
    ¬∀ X : ProofContext, X.env.crypto.Ideal → X.wallet.Documented X.env.crypto →
      X.client.Documented X.env.crypto X.wallet → X.env.crypto.HashesKeys →
      X.env.crypto.HashesCiphertexts →
      ∀ p : TakeVerifiableEncryptionProofInputParams, p.orderUtxo.sourceAmount ≠ 0 →
      p.orderUtxo.terms.destinationAmount ≠ 0 →
      ∀ inputs, TakeVerifiableEncryptionProofInputParams.toProofInputs X p = .ok inputs →
        inputs.witness.Satisfied X.env.crypto := by
  intro h
  have hsat : makerInputs.witness.Satisfied verifiableCrypto :=
    h verifiableContext verifiableCrypto_ideal (Wallet.ofCrypto_documented verifiableCrypto)
      (Client.ofCrypto_documented fun _ => rfl) crypto_hashesKeys verifiableCrypto_hashesCiphertexts
      (verifiableParams makerAddress 3039 38 56) (by decide) (by decide) makerInputs makerInputs_ok
  have hnot : verifiableCrypto.poseidon [12, 1001] ≠ some 1003 := by decide
  exact hnot hsat.takerIn_owner

end Zolana.Swap.Sdk
