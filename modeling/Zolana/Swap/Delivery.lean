import Zolana.Spp.Execution
import Zolana.Swap.Lifecycle
import Zolana.Swap.SettleInstruction

set_option autoImplicit false

/-! # Settlements that go through

The way of a settlement from the client to SPP: proof inputs, proof, instruction, handler, CPI. The
soundness results say what an accepted settlement has done; here an honest client's settlement is
accepted. What the builder returns can be proved, the instruction that carries the proof is read as
it was written, and SPP finds an authorized, balanced transact. So for a client that keeps to the
protocol only the clock and the ledger decide.

SPP's own deadline for relaying a transact is not part of this.
-/

namespace Zolana.Swap

/-! ## What SPP is asked for -/

section

variable {C : Crypto} {op : TxOpening} {T : OrderTerms}
  {order payment source destination refund : Utxo} {signers : List Address} {t : TransactIxData}

/-- The two payments of an exchange are worth what they are given for. -/
theorem Exchange.ready (hC : C.Ideal) (h : Exchange C op T order payment source destination)
    (hspp : SppCommits C t op)
    (hsigned : ∀ sp, some sp ∈ op.inputs → ∃ s ∈ signers, sp.AuthorizedBy C s) :
    SppReady C signers t op where
  commits := hspp
  nodup := by
    have hne : order ≠ payment := by
      rintro rfl
      exact h.carriesTerms.not_dataless hC h.payment_pays.dataless
    rw [h.spent]
    simpa using hne
  signed := hsigned
  conserved := by
    intro asset
    have hdestination : Pays destination payment.asset payment.amount T.makerOwnerHash := by
      rw [h.payment_pays.asset, h.payment_pays.amount]
      exact h.destination_pays
    rw [h.spent, h.created]
    exact h.source_pays.balance_pair hdestination asset

end

namespace Sdk

/-! ## The client -/

/-- Everything that a client of the program works with. -/
structure ClientContext extends SettleContext, ProofContext where
  /-- `PROVER`. -/
  prover : Prover (circuits env.crypto)

/-- The libraries do what their documentation says. -/
structure ClientContext.Documented (X : ClientContext) : Prop where
  wallet : X.wallet.Documented X.env.crypto
  client : X.client.Documented X.env.crypto X.wallet
  keys : X.env.crypto.HashesKeys
  prover : X.prover.Complete X.env.groth16
  instructions : X.toSettleContext.Documented

variable {X : ClientContext}

/-- The order authority signs for the order with the nullifier secret zero. -/
theorem OrderUtxo.OpensAt.authorizedBy (hX : X.Documented) {order : OrderUtxo} {treeId : UInt16}
    {input : OrderTermsProofInput} {u : ProofInputUtxo}
    (h : order.OpensAt X.toProofContext treeId input u) :
    Spend.AuthorizedBy X.env.crypto ⟨u, 0⟩ (orderAuthority X.env) := by
  obtain ⟨_, nullifierPubkey, -, hnullifier, hopening⟩ := h.fields hX.client
  obtain ⟨-, howner, -⟩ := SppProofOutputUtxo.opening_eq_some.mp hopening
  exact hX.wallet.authorizedBy hnullifier howner

/-! ## A sample client

It settles the sample's orders, with a prover that writes zeros. -/

namespace Sample

open Swap.Sample

/-- The proof of the verifiable take, likewise of zeros. -/
def verifiableProof : TakeVerifiableEncryptionProof :=
  ⟨plainProof.proofA, plainProof.proofB, plainProof.proofC, Bytes.replicate 32 0, Bytes.replicate 32 0⟩

noncomputable def clientContext : ClientContext :=
  { instructionContext with
    plainTextData := .tabulate [(orderUtxo TAKE_MODE_DERIVED 33).terms.toPlaintext 3,
      (orderUtxo TAKE_MODE_VERIFIABLE 35).terms.toPlaintext 3]
    serializeTakeIxData := fun ix =>
      if ix.proof = plainProof then (Codec.tabulate transacts).serialize ix.transact else none
    serializeTakeVerifiableEncryptionIxData := fun ix =>
      if ix.proof = verifiableProof then (Codec.tabulate transacts).serialize ix.transact else none
    serializeCancelIxData := fun ix =>
      if ix.proof = plainProof ∧ ix.orderExpiry = 100 then
        (Codec.tabulate transacts).serialize ix.transact
      else none
    client := .ofCrypto crypto (.ofCrypto crypto)
    prover := .zeros (circuits crypto) }

/-- What is written for the `i`-th transact is read as it. -/
theorem read_transact {t : TransactIxData} {bytes : List UInt8}
    (h : (Codec.tabulate transacts).serialize t = some bytes) : transacts[bytes.length]? = some t :=
  Codec.tabulate_roundTrips transacts h

theorem clientContext_documented : clientContext.Documented where
  wallet := Wallet.ofCrypto_documented crypto
  client := Client.ofCrypto_documented fun _ => rfl
  keys := crypto_hashesKeys
  prover := Prover.zeros_complete circuit_verifyingkey relation_of_satisfied
  instructions :=
    { make := instructionContext_roundTrips
      take := by
        rintro ⟨proof, t⟩ bytes h
        obtain ⟨hproof, h⟩ := Option.ite_none_right_eq_some.mp h
        have hproof : proof = plainProof := hproof
        show (transacts[bytes.length]?.map fun t => (⟨plainProof, t⟩ : TakeIxData)) = _
        rw [read_transact h, hproof]
        rfl
      takeVerifiableEncryption := by
        rintro ⟨proof, t⟩ bytes h
        obtain ⟨hproof, h⟩ := Option.ite_none_right_eq_some.mp h
        have hproof : proof = verifiableProof := hproof
        show (transacts[bytes.length]?.map fun t =>
          (⟨verifiableProof, t⟩ : TakeVerifiableEncryptionIxData)) = _
        rw [read_transact h, hproof]
        rfl
      cancel := by
        rintro ⟨proof, expiry, t⟩ bytes h
        obtain ⟨⟨hproof, hexpiry⟩, h⟩ := Option.ite_none_right_eq_some.mp h
        have hproof : proof = plainProof := hproof
        have hexpiry : expiry = 100 := hexpiry
        show (transacts[bytes.length]?.map fun t => (⟨plainProof, 100, t⟩ : CancelIxData)) = _
        rw [read_transact h, hproof, hexpiry]
        rfl
      transact := Codec.tabulate_roundTrips transacts
      accounts := by
        intro payer tree transact owners accounts h _
        have hmem : ∀ pda ∈ [authority], pda ∈ accounts.map (·.address) := by
          intro pda hpda
          rw [List.mem_singleton.mp hpda]
          exact h.authority_mem
        exact if_pos hmem }

end Sample

/-! ## Takes -/

/-- The payment of a transact is opened by the payer's keys. -/
structure TakeProofInputParams.PaidBy (X : ClientContext) (p : TakeProofInputParams)
    (orderUtxo takerIn : Utxo) (payer : Address) (op : TxOpening) : Prop where
  opens : ∃ secret nullifierPubkey viewingPubkey,
    op.inputs = [some ⟨orderUtxo, 0⟩, some ⟨takerIn, secret⟩] ∧
    X.wallet.nullifierPubkey secret = some nullifierPubkey ∧
    p.takerIn.ownerAddress = some ⟨.ed25519 payer, nullifierPubkey, viewingPubkey⟩

/-- Both inputs of a take are signed for: the order by the order authority, the payment by the
payer. -/
theorem TakeProofInputParams.PaidBy.signed (hX : X.Documented) {p : TakeProofInputParams}
    {signers : List Address} {takeMode : UInt64} {taker : ShieldedAddress}
    (hparties : p.Parties takeMode taker)
    {input : OrderTermsProofInput} {orderUtxo takerIn : Utxo}
    (hopens : p.orderUtxo.OpensAt X.toProofContext p.inputTreeId input orderUtxo)
    (htakerIn : X.client.proofInputUtxo p.takerIn p.inputTreeId = some takerIn) {payer : Address}
    {op : TxOpening} (h : p.PaidBy X orderUtxo takerIn payer op)
    (hauthority : orderAuthority X.env ∈ signers) (hpayer : payer ∈ signers) :
    ∀ sp, some sp ∈ op.inputs → ∃ s ∈ signers, sp.AuthorizedBy X.env.crypto s := by
  obtain ⟨secret, nullifierPubkey, viewingPubkey, hinputs, hsecret, haddress⟩ := h
  intro sp hsp
  rw [hinputs, List.mem_cons, List.mem_singleton, Option.some.injEq, Option.some.injEq] at hsp
  rcases hsp with rfl | rfl
  · exact ⟨_, hauthority, hopens.authorizedBy hX⟩
  · have htaker : taker = ⟨.ed25519 payer, nullifierPubkey, viewingPubkey⟩ :=
      Option.some.inj (hparties.takerIn.owner.symm.trans haddress)
    obtain ⟨-, -, howner, -, -⟩ := hparties.takerIn.pays hX.client htakerIn
    rw [htaker] at howner
    exact ⟨payer, hpayer, hX.wallet.authorizedBy hsecret howner⟩

/-- What the client sends to SPP with a take: it settles the UTXOs of the proof inputs, expires
with the order and is paid by `payer`. -/
structure TakeProofInputParams.Sends (X : ClientContext) (p : TakeProofInputParams)
    (orderUtxo takerIn sourceOutput destinationOutput : Utxo) (payer : Address)
    (t : TransactIxData) (op : TxOpening) : Prop where
  settles : SppSettles X.env.crypto t op orderUtxo takerIn sourceOutput destinationOutput
    p.privateTxBlinding
  expiry : t.expiryUnixTs = p.orderUtxo.terms.expiry
  paid : p.PaidBy X orderUtxo takerIn payer op

/-- The take goes through until the order expires, and exchanges these UTXOs. -/
abbrev DeliversTake (E : Env) (expiry : UInt64) (accounts : List AccountView) (data : List UInt8)
    (t : TransactIxData) (op : TxOpening) (orderUtxo takerIn sourceOutput destinationOutput : Utxo) :
    Prop :=
  (program E).Delivers (fun now => 0 ≤ now ∧ now ≤ expiry.toNat) SwapError.expired accounts data t op
    [orderUtxo, takerIn] [sourceOutput, destinationOutput]

/-- The common end of both takes: the handler has come to the window, and the proof passes. -/
theorem TakeProofInputParams.delivers (hX : X.Documented) (hC : X.env.crypto.Ideal)
    {p : TakeProofInputParams}
    {takeMode : UInt64} {taker : ShieldedAddress} (hparties : p.Parties takeMode taker)
    {input : OrderTermsProofInput} {orderUtxo takerIn sourceOutput destinationOutput : Utxo}
    {privateTxHash : Bytes 32}
    (hbuilt : p.Built X.toProofContext input orderUtxo takerIn sourceOutput destinationOutput
      privateTxHash)
    (hcore : Take.Core.Satisfied X.env.crypto ⟨input.witness, orderUtxo, takerIn, sourceOutput,
      destinationOutput, decimal p.privateTxBlinding⟩ (decimal privateTxHash))
    {payer tree : Address} {t : TransactIxData} {op : TxOpening}
    (hsends : p.Sends X orderUtxo takerIn sourceOutput destinationOutput payer t op)
    {owners : List AccountMeta} {first : AccountView} {rest : List AccountView}
    (hpassed : PassedFor (X.layout.accounts payer tree t ++ owners) rest)
    (hroom : rest.length ≤ cpiRoom) {bytes data : List UInt8}
    (hbytes : X.env.runtime.transact.serialize t = some bytes)
    (hprocess : ∀ now, processInstruction X.env ID now (first :: rest) data = (do
      checkWithinWindow now t.expiryUnixTs
      forward X.env rest t)) :
    DeliversTake X.env p.orderUtxo.terms.expiry (first :: rest) data t op orderUtxo takerIn
      sourceOutput destinationOutput := by
  obtain ⟨cpi, hforward, hread, hpayer, hauthority⟩ :=
    forward_eq_ok_of_passed hX.instructions hpassed hroom hbytes
  have hword : ∃ d, Fr.ofBytes t.privateTxHash = some d := by
    obtain ⟨d, -, hd⟩ := hsends.settles.commits.privateTxHash
    exact ⟨d, hd⟩
  obtain ⟨d, hd⟩ := hword
  have hprivate : Fr.ofBytes t.privateTxHash = some (decimal privateTxHash) := by
    rw [hbuilt.spp_privateTxHash hsends.settles] at hd ⊢
    rw [hd, decimal_of_ofBytes hd]
  have hexchange := hcore.exchange hC hprivate hsends.settles.commits
  have hsigned := hsends.paid.signed hX hparties hbuilt.opens hbuilt.takerInUtxo hauthority hpayer
  have hgoes : (program X.env).GoesThrough (fun now => 0 ≤ now ∧ now ≤ t.expiryUnixTs.toNat)
      SwapError.expired (first :: rest) data cpi t op :=
    .of_check (fun _ => withinWindow_eq_ok.mpr) (fun _ => withinWindow_eq_error) hprocess hforward
      hread (hexchange.ready hC hsends.settles.commits hsigned)
  rw [DeliversTake, ← hsends.expiry]
  exact hgoes.delivers hexchange.spent hexchange.created

/-- The instruction with the proof, over a transact that settles the UTXOs of the proof inputs, takes
the order in every state in which order and payment are unspent, at every time until the expiry;
later it is refused. -/
def TakeProofInputs.SettlesWith (X : ClientContext) (inputs : TakeProofInputs)
    (p : TakeProofInputParams) (proof : TakeProof) : Prop :=
  ∀ payer tree t op, p.Sends X inputs.orderUtxo inputs.takerIn inputs.sourceOutput
      inputs.destinationOutput payer t op →
    ∀ ins bytes accounts,
      Take.instruction X.toSettleContext ⟨payer, tree, proof, t⟩ = .ok ins →
      X.env.runtime.transact.serialize t = some bytes → ins.Fits 1 accounts →
      ins.programId = ID ∧
        DeliversTake X.env p.orderUtxo.terms.expiry accounts ins.data t op inputs.orderUtxo
          inputs.takerIn inputs.sourceOutput inputs.destinationOutput

/-- What the builder of a derived take returned can be proved, and settles with the proof. -/
def TakeProofInputs.GoesThrough (X : ClientContext) (inputs : TakeProofInputs)
    (p : TakeProofInputParams) : Prop :=
  ∃ proof, proveTake X.prover inputs = .ok proof ∧ inputs.SettlesWith X p proof.into

theorem TakeProofInputParams.exists_proof (hX : X.Documented) {p : TakeProofInputParams}
    (hsource : p.orderUtxo.sourceAmount ≠ 0)
    (hdestination : p.orderUtxo.terms.destinationAmount ≠ 0) {inputs : TakeProofInputs}
    (h : p.toProofInputs X.toProofContext = .ok inputs) :
    ∃ proof, proveTake X.prover inputs = .ok proof ∧
      verifyGroth16 X.env proof.into.compressed inputs.publicInputHash takeVerifyingkey = .ok () := by
  obtain ⟨_, _, -, -, -, -, -, hpublic, -⟩ := TakeProofInputParams.of_toProofInputs h
  obtain ⟨_, _, d, -, -, -, hword⟩ := publicInputHash_eq_ok.mp hpublic
  have hsat : inputs.witness.Satisfied X.env.crypto :=
    p.circuit_satisfied hX.wallet hX.client hX.keys hsource hdestination h
  exact exists_proveTake hX.prover hsat (by rw [hword]; exact Fr.ofBytes_toBytes d)

theorem TakeProofInputParams.settlesWith (hX : X.Documented) (hC : X.env.crypto.Ideal)
    {p : TakeProofInputParams} (hsource : p.orderUtxo.sourceAmount ≠ 0)
    (hdestination : p.orderUtxo.terms.destinationAmount ≠ 0) {inputs : TakeProofInputs}
    (h : p.toProofInputs X.toProofContext = .ok inputs) {proof : TakeProof}
    (hverify : verifyGroth16 X.env proof.compressed inputs.publicInputHash takeVerifyingkey =
      .ok ()) : inputs.SettlesWith X p proof := by
  obtain ⟨taker, orderHash, hparties, hbuilt, hhash, hnullifier, -, hpublic, hblinding⟩ :=
    TakeProofInputParams.of_toProofInputs h
  obtain ⟨nf, hnf, hnfWord⟩ := hbuilt.opens.nullifier hX.client hhash hnullifier
  intro payer tree t op hsends ins bytes accounts hins hbytes ⟨hpassed, hroom⟩
  obtain ⟨firstInput, hfirst, hfirstWord⟩ := hsends.settles.head_inputs hnf
  have hpublic' : TakePublicInput.hash X.env.crypto ⟨t.privateTxHash, t.expiryUnixTs,
      firstInput.nullifierHash⟩ = .ok inputs.publicInputHash := by
    rw [hbuilt.spp_privateTxHash hsends.settles, hsends.expiry, hfirstWord, ← hnfWord]
    exact hpublic
  have hread := fun now =>
    Take.processInstruction_eq hX.instructions hins hpassed now hfirst hpublic'
  simp only [Take.instruction, SdkResult.bind_eq_ok, orErr_eq_ok, pure, Except.pure,
    Except.ok.injEq] at hins
  obtain ⟨_, -, rfl⟩ := hins
  obtain ⟨view, rest, rfl, -, -, -, hrest⟩ := PassedFor.payer hpassed
  refine ⟨rfl, ?_⟩
  have hcore :=
    (p.circuit_satisfied hX.wallet hX.client hX.keys hsource hdestination h).core
  rw [TakeProofInputs.witness, hblinding] at hcore
  refine p.delivers hX hC hparties hbuilt hcore hsends hrest
    (by rw [List.length_cons] at hroom; omega) hbytes ?_
  intro now
  rw [hread now, hverify]
  rfl

/-- **An honest derived take goes through.** The proof inputs of the builder can be proved, and the
instruction with this proof, over a transact that settles their UTXOs, takes the order in every
state in which order and payment are unspent, at every time until the expiry; later it is
refused. -/
theorem take_goes_through (hX : X.Documented) (hC : X.env.crypto.Ideal) (p : TakeProofInputParams)
    (hsource : p.orderUtxo.sourceAmount ≠ 0)
    (hdestination : p.orderUtxo.terms.destinationAmount ≠ 0) {inputs : TakeProofInputs}
    (h : p.toProofInputs X.toProofContext = .ok inputs) : inputs.GoesThrough X p := by
  obtain ⟨proof, hprove, hverify⟩ := p.exists_proof hX hsource hdestination h
  exact ⟨proof, hprove, p.settlesWith hX hC hsource hdestination h hverify⟩

open Sdk.Sample in
theorem take_goes_through_sample :
    ∃ proof ins accounts, proveTake clientContext.prover takeInputs = .ok proof ∧
      Take.instruction clientContext.toSettleContext ⟨Swap.Sample.taker, Bytes.replicate 32 6,
        proof.into, Swap.Sample.takeTransact⟩ = .ok ins ∧ ins.Fits 1 accounts ∧
      DeliversTake Swap.Sample.env 100 accounts ins.data Swap.Sample.takeTransact
        Swap.Sample.takeOpening Swap.Sample.order Swap.Sample.payment Swap.Sample.source
        Swap.Sample.destination := by
  have hinputs : takeParams.toProofInputs clientContext.toProofContext = .ok takeInputs := by decide
  obtain ⟨proof, hprove, hdelivers⟩ := take_goes_through clientContext_documented
    Swap.Sample.crypto_ideal takeParams (by decide) (by decide) hinputs
  have hzeros : proof = ⟨Bytes.replicate 32 0, Bytes.replicate 64 0, Bytes.replicate 32 0, none⟩ :=
    (Except.ok.inj hprove).symm
  subst hzeros
  obtain ⟨ins, hins, hroom⟩ : ∃ ins, Take.instruction clientContext.toSettleContext
      ⟨Swap.Sample.taker, Bytes.replicate 32 6, Swap.Sample.plainProof, Swap.Sample.takeTransact⟩ =
        .ok ins ∧ ins.accounts.length ≤ 1 + cpiRoom := by decide
  have hsends : takeParams.Sends clientContext Swap.Sample.order Swap.Sample.payment
      Swap.Sample.source Swap.Sample.destination Swap.Sample.taker Swap.Sample.takeTransact
      Swap.Sample.takeOpening :=
    ⟨⟨by decide, ⟨6, rfl⟩, rfl, by decide⟩, rfl,
      ⟨6, Fr.toBytes 1002, viewingKey, rfl, by decide, rfl⟩⟩
  obtain ⟨-, hdelivers⟩ := hdelivers Swap.Sample.taker (Bytes.replicate 32 6) _ _ hsends ins
    (Swap.Sample.data 0) _ hins (by decide) (ins.fits_self hroom)
  exact ⟨_, ins, _, hprove, hins, ins.fits_self hroom, hdelivers⟩

/-- The instruction with the proof takes the order likewise, if the last output carries the
ciphertext of the payout. -/
def TakeVerifiableEncryptionProofInputs.SettlesWith (X : ClientContext)
    (inputs : TakeVerifiableEncryptionProofInputs) (p : TakeVerifiableEncryptionProofInputParams)
    (takeProof : TakeVerifiableEncryptionProof) : Prop :=
  ∀ payer tree t op ciphertext, p.Sends X inputs.orderUtxo inputs.takerIn inputs.sourceOutput
      inputs.destinationOutput payer t op →
    p.orderUtxo.destinationCiphertext X.toProofContext p.destinationOutput = .ok ciphertext →
    t.outputs.getLast?.bind (·.data) = some ciphertext →
    ∀ ins bytes accounts,
      TakeVerifiableEncryption.instruction X.toSettleContext ⟨payer, tree, takeProof, t⟩ =
        .ok ins →
      X.env.runtime.transact.serialize t = some bytes → ins.Fits 1 accounts →
      ins.programId = ID ∧
        DeliversTake X.env p.orderUtxo.terms.expiry accounts ins.data t op inputs.orderUtxo
          inputs.takerIn inputs.sourceOutput inputs.destinationOutput

/-- What the builder of a take with verifiable encryption returned can be proved, the proof has the
commitment that the instruction asks for, and it settles with the proof. -/
def TakeVerifiableEncryptionProofInputs.GoesThrough (X : ClientContext)
    (inputs : TakeVerifiableEncryptionProofInputs)
    (p : TakeVerifiableEncryptionProofInputParams) : Prop :=
  ∃ proof takeProof, proveTakeVerifiableEncryption X.prover inputs = .ok proof ∧
    proof.tryInto = .ok takeProof ∧ inputs.SettlesWith X p takeProof

namespace TakeVerifiableEncryptionProofInputParams

theorem exists_proof (hX : X.Documented) (hC : X.env.crypto.Ideal)
    (hct : X.env.crypto.HashesCiphertexts) {p : TakeVerifiableEncryptionProofInputParams}
    (hsource : p.orderUtxo.sourceAmount ≠ 0)
    (hdestination : p.orderUtxo.terms.destinationAmount ≠ 0)
    {inputs : TakeVerifiableEncryptionProofInputs}
    (h : TakeVerifiableEncryptionProofInputParams.toProofInputs X.toProofContext p = .ok inputs)
    (hpaid : PaidByTaker X.toProofContext p) :
    ∃ proof takeProof, proveTakeVerifiableEncryption X.prover inputs = .ok proof ∧
      proof.tryInto = .ok takeProof ∧
      verifyGroth16 X.env takeProof.compressed inputs.publicInputHash
        takeVerifiableEncryptionVerifyingkey = .ok () := by
  obtain ⟨_, _, _, -, -, -, hpublic, -, -⟩ := of_toProofInputs h
  have hsat : inputs.witness.Satisfied X.env.crypto :=
    circuit_satisfied hC hX.wallet hX.client hX.keys hct hsource hdestination h hpaid
  obtain ⟨_, _, -, hhash⟩ := TakeVerifiableEncryptionPublicInput.hash_eq_ok.mp hpublic
  obtain ⟨_, _, d, -, -, -, hword⟩ := publicInputHash_eq_ok.mp hhash
  exact exists_proveTakeVerifiableEncryption hX.prover hsat
    (by rw [hword]; exact Fr.ofBytes_toBytes d)

theorem settlesWith (hX : X.Documented) (hC : X.env.crypto.Ideal)
    (hct : X.env.crypto.HashesCiphertexts) {p : TakeVerifiableEncryptionProofInputParams}
    (hsource : p.orderUtxo.sourceAmount ≠ 0)
    (hdestination : p.orderUtxo.terms.destinationAmount ≠ 0)
    {inputs : TakeVerifiableEncryptionProofInputs}
    (h : TakeVerifiableEncryptionProofInputParams.toProofInputs X.toProofContext p = .ok inputs)
    (hpaid : PaidByTaker X.toProofContext p) {takeProof : TakeVerifiableEncryptionProof}
    (hverify : verifyGroth16 X.env takeProof.compressed inputs.publicInputHash
      takeVerifiableEncryptionVerifyingkey = .ok ()) : inputs.SettlesWith X p takeProof := by
  obtain ⟨taker, _, _, hparties, hbuilt, -, -, -, hblinding⟩ := of_toProofInputs h
  have hagrees := TakeVerifiableEncryptionProofInputParams.agrees hX.wallet hX.client h
  intro payer tree t op ciphertext hsends hciphertext hlast ins bytes accounts hins hbytes
    ⟨hpassed, hroom⟩
  obtain ⟨-, hprogram⟩ := hagrees.hashes t op hsends.settles
  have hread := fun now => TakeVerifiableEncryption.processInstruction_eq hX.instructions hins
    hpassed now hlast (hprogram ciphertext hciphertext hlast hsends.expiry)
  simp only [TakeVerifiableEncryption.instruction, SdkResult.bind_eq_ok, orErr_eq_ok, pure,
    Except.pure, Except.ok.injEq] at hins
  obtain ⟨_, -, rfl⟩ := hins
  obtain ⟨view, rest, rfl, -, -, -, hrest⟩ := PassedFor.payer hpassed
  refine ⟨rfl, ?_⟩
  have hcore :=
    (circuit_satisfied hC hX.wallet hX.client hX.keys hct hsource hdestination h hpaid).core
  rw [TakeVerifiableEncryptionProofInputs.witness, hblinding] at hcore
  refine p.delivers hX hC hparties hbuilt hcore hsends hrest
    (by rw [List.length_cons] at hroom; omega) hbytes ?_
  intro now
  rw [hread now, hverify]
  rfl

end TakeVerifiableEncryptionProofInputParams

/-- **An honest take with verifiable encryption goes through**, likewise, once the key that owns the
payment is identified as the taker of the terms and the last output carries the ciphertext of the
payout. Its proof has the commitment that the instruction asks for. -/
theorem takeVerifiableEncryption_goes_through (hX : X.Documented) (hC : X.env.crypto.Ideal)
    (hct : X.env.crypto.HashesCiphertexts) (p : TakeVerifiableEncryptionProofInputParams)
    (hsource : p.orderUtxo.sourceAmount ≠ 0)
    (hdestination : p.orderUtxo.terms.destinationAmount ≠ 0)
    {inputs : TakeVerifiableEncryptionProofInputs}
    (h : TakeVerifiableEncryptionProofInputParams.toProofInputs X.toProofContext p = .ok inputs)
    (hpaid : TakeVerifiableEncryptionProofInputParams.PaidByTaker X.toProofContext p) :
    inputs.GoesThrough X p := by
  obtain ⟨proof, takeProof, hprove, hinto, hverify⟩ :=
    TakeVerifiableEncryptionProofInputParams.exists_proof hX hC hct hsource hdestination h hpaid
  exact ⟨proof, takeProof, hprove, hinto, TakeVerifiableEncryptionProofInputParams.settlesWith hX hC
    hct hsource hdestination h hpaid hverify⟩

open Sdk.Sample in
theorem takeVerifiableEncryption_goes_through_sample :
    ∃ proof takeProof ins accounts,
      proveTakeVerifiableEncryption clientContext.prover takerInputs = .ok proof ∧
      proof.tryInto = .ok takeProof ∧
      TakeVerifiableEncryption.instruction clientContext.toSettleContext ⟨Swap.Sample.taker,
        Bytes.replicate 32 6, takeProof, Swap.Sample.takeVerifiableEncryptionTransact⟩ = .ok ins ∧
      ins.Fits 1 accounts ∧
      DeliversTake Swap.Sample.env 100 accounts ins.data
        Swap.Sample.takeVerifiableEncryptionTransact Swap.Sample.takeVerifiableEncryptionOpening
        Swap.Sample.verifiableOrder Swap.Sample.payment Swap.Sample.verifiableSource
        Swap.Sample.verifiableDestination := by
  have hinputs : TakeVerifiableEncryptionProofInputParams.toProofInputs
      clientContext.toProofContext (verifiableParams takerAddress 34 36 51) = .ok takerInputs := by
    decide
  obtain ⟨proof, takeProof, hprove, hinto, hdelivers⟩ := takeVerifiableEncryption_goes_through
    clientContext_documented Swap.Sample.crypto_ideal Swap.Sample.crypto_hashesCiphertexts
    (verifiableParams takerAddress 34 36 51) (by decide) (by decide) hinputs
    ⟨takerAddress, rfl, 12, by decide, by decide⟩
  have hzeros : proof = ⟨Bytes.replicate 32 0, Bytes.replicate 64 0, Bytes.replicate 32 0,
      some (Bytes.replicate 32 0, Bytes.replicate 32 0)⟩ := (Except.ok.inj hprove).symm
  subst hzeros
  obtain rfl : verifiableProof = takeProof := Except.ok.inj hinto
  obtain ⟨ins, hins, hroom⟩ : ∃ ins, TakeVerifiableEncryption.instruction clientContext.toSettleContext
      ⟨Swap.Sample.taker, Bytes.replicate 32 6, verifiableProof,
        Swap.Sample.takeVerifiableEncryptionTransact⟩ = .ok ins ∧
        ins.accounts.length ≤ 1 + cpiRoom := by decide
  have hsends : (verifiableParams takerAddress 34 36 51).Sends clientContext
      Swap.Sample.verifiableOrder Swap.Sample.payment Swap.Sample.verifiableSource
      Swap.Sample.verifiableDestination Swap.Sample.taker
      Swap.Sample.takeVerifiableEncryptionTransact Swap.Sample.takeVerifiableEncryptionOpening :=
    ⟨⟨by decide, ⟨6, rfl⟩, rfl, by decide⟩, rfl,
      ⟨6, Fr.toBytes 1002, viewingKey, rfl, by decide, rfl⟩⟩
  obtain ⟨-, hdelivers⟩ := hdelivers Swap.Sample.taker (Bytes.replicate 32 6) _ _
    Swap.Sample.ciphertext.1 hsends (by decide) (by decide) ins (Swap.Sample.data 1) _ hins
    (by decide) (ins.fits_self hroom)
  exact ⟨_, _, ins, _, hprove, hinto, hins, ins.fits_self hroom, hdelivers⟩

end Sdk

end Zolana.Swap
