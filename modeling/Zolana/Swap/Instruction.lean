import Zolana.Swap.Discovery

set_option autoImplicit false

/-! # The make instruction

`make/instruction.rs`. The SPP proof of a make is over a transact with the marker in its message.
The SDK sends the transact without those bytes, and the program writes them again from the second
output and the key that signs. SPP reads the transact of its proof exactly if the bytes were the
ones that the program writes.
-/

namespace Zolana.Swap.Sdk

/-! ## Instructions -/

/-- `AccountMeta`. -/
structure AccountMeta where
  pubkey : Address
  isSigner : Bool
  isWritable : Bool
  deriving DecidableEq

/-- `AccountMeta::new`. -/
def AccountMeta.new (pubkey : Address) (isSigner : Bool) : AccountMeta := ⟨pubkey, isSigner, true⟩

/-- `AccountMeta::new_readonly`. -/
def AccountMeta.newReadonly (pubkey : Address) (isSigner : Bool) : AccountMeta :=
  ⟨pubkey, isSigner, false⟩

/-- `Instruction`. -/
structure Instruction where
  programId : Address
  accounts : List AccountMeta
  data : List UInt8
  deriving DecidableEq

/-- The accounts that the runtime passes on for an instruction: in its order, with the privileges
it asks for. A key keeps what it was granted elsewhere in the transaction. -/
def Instruction.Passes (ins : Instruction) (accounts : List AccountView) : Prop :=
  List.Forall₂ (fun m a => a.address = m.pubkey ∧ (m.isSigner = true → a.isSigner = true) ∧
    (m.isWritable = true → a.isWritable = true)) ins.accounts accounts

/-- The accounts with exactly these privileges are such. -/
theorem Instruction.passes_self (ins : Instruction) :
    ins.Passes (ins.accounts.map fun m => ⟨m.pubkey, m.isSigner, m.isWritable⟩) := by
  rw [Passes, List.forall₂_map_right_iff, List.forall₂_same]
  intro m _
  exact ⟨rfl, id, id⟩

/-- The surroundings of the SDK's instructions. -/
structure InstructionContext extends IndexContext where
  /-- `wincode::serialize` at `MakeIxData`. -/
  serializeMakeIxData : MakeIxData → Option (List UInt8)
  /-- `nullifier_pda_accounts(tree, nullifier_hashes)`. -/
  nullifierPdaAccounts : Address → List (Bytes 32) → List AccountMeta
  /-- `SHIELDED_POOL_PROGRAM_ID`. -/
  shieldedPoolProgramId : Address

/-- The program reads back what the SDK writes. -/
def InstructionContext.RoundTrips (I : InstructionContext) : Prop :=
  ∀ ⦃ix bytes⦄, I.serializeMakeIxData ix = some bytes → I.env.makeIxData bytes = some ix

/-! ## Make -/

/-- `Make`. -/
structure Make where
  payer : Address
  tree : Address
  makeProof : MakeProof
  sppProof : TransactIxData
  deriving DecidableEq

/-- `if let Some(marker) = messages.first_mut() { marker.data = Vec::new() }`. -/
def blankMarker (messages : List MessageData) : List MessageData :=
  match messages with
  | [] => []
  | marker :: rest => { marker with data := [] } :: rest

/-- The transact that `Make::instruction` sends. -/
def Make.transact (make : Make) : TransactIxData :=
  { make.sppProof with messages := blankMarker make.sppProof.messages }

/-- `Make::instruction`. -/
def Make.instruction (I : InstructionContext) (make : Make) : SdkResult Instruction := do
  let nullifierPdas := I.nullifierPdaAccounts make.tree
    (make.transact.inputs.map (·.nullifierHash))
  let serializedIx ← orErr (I.serializeMakeIxData ⟨make.makeProof, make.transact⟩)
  let accounts := [.new make.payer true, .new make.payer true, .new make.tree false,
    .newReadonly I.shieldedPoolProgramId false, .newReadonly (Bytes.replicate 32 0) false,
    .new make.tree false]
  return ⟨ID, accounts ++ nullifierPdas ++ [.newReadonly (orderAuthority I.env) false],
    Tag.make :: serializedIx⟩

/-- The one message of the transact holds the marker of its second output and of the payer. -/
def Make.Honest (make : Make) : Prop :=
  ∃ m o, make.sppProof.messages = [m] ∧ make.sppProof.outputs[orderOutputIndex]? = some o ∧
    m.data = (MarkerData.mk o.utxoHash make.payer).toVec

/-- The bytes of a marker do not depend on the taker. -/
theorem OrderMarker.message_data {I : IndexContext} {marker : OrderMarker} {message : MessageData}
    (h : marker.message I = .ok message) :
    message.data = (MarkerData.mk marker.orderUtxoHash marker.makerPubkey).toVec := by
  simp only [OrderMarker.message, SdkResult.bind_eq_ok, pure, Except.pure, Except.ok.injEq] at h
  obtain ⟨tag, -, rfl⟩ := h
  rfl

/-! ## What the program does with it -/

namespace Make

variable {I : InstructionContext} {make : Make}

/-- What the program forwards: one message, a second output, and the marker of that output. -/
theorem writeMarker_eq_ok {transact : TransactIxData} :
    writeMarker make.payer make.transact = .ok transact ↔
      ∃ o m, make.sppProof.outputs[orderOutputIndex]? = some o ∧ make.sppProof.messages = [m] ∧
        transact = { make.sppProof with
          messages := [{ m with data := (MarkerData.mk o.utxoHash make.payer).toVec }] } := by
  rw [Swap.writeMarker_eq_ok]
  constructor
  · rintro ⟨o, m, ho, hm, hempty, rfl⟩
    -- the message was the only one before it was blanked
    cases hmessages : make.sppProof.messages with
    | nil =>
        rw [transact, hmessages] at hm
        cases hm
    | cons marker rest =>
        rw [transact, hmessages] at hm
        obtain ⟨rfl, rfl⟩ := List.cons.inj hm
        exact ⟨o, marker, ho, rfl, rfl⟩
  · rintro ⟨o, m, ho, hm, rfl⟩
    exact ⟨o, { m with data := [] }, ho, by rw [transact, hm]; rfl, rfl, rfl⟩

/-- Without a second output there is nothing to announce. -/
theorem writeMarker_few_outputs (h : make.sppProof.outputs.length < 2) :
    writeMarker make.payer make.transact = .error SwapError.invalidInstructionData := by
  have hnone : make.transact.outputs[orderOutputIndex]? = none :=
    List.getElem?_eq_none (Nat.le_of_lt_succ h)
  simp only [writeMarker, hnone, okOr, bind, Except.bind]

/-- Blanking changes the first message, and the program refuses any other number of them. -/
theorem writeMarker_messages (houtputs : 2 ≤ make.sppProof.outputs.length)
    (h : make.sppProof.messages.length ≠ 1) :
    writeMarker make.payer make.transact = .error SwapError.invalidMarkerMessage := by
  obtain ⟨o, ho⟩ : ∃ o, make.transact.outputs[orderOutputIndex]? = some o :=
    ⟨_, List.getElem?_eq_getElem houtputs⟩
  simp only [writeMarker, ho, okOr, bind, Except.bind]
  rcases hmessages : make.sppProof.messages with _ | ⟨marker, _ | ⟨second, rest⟩⟩
  · simp only [transact, hmessages, blankMarker]
  · rw [hmessages] at h
    exact absurd rfl h
  · simp only [transact, hmessages, blankMarker]

/-- The program reads the blanked transact, and forwards what it makes of it to SPP with all
accounts but the first. -/
theorem processInstruction_eq (hwincode : I.RoundTrips) {ins : Instruction}
    (hins : make.instruction I = .ok ins) {accounts : List AccountView}
    (hpassed : ins.Passes accounts) (now : Int64)
    (hverify : verifyGroth16 I.env make.makeProof.compressed make.sppProof.privateTxHash
      makeVerifyingkey = .ok ()) :
    processInstruction I.env ins.programId now accounts ins.data =
      writeMarker make.payer make.transact >>= forward I.env accounts.tail := by
  simp only [instruction, SdkResult.bind_eq_ok, orErr_eq_ok, pure, Except.pure,
    Except.ok.injEq] at hins
  obtain ⟨bytes, hbytes, rfl⟩ := hins
  have hread : I.env.makeIxData bytes = some ⟨make.makeProof, make.transact⟩ := hwincode hbytes
  obtain ⟨payer, iter, ⟨haddress, hsigner, hwritable⟩, -, rfl⟩ :=
    List.forall₂_cons_left_iff.mp hpassed
  have haddress : payer.address = make.payer := haddress
  have hpayer : AccountIterator.nextSignerMut (payer :: iter) = .ok (payer, iter) :=
    AccountIterator.nextSignerMut_eq_ok.mpr ⟨rfl, hsigner rfl, hwritable rfl⟩
  have hproof : verifyGroth16 I.env make.makeProof.compressed make.transact.privateTxHash
      makeVerifyingkey = .ok () := hverify
  show processInstruction I.env ID now (payer :: iter) (Tag.make :: bytes) = _
  simp only [processInstruction, processMakeIx, hpayer, hread, hproof, haddress, okOr, bind,
    Except.bind, ne_eq, not_true_eq_false, if_false, if_true, List.tail_cons]

/-- What comes of the instruction: `result` is what the program returns, with the accounts `iter`
left for SPP. -/
structure Restores (I : InstructionContext) (make : Make) (iter : List AccountView)
    (result : ProgramResult Cpi) : Prop where
  lossless : ∀ cpi t, result = .ok cpi → cpi.Transact I.env.runtime t →
    (t = make.sppProof ↔ make.Honest)
  unchanged : ∀ cpi t, result = .ok cpi → cpi.Transact I.env.runtime t →
    ∃ m data, make.sppProof.messages = [m] ∧
      t = { make.sppProof with messages := [{ m with data := data }] }
  honest : make.Honest → result = forward I.env iter make.sppProof
  few_outputs : make.sppProof.outputs.length < 2 →
    result = .error SwapError.invalidInstructionData
  messages : 2 ≤ make.sppProof.outputs.length → make.sppProof.messages.length ≠ 1 →
    result = .error SwapError.invalidMarkerMessage

/-- The marker that the program writes is the one of the SDK, for any taker. -/
theorem honest_iff {o : TransactOutput} {takerAddress : ShieldedAddress} {message : MessageData}
    (ho : make.sppProof.outputs[orderOutputIndex]? = some o)
    (h : OrderMarker.message I.toIndexContext ⟨o.utxoHash, make.payer, takerAddress⟩ =
      .ok message) :
    make.Honest ↔ ∃ m, make.sppProof.messages = [m] ∧ m.data = message.data := by
  rw [OrderMarker.message_data h]
  constructor
  · rintro ⟨m, o', hm, ho', hdata⟩
    have hsame : o' = o := Option.some.inj (ho'.symm.trans ho)
    subst hsame
    exact ⟨m, hm, hdata⟩
  · rintro ⟨m, hm, hdata⟩
    exact ⟨m, o, hm, ho, hdata⟩

/-- Writing the marker over itself changes nothing. -/
theorem writeMarker_of_honest (h : make.Honest) :
    writeMarker make.payer make.transact = .ok make.sppProof := by
  obtain ⟨m, o, hm, ho, hdata⟩ := h
  refine writeMarker_eq_ok.mpr ⟨o, m, ho, hm, ?_⟩
  rw [← hdata, ← hm]

/-- What the program forwards is the transact of the proof exactly if the marker was there. -/
theorem writeMarker_lossless_iff {t : TransactIxData}
    (h : writeMarker make.payer make.transact = .ok t) : t = make.sppProof ↔ make.Honest := by
  obtain ⟨o, m, ho, hm, ht⟩ := writeMarker_eq_ok.mp h
  constructor
  · intro hsame
    have hmessages : [{ m with data := (MarkerData.mk o.utxoHash make.payer).toVec }] = [m] := by
      rw [← hm, ← hsame, ht]
    have hmessage := congrArg MessageData.data (List.singleton_inj.mp hmessages)
    exact ⟨m, o, hm, ho, hmessage.symm⟩
  · intro hhonest
    rw [writeMarker_of_honest hhonest] at h
    exact (Except.ok.inj h).symm

theorem restores (hspp : I.env.runtime.transact.RoundTrips) (iter : List AccountView) :
    make.Restores I iter (writeMarker make.payer make.transact >>= forward I.env iter) := by
  have hread : ∀ cpi t, (writeMarker make.payer make.transact >>= forward I.env iter) = .ok cpi →
      cpi.Transact I.env.runtime t → writeMarker make.payer make.transact = .ok t := by
    intro cpi t h ht
    obtain ⟨transact, hmarker, hforward⟩ := bind_eq_ok.mp h
    obtain ⟨bytes, hbytes, -, -, rfl⟩ := forward_eq_ok.mp hforward
    have hsame : transact = t := Option.some.inj ((hspp hbytes).symm.trans ht)
    rw [← hsame]
    exact hmarker
  refine
    { lossless := ?_
      unchanged := ?_
      honest := ?_
      few_outputs := ?_
      messages := ?_ }
  · intro cpi t h ht
    exact writeMarker_lossless_iff (hread cpi t h ht)
  · intro cpi t h ht
    obtain ⟨o, m, -, hm, rfl⟩ := writeMarker_eq_ok.mp (hread cpi t h ht)
    exact ⟨m, _, hm, rfl⟩
  · intro hhonest
    rw [writeMarker_of_honest hhonest]
    rfl
  · intro h
    rw [writeMarker_few_outputs h]
    rfl
  · intro houtputs h
    rw [writeMarker_messages houtputs h]
    rfl

end Make

/-- **Blanking the marker is lossless exactly for honest makes.** When the program receives the
SDK's instruction and its proof check passes, SPP reads the transact that it proved over exactly if
the one message held the SDK's marker of the second output and of the payer. All but the bytes of
the message is unchanged in any case, and without one message and two outputs there is no CPI. -/
theorem make_lossless_iff {I : InstructionContext} (hwincode : I.RoundTrips)
    (hspp : I.env.runtime.transact.RoundTrips) (make : Make) {ins : Instruction}
    (hins : make.instruction I = .ok ins) {accounts : List AccountView}
    (hpassed : ins.Passes accounts) (now : Int64)
    (hverify : verifyGroth16 I.env make.makeProof.compressed make.sppProof.privateTxHash
      makeVerifyingkey = .ok ()) :
    make.Restores I accounts.tail
        (processInstruction I.env ins.programId now accounts ins.data) ∧
      ∀ o takerAddress message, make.sppProof.outputs[orderOutputIndex]? = some o →
        OrderMarker.message I.toIndexContext ⟨o.utxoHash, make.payer, takerAddress⟩ = .ok message →
        (make.Honest ↔ ∃ m, make.sppProof.messages = [m] ∧ m.data = message.data) := by
  refine ⟨?_, fun o takerAddress message ho h => Make.honest_iff ho h⟩
  rw [Make.processInstruction_eq hwincode hins hpassed now hverify]
  exact Make.restores hspp accounts.tail

namespace Sample

open Swap.Sample

noncomputable def instructionContext : InstructionContext where
  toIndexContext := indexContext
  serializeMakeIxData ix :=
    if ix.proof = plainProof then (Codec.tabulate transacts).serialize ix.transact else none
  nullifierPdaAccounts _ nullifierHashes := nullifierHashes.map (AccountMeta.new · false)
  shieldedPoolProgramId := Bytes.replicate 32 8

theorem instructionContext_roundTrips : instructionContext.RoundTrips := by
  rintro ⟨proof, transact⟩ bytes h
  by_cases hproof : proof = plainProof
  · subst hproof
    have hserialize : (Codec.tabulate transacts).serialize transact = some bytes := by
      simpa [instructionContext] using h
    have hread : transacts[bytes.length]? = some transact :=
      Codec.tabulate_roundTrips transacts hserialize
    show (transacts[bytes.length]?.map fun t => (⟨plainProof, t⟩ : MakeIxData)) = _
    rw [hread]
    rfl
  · simp [instructionContext, hproof] at h

/-- The make of the sample order. -/
def honestMake : Make := ⟨maker, Bytes.replicate 32 6, plainProof, makeTransact makeMarker⟩

end Sample

open Sdk.Sample in
theorem make_lossless_iff_sample :
    ∃ ins, honestMake.instruction instructionContext = .ok ins ∧ honestMake.Honest ∧
      ∃ accounts, ins.Passes accounts ∧ honestMake.Restores instructionContext accounts.tail
        (processInstruction Swap.Sample.env ins.programId 50 accounts ins.data) := by
  obtain ⟨ins, hins, -⟩ : ∃ ins, honestMake.instruction instructionContext = .ok ins ∧
      ins.programId = ID := by decide
  have hhonest : honestMake.Honest :=
    ⟨⟨Bytes.replicate 32 2, Swap.Sample.makeMarker⟩, ⟨Fr.toBytes 102, [], none⟩, rfl, by decide,
      by decide⟩
  refine ⟨ins, hins, hhonest, _, ins.passes_self, ?_⟩
  exact (make_lossless_iff instructionContext_roundTrips Swap.Sample.env_secure.roundTrips
    honestMake hins ins.passes_self 50
    (Swap.Sample.verify rfl (by decide : Fr.ofBytes _ = some 503)
      ⟨⟨503, Swap.Sample.terms 0, Swap.Sample.order, Swap.Sample.change, 100, 53⟩, rfl,
        by decide⟩)).1

end Zolana.Swap.Sdk
