import Zolana.Spp.ProofInputMap
import Zolana.TimelockEscrow.Prover

set_option autoImplicit false

/-! # Witnesses of the escrow by name

The two circuits of the escrow program and the maps of their witnesses, as for the swap.
-/

namespace Zolana.TimelockEscrow

/-! ## The circuits -/

/-- `escrowterms.EscrowTerms`. -/
def EscrowTerms.layout : Layout (List Fr) EscrowTerms :=
  EscrowTerms.mk <$> frontendVariable "OwnerHash" <*> frontendVariable "Unlock"

/-- `withdraw.PublicInputs`. -/
def Withdraw.PublicInputs.layout : Layout (List Fr) Withdraw.PublicInputs :=
  Withdraw.PublicInputs.mk <$> frontendVariable "PublicInputHash" <*>
    frontendVariable "PrivateTxHash"

section

variable (F : UtxoFormat)

/-- `escrow.Circuit`. -/
def Escrow.Circuit.layout : Layout (List Fr) Escrow.Circuit :=
  Escrow.Circuit.mk <$> frontendVariable "PrivateTxHash" <*> EscrowTerms.layout.under "Terms" <*>
    F.layout.under "EscrowUtxo" <*> F.layout.under "Change" <*>
    frontendVariable "SourceInputHash" <*> frontendVariable "PrivateTxBlinding"

/-- `withdraw.Circuit`. -/
def Withdraw.Circuit.layout : Layout (List Fr) Withdraw.Circuit :=
  Withdraw.Circuit.mk <$> Withdraw.PublicInputs.layout.under "Public" <*>
    EscrowTerms.layout.under "Terms" <*> F.layout.under "EscrowUtxo" <*>
    F.layout.under "SourceOutput" <*> frontendVariable "OwnerPkField" <*>
    frontendVariable "NullifierPk" <*> frontendVariable "PrivateTxBlinding"

/-- The circuits that are registered with gnark. -/
def circuitLayout (C : Crypto) : (id : CircuitId) → Layout (List Fr) ((circuits C).Witness id)
  | .escrow => Escrow.Circuit.layout F
  | .withdraw => Withdraw.Circuit.layout F

end

namespace Sdk

/-! ## The maps -/

/-- `EscrowTermsProofInput::witness_entries`. -/
def EscrowTermsProofInput.witnessEntries (input : EscrowTermsProofInput) (name : String) :
    List (String × List String) :=
  let scalars := [("OwnerHash", input.ownerHash), ("Unlock", u64RightAlign input.unlock)]
  scalars.map fun (suffix, value) => (name ++ "_" ++ suffix, [decimalString value])

section

variable (F : UtxoFormat)

/-- The insertions of `EscrowProofInputs::witness`. -/
def EscrowProofInputs.insertions (inputs : EscrowProofInputs) : List (String × List String) :=
  scalarEntries
    [("PrivateTxHash", inputs.privateTxHash),
      ("SourceInputHash", inputs.sourceInputHash),
      ("PrivateTxBlinding", inputs.privateTxBlinding)] ++
    (inputs.terms.witnessEntries "Terms" ++ F.utxoProofInputs inputs.escrowUtxo "EscrowUtxo" ++
      F.utxoProofInputs inputs.change "Change")

/-- `EscrowProofInputs::witness`, the map. -/
def EscrowProofInputs.witnessMap (inputs : EscrowProofInputs) : ProofInputMap :=
  proofInputMap (inputs.insertions F)

/-- The insertions of `WithdrawProofInputs::witness`. -/
def WithdrawProofInputs.insertions (inputs : WithdrawProofInputs) : List (String × List String) :=
  scalarEntries
    [("Public_PublicInputHash", inputs.publicInputHash),
      ("Public_PrivateTxHash", inputs.privateTxHash),
      ("OwnerPkField", inputs.ownerPkField),
      ("NullifierPk", inputs.nullifierPk),
      ("PrivateTxBlinding", inputs.privateTxBlinding)] ++
    (inputs.terms.witnessEntries "Terms" ++ F.utxoProofInputs inputs.escrowUtxo "EscrowUtxo" ++
      F.utxoProofInputs inputs.sourceOutput "SourceOutput")

/-- `WithdrawProofInputs::witness`, the map. -/
def WithdrawProofInputs.witnessMap (inputs : WithdrawProofInputs) : ProofInputMap :=
  proofInputMap (inputs.insertions F)

end

/-! ## Filling the circuits -/

/-- The suffixes of `witness_entries`. -/
def escrowTermsKeys : List String := ["OwnerHash", "Unlock"]

theorem EscrowTermsProofInput.keys_witnessEntries (input : EscrowTermsProofInput) (name : String) :
    (input.witnessEntries name).map Prod.fst = escrowTermsKeys.map (name ++ "_" ++ ·) := rfl

theorem nodup_escrowTermsKeys : escrowTermsKeys.Nodup := by decide

theorem mem_names_of_mem_escrowTermsKeys :
    ∀ key ∈ escrowTermsKeys, key ∈ EscrowTerms.layout.names := by
  decide

theorem EscrowTermsProofInput.decimals_witnessEntries (input : EscrowTermsProofInput)
    (name : String) : ∀ e ∈ input.witnessEntries name, ∃ vars, Decimals e.2 vars := by
  intro e he
  obtain ⟨s, -, rfl⟩ := List.mem_map.mp he
  exact ⟨_, decimals_decimalString s.2⟩

theorem EscrowTermsProofInput.read_witnessEntries {input : EscrowTermsProofInput} {name : String}
    {find : String → Option (List Fr)}
    (h : Layout.Finds Decimals find (input.witnessEntries name)) :
    EscrowTerms.layout.read (fun field => find (name ++ "_" ++ field)) = some input.witness := by
  simp only [witnessEntries, List.map_cons, List.map_nil, Layout.finds_cons, Layout.finds_nil,
    finds_decimalString, and_true] at h
  obtain ⟨howner, hunlock⟩ := h
  simp only [EscrowTerms.layout, Layout.read_seq, Layout.read_map,
    read_frontendVariable_under howner, read_frontendVariable_under hunlock]
  rfl

section

variable {F : UtxoFormat}

theorem EscrowProofInputs.writes_insertions (hF : F.Documented) (inputs : EscrowProofInputs) :
    ((inputs.insertions F).map Prod.fst).Nodup ∧
      (Escrow.Circuit.layout F).Transmits Decimals (inputs.witnessMap F) inputs.witness := by
  refine writes_of_blocks [.single "PrivateTxHash", .single "SourceInputHash",
    .single "PrivateTxBlinding", .under "Terms" escrowTermsKeys, .under "EscrowUtxo" F.keys,
    .under "Change" F.keys] ?_ ?_ ?_ ?_ ?_ ?_
  · simp [insertions, scalarEntries, EscrowTermsProofInput.keys_witnessEntries, hF.keys]
  · show List.Pairwise Apart ["PrivateTxHash", "SourceInputHash", "PrivateTxBlinding", "Terms_",
      "EscrowUtxo_", "Change_"]
    decide
  · simp [Block.single, Block.under, nodup_escrowTermsKeys, hF.nodup]
  · simp +contextual [Escrow.Circuit.layout, mem_names_of_mem_escrowTermsKeys, hF.fields]
  · simp only [insertions, List.forall_mem_append]
    exact ⟨decimals_scalarEntries, ⟨inputs.terms.decimals_witnessEntries _, hF.decimals _ _⟩,
      hF.decimals _ _⟩
  · intro find h
    simp only [insertions, scalarEntries, List.map_cons, List.map_nil, Layout.finds_append,
      Layout.finds_cons, Layout.finds_nil, finds_decimalString, and_true] at h
    obtain ⟨⟨hhash, hsource, hblinding⟩, ⟨hterms, hescrow⟩, hchange⟩ := h
    simp only [Escrow.Circuit.layout, Layout.read_seq, Layout.read_map, Layout.read_under,
      read_frontendVariable hhash, EscrowTermsProofInput.read_witnessEntries hterms,
      hF.read hescrow, hF.read hchange, read_frontendVariable hsource,
      read_frontendVariable hblinding]
    rfl

theorem WithdrawProofInputs.writes_insertions (hF : F.Documented)
    (inputs : WithdrawProofInputs) :
    ((inputs.insertions F).map Prod.fst).Nodup ∧
      (Withdraw.Circuit.layout F).Transmits Decimals (inputs.witnessMap F) inputs.witness := by
  refine writes_of_blocks [.single "Public_PublicInputHash", .single "Public_PrivateTxHash",
    .single "OwnerPkField", .single "NullifierPk", .single "PrivateTxBlinding",
    .under "Terms" escrowTermsKeys, .under "EscrowUtxo" F.keys, .under "SourceOutput" F.keys]
    ?_ ?_ ?_ ?_ ?_ ?_
  · simp [insertions, scalarEntries, EscrowTermsProofInput.keys_witnessEntries, hF.keys]
  · show List.Pairwise Apart ["Public_PublicInputHash", "Public_PrivateTxHash", "OwnerPkField",
      "NullifierPk", "PrivateTxBlinding", "Terms_", "EscrowUtxo_", "SourceOutput_"]
    decide
  · simp [Block.single, Block.under, nodup_escrowTermsKeys, hF.nodup]
  · simp +contextual [Withdraw.Circuit.layout, Withdraw.PublicInputs.layout,
      mem_names_of_mem_escrowTermsKeys, hF.fields]
  · simp only [insertions, List.forall_mem_append]
    exact ⟨decimals_scalarEntries, ⟨inputs.terms.decimals_witnessEntries _, hF.decimals _ _⟩,
      hF.decimals _ _⟩
  · intro find h
    simp only [insertions, scalarEntries, List.map_cons, List.map_nil, Layout.finds_append,
      Layout.finds_cons, Layout.finds_nil, finds_decimalString, and_true] at h
    obtain ⟨⟨hpublic, hhash, howner, hnullifier, hblinding⟩, ⟨hterms, hescrow⟩, hsource⟩ := h
    have hpublic : find ("Public" ++ "_" ++ "PublicInputHash") =
        some [decimal inputs.publicInputHash] := hpublic
    have hhash : find ("Public" ++ "_" ++ "PrivateTxHash") =
        some [decimal inputs.privateTxHash] := hhash
    simp only [Withdraw.Circuit.layout, Withdraw.PublicInputs.layout, Layout.read_seq,
      Layout.read_map, Layout.read_under, read_frontendVariable_under hpublic,
      read_frontendVariable_under hhash, EscrowTermsProofInput.read_witnessEntries hterms,
      hF.read hescrow, hF.read hsource, read_frontendVariable howner,
      read_frontendVariable hnullifier, read_frontendVariable hblinding]
    rfl

end

/-! ## Proving -/

section

variable (F : UtxoFormat) {C : Crypto} (bridge : Bridge (circuits C)) (prover : Prover (circuits C))

/-- `EscrowProofInputs::prove`. -/
def EscrowProofInputs.prove (inputs : EscrowProofInputs) : Except ProverError TimelockProof :=
  (prover.proveMap bridge .escrow (inputs.witnessMap F)).map .from

/-- `WithdrawProofInputs::prove`. -/
def WithdrawProofInputs.prove (inputs : WithdrawProofInputs) : Except ProverError TimelockProof :=
  (prover.proveMap bridge .withdraw (inputs.witnessMap F)).map .from

end

/-- **The escrow provers prove their witnesses**, likewise: no insertion overwrites another, the
maps have exactly the names of the circuits' fields and transmit the typed witnesses, and through a
bridge that fills a circuit with what is transmitted to it, the client's witnesses are proved. -/
theorem escrow_witnesses_by_name {F : UtxoFormat} (hF : F.Documented) {C : Crypto}
    {bridge : Bridge (circuits C)} (hbridge : bridge.Documented (circuitLayout F C))
    (prover : Prover (circuits C)) :
    (∀ inputs : EscrowProofInputs,
      ((inputs.insertions F).map Prod.fst).Nodup ∧
        (Escrow.Circuit.layout F).Transmits Decimals (inputs.witnessMap F) inputs.witness ∧
        orErr (inputs.prove F bridge prover).toOption = proveEscrow prover inputs) ∧
    (∀ inputs : WithdrawProofInputs,
      ((inputs.insertions F).map Prod.fst).Nodup ∧
        (Withdraw.Circuit.layout F).Transmits Decimals (inputs.witnessMap F) inputs.witness ∧
        orErr (inputs.prove F bridge prover).toOption = proveWithdraw prover inputs) := by
  constructor
  · intro inputs
    obtain ⟨hnodup, h⟩ := inputs.writes_insertions hF
    exact ⟨hnodup, h, prover.orErr_proveMap hbridge (i := .escrow) h _⟩
  · intro inputs
    obtain ⟨hnodup, h⟩ := inputs.writes_insertions hF
    exact ⟨hnodup, h, prover.orErr_proveMap hbridge (i := .withdraw) h _⟩

namespace Sample

/-- `sample` of the tests of `prover/src/escrow.rs`. -/
def testInputs : EscrowProofInputs where
  privateTxHash := Bytes.replicate 32 1
  terms := ⟨Bytes.replicate 32 2, 42⟩
  escrowUtxo := ⟨0, 0, 0, 0, 0, 0, 0, 0⟩
  change := ⟨0, 0, 0, 0, 0, 0, 0, 0⟩
  sourceInputHash := Bytes.replicate 32 3
  privateTxBlinding := Bytes.replicate 32 5

/-- A bridge to the circuits. -/
def bridge : Bridge (circuits TimelockEscrow.Sample.crypto) :=
  .strict (circuitLayout .sample TimelockEscrow.Sample.crypto)

end Sample

open Sdk.Sample in
theorem escrow_witnesses_by_name_sample :
    ((testInputs.insertions .sample).map Prod.fst).Nodup ∧
      (Escrow.Circuit.layout .sample).Transmits Decimals (testInputs.witnessMap .sample)
        testInputs.witness ∧
      orErr (testInputs.prove .sample Sample.bridge
          (.zeros (circuits TimelockEscrow.Sample.crypto))).toOption =
        proveEscrow (.zeros (circuits TimelockEscrow.Sample.crypto)) testInputs :=
  (escrow_witnesses_by_name UtxoFormat.sample_documented
    (Bridge.strict_documented (circuitLayout .sample TimelockEscrow.Sample.crypto))
    (.zeros (circuits TimelockEscrow.Sample.crypto))).1 testInputs

end Sdk

end Zolana.TimelockEscrow
