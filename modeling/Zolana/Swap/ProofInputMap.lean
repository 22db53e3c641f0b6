import Zolana.Spp.ProofInputMap
import Zolana.Swap.Prover

set_option autoImplicit false

/-! # Witnesses of the swap by name

The fields of the four circuits under the names that `prover/circuits` gives them, and the maps that
`prover/src` writes. The maps keep another order than the circuits, write the names out with their
prefixes, and put numbers as they come, reduced or not.
-/

namespace Zolana.Swap

/-! ## The circuits -/

/-- `orderterms.OrderTerms`. -/
def OrderTerms.layout : Layout (List Fr) OrderTerms :=
  OrderTerms.mk <$> frontendVariable "DestinationAsset" <*> frontendVariable "DestinationAmount" <*>
    frontendVariable "MakerOwnerHash" <*> frontendVariables 33 "MakerViewingPk" <*>
    frontendVariable "Expiry" <*> frontendVariable "TakerPkFe" <*> frontendVariable "TakeMode"

section

variable (F : UtxoFormat)

/-- `make.Circuit`. -/
def Make.Circuit.layout : Layout (List Fr) Make.Circuit :=
  Make.Circuit.mk <$> frontendVariable "PrivateTxHash" <*> OrderTerms.layout.under "Order" <*>
    F.layout.under "OrderUtxo" <*> F.layout.under "Change" <*>
    frontendVariable "SourceInputHash" <*> frontendVariable "PrivateTxBlinding"

/-- `take.Core`. -/
def Take.Core.layout : Layout (List Fr) Take.Core :=
  Take.Core.mk <$> OrderTerms.layout.under "Order" <*> F.layout.under "OrderUtxo" <*>
    F.layout.under "TakerIn" <*> F.layout.under "SourceOutput" <*>
    F.layout.under "DestinationOutput" <*> frontendVariable "PrivateTxBlinding"

/-- `take.PublicInputs`. -/
def Take.PublicInputs.layout : Layout (List Fr) Take.PublicInputs :=
  Take.PublicInputs.mk <$> frontendVariable "PublicInputHash" <*>
    frontendVariable "PrivateTxHash" <*> frontendVariable "FirstNullifier"

/-- `take.Circuit`. -/
def Take.Circuit.layout : Layout (List Fr) Take.Circuit :=
  Take.Circuit.mk <$> Take.PublicInputs.layout.under "Public" <*> (Take.Core.layout F).under "Core"

/-- `take_verifiable_encryption.PublicInputs`. -/
def TakeVerifiableEncryption.PublicInputs.layout :
    Layout (List Fr) TakeVerifiableEncryption.PublicInputs :=
  TakeVerifiableEncryption.PublicInputs.mk <$> frontendVariable "PublicInputHash" <*>
    frontendVariable "PrivateTxHash"

/-- `take_verifiable_encryption.Circuit`. -/
def TakeVerifiableEncryption.Circuit.layout : Layout (List Fr) TakeVerifiableEncryption.Circuit :=
  TakeVerifiableEncryption.Circuit.mk <$>
    TakeVerifiableEncryption.PublicInputs.layout.under "Public" <*>
    (Take.Core.layout F).under "Core" <*> frontendVariable "TakerNullifierPk"

/-- `cancel.PublicInputs`. -/
def Cancel.PublicInputs.layout : Layout (List Fr) Cancel.PublicInputs :=
  Cancel.PublicInputs.mk <$> frontendVariable "PublicInputHash" <*> frontendVariable "PrivateTxHash"

/-- `cancel.Circuit`. -/
def Cancel.Circuit.layout : Layout (List Fr) Cancel.Circuit :=
  Cancel.Circuit.mk <$> Cancel.PublicInputs.layout.under "Public" <*>
    OrderTerms.layout.under "Order" <*> F.layout.under "OrderUtxo" <*>
    F.layout.under "SourceOutput" <*> frontendVariable "MakerOwnerPkField" <*>
    frontendVariable "MakerNullifierPk" <*> frontendVariable "PrivateTxBlinding"

/-- The circuits that are registered with gnark. -/
def circuitLayout (C : Crypto) : (id : CircuitId) → Layout (List Fr) ((circuits C).Witness id)
  | .make => Make.Circuit.layout F
  | .cancel => Cancel.Circuit.layout F
  | .take => Take.Circuit.layout F
  | .takeVerifiableEncryption => TakeVerifiableEncryption.Circuit.layout F

end

namespace Sdk

/-! ## The maps -/

/-- `OrderTermsProofInput::witness_entries`. -/
def OrderTermsProofInput.witnessEntries (input : OrderTermsProofInput) (name : String) :
    List (String × List String) :=
  let scalars :=
    [("DestinationAsset", input.destinationAsset),
      ("DestinationAmount", u64RightAlign input.destinationAmount),
      ("MakerOwnerHash", input.makerOwnerHash),
      ("Expiry", u64RightAlign input.expiry),
      ("TakerPkFe", input.takerPkFe),
      ("TakeMode", u64RightAlign input.takeMode)]
  scalars.map (fun (suffix, value) => (name ++ "_" ++ suffix, [decimalString value])) ++
    [(name ++ "_" ++ "MakerViewingPk", input.makerViewingPk.1.map byteString)]

section

variable (F : UtxoFormat)

/-- The insertions of `MakeProofInputs::witness`. -/
def MakeProofInputs.insertions (inputs : MakeProofInputs) : List (String × List String) :=
  scalarEntries
    [("PrivateTxHash", inputs.privateTxHash),
      ("SourceInputHash", inputs.sourceInputHash),
      ("PrivateTxBlinding", inputs.privateTxBlinding)] ++
    (inputs.order.witnessEntries "Order" ++ F.utxoProofInputs inputs.orderUtxo "OrderUtxo" ++
      F.utxoProofInputs inputs.change "Change")

/-- `MakeProofInputs::witness`, the map. -/
def MakeProofInputs.witnessMap (inputs : MakeProofInputs) : ProofInputMap :=
  proofInputMap (inputs.insertions F)

/-- The insertions of `TakeProofInputs::witness`. -/
def TakeProofInputs.insertions (inputs : TakeProofInputs) : List (String × List String) :=
  scalarEntries
    [("Public_PublicInputHash", inputs.publicInputHash),
      ("Public_PrivateTxHash", inputs.privateTxHash),
      ("Public_FirstNullifier", inputs.firstNullifier),
      ("Core_PrivateTxBlinding", inputs.privateTxBlinding)] ++
    (inputs.order.witnessEntries "Core_Order" ++
      F.utxoProofInputs inputs.orderUtxo "Core_OrderUtxo" ++
      F.utxoProofInputs inputs.takerIn "Core_TakerIn" ++
      F.utxoProofInputs inputs.sourceOutput "Core_SourceOutput" ++
      F.utxoProofInputs inputs.destinationOutput "Core_DestinationOutput")

/-- `TakeProofInputs::witness`, the map. -/
def TakeProofInputs.witnessMap (inputs : TakeProofInputs) : ProofInputMap :=
  proofInputMap (inputs.insertions F)

/-- The insertions of `TakeVerifiableEncryptionProofInputs::witness`. -/
def TakeVerifiableEncryptionProofInputs.insertions (inputs : TakeVerifiableEncryptionProofInputs) :
    List (String × List String) :=
  scalarEntries
    [("Public_PublicInputHash", inputs.publicInputHash),
      ("Public_PrivateTxHash", inputs.privateTxHash),
      ("Core_PrivateTxBlinding", inputs.privateTxBlinding),
      ("TakerNullifierPk", inputs.takerNullifierPk)] ++
    (inputs.order.witnessEntries "Core_Order" ++
      F.utxoProofInputs inputs.orderUtxo "Core_OrderUtxo" ++
      F.utxoProofInputs inputs.takerIn "Core_TakerIn" ++
      F.utxoProofInputs inputs.sourceOutput "Core_SourceOutput" ++
      F.utxoProofInputs inputs.destinationOutput "Core_DestinationOutput")

/-- `TakeVerifiableEncryptionProofInputs::witness`, the map. -/
def TakeVerifiableEncryptionProofInputs.witnessMap
    (inputs : TakeVerifiableEncryptionProofInputs) : ProofInputMap :=
  proofInputMap (inputs.insertions F)

/-- The insertions of `CancelProofInputs::witness`. -/
def CancelProofInputs.insertions (inputs : CancelProofInputs) : List (String × List String) :=
  scalarEntries
    [("Public_PublicInputHash", inputs.publicInputHash),
      ("Public_PrivateTxHash", inputs.privateTxHash),
      ("MakerOwnerPkField", inputs.makerOwnerPkField),
      ("MakerNullifierPk", inputs.makerNullifierPk),
      ("PrivateTxBlinding", inputs.privateTxBlinding)] ++
    (inputs.order.witnessEntries "Order" ++ F.utxoProofInputs inputs.orderUtxo "OrderUtxo" ++
      F.utxoProofInputs inputs.sourceOutput "SourceOutput")

/-- `CancelProofInputs::witness`, the map. -/
def CancelProofInputs.witnessMap (inputs : CancelProofInputs) : ProofInputMap :=
  proofInputMap (inputs.insertions F)

end

/-! ## Filling the circuits -/

/-- The suffixes of `witness_entries`. -/
def orderTermsKeys : List String :=
  ["DestinationAsset", "DestinationAmount", "MakerOwnerHash", "Expiry", "TakerPkFe", "TakeMode",
    "MakerViewingPk"]

theorem nodup_orderTermsKeys : orderTermsKeys.Nodup := by decide

theorem mem_names_of_mem_orderTermsKeys :
    ∀ key ∈ orderTermsKeys, key ∈ OrderTerms.layout.names := by
  decide

theorem OrderTermsProofInput.keys_witnessEntries (input : OrderTermsProofInput) (name : String) :
    (input.witnessEntries name).map Prod.fst = orderTermsKeys.map (name ++ "_" ++ ·) := rfl

theorem OrderTermsProofInput.decimals_witnessEntries (input : OrderTermsProofInput)
    (name : String) : ∀ e ∈ input.witnessEntries name, ∃ vars, Decimals e.2 vars := by
  rw [witnessEntries, List.forall_mem_append, List.forall_mem_singleton]
  refine ⟨?_, _, decimals_byteStrings _⟩
  intro e he
  obtain ⟨s, -, rfl⟩ := List.mem_map.mp he
  exact ⟨_, decimals_decimalString s.2⟩

theorem OrderTermsProofInput.read_witnessEntries {input : OrderTermsProofInput} {name : String}
    {find : String → Option (List Fr)}
    (h : Layout.Finds Decimals find (input.witnessEntries name)) :
    OrderTerms.layout.read (fun field => find (name ++ "_" ++ field)) = some input.witness := by
  simp only [witnessEntries, List.map_cons, List.map_nil, List.cons_append, List.nil_append,
    Layout.finds_cons, Layout.finds_nil, finds_decimalString, finds_byteStrings, and_true] at h
  obtain ⟨hasset, hamount, howner, hexpiry, htaker, hmode, hkey⟩ := h
  have hvars : (frontendVariables 33 "MakerViewingPk").read
      (fun field => find (name ++ "_" ++ field)) = some (keyVariables input.makerViewingPk) :=
    read_keyVariables hkey
  simp only [OrderTerms.layout, Layout.read_seq, Layout.read_map,
    read_frontendVariable_under hasset, read_frontendVariable_under hamount,
    read_frontendVariable_under howner, hvars, read_frontendVariable_under hexpiry,
    read_frontendVariable_under htaker, read_frontendVariable_under hmode]
  rfl

section

variable {F : UtxoFormat}

theorem MakeProofInputs.writes_insertions (hF : F.Documented) (inputs : MakeProofInputs) :
    ((inputs.insertions F).map Prod.fst).Nodup ∧
      (Make.Circuit.layout F).Transmits Decimals (inputs.witnessMap F) inputs.witness := by
  refine writes_of_blocks [.single "PrivateTxHash", .single "SourceInputHash",
    .single "PrivateTxBlinding", .under "Order" orderTermsKeys, .under "OrderUtxo" F.keys,
    .under "Change" F.keys] ?_ ?_ ?_ ?_ ?_ ?_
  · simp [insertions, scalarEntries, OrderTermsProofInput.keys_witnessEntries, hF.keys]
  · show List.Pairwise Apart ["PrivateTxHash", "SourceInputHash", "PrivateTxBlinding", "Order_",
      "OrderUtxo_", "Change_"]
    decide
  · simp [Block.single, Block.under, nodup_orderTermsKeys, hF.nodup]
  · simp +contextual [Make.Circuit.layout, mem_names_of_mem_orderTermsKeys, hF.fields]
  · simp only [insertions, List.forall_mem_append]
    exact ⟨decimals_scalarEntries, ⟨inputs.order.decimals_witnessEntries _, hF.decimals _ _⟩,
      hF.decimals _ _⟩
  · intro find h
    simp only [insertions, scalarEntries, List.map_cons, List.map_nil, Layout.finds_append,
      Layout.finds_cons, Layout.finds_nil, finds_decimalString, and_true] at h
    obtain ⟨⟨hhash, hsource, hblinding⟩, ⟨horder, horderUtxo⟩, hchange⟩ := h
    simp only [Make.Circuit.layout, Layout.read_seq, Layout.read_map, Layout.read_under,
      read_frontendVariable hhash, OrderTermsProofInput.read_witnessEntries horder,
      hF.read horderUtxo, hF.read hchange, read_frontendVariable hsource,
      read_frontendVariable hblinding]
    rfl

/-- The part that both takes share, found under `Core`. -/
theorem read_core (hF : F.Documented) {find : String → Option (List Fr)}
    {input : OrderTermsProofInput} {orderUtxo takerIn sourceOutput destinationOutput : Utxo}
    {blinding : Bytes 32} (horder : Layout.Finds Decimals find (input.witnessEntries "Core_Order"))
    (horderUtxo : Layout.Finds Decimals find (F.utxoProofInputs orderUtxo "Core_OrderUtxo"))
    (htakerIn : Layout.Finds Decimals find (F.utxoProofInputs takerIn "Core_TakerIn"))
    (hsource : Layout.Finds Decimals find (F.utxoProofInputs sourceOutput "Core_SourceOutput"))
    (hdestination : Layout.Finds Decimals find
      (F.utxoProofInputs destinationOutput "Core_DestinationOutput"))
    (hblinding : find "Core_PrivateTxBlinding" = some [decimal blinding]) :
    (Take.Core.layout F).read (fun field => find ("Core" ++ "_" ++ field)) =
      some ⟨input.witness, orderUtxo, takerIn, sourceOutput, destinationOutput,
        decimal blinding⟩ := by
  have hblinding : find ("Core" ++ "_" ++ "PrivateTxBlinding") = some [decimal blinding] :=
    hblinding
  have horder := Layout.read_under_under (rfl : "Core" ++ "_" ++ "Order" = "Core_Order")
    (OrderTermsProofInput.read_witnessEntries horder)
  have horderUtxo := Layout.read_under_under
    (rfl : "Core" ++ "_" ++ "OrderUtxo" = "Core_OrderUtxo") (hF.read horderUtxo)
  have htakerIn := Layout.read_under_under
    (rfl : "Core" ++ "_" ++ "TakerIn" = "Core_TakerIn") (hF.read htakerIn)
  have hsource := Layout.read_under_under
    (rfl : "Core" ++ "_" ++ "SourceOutput" = "Core_SourceOutput") (hF.read hsource)
  have hdestination := Layout.read_under_under
    (rfl : "Core" ++ "_" ++ "DestinationOutput" = "Core_DestinationOutput") (hF.read hdestination)
  simp only [Take.Core.layout, Layout.read_seq, Layout.read_map, horder, horderUtxo, htakerIn,
    hsource, hdestination, read_frontendVariable_under hblinding]
  rfl

theorem TakeProofInputs.writes_insertions (hF : F.Documented) (inputs : TakeProofInputs) :
    ((inputs.insertions F).map Prod.fst).Nodup ∧
      (Take.Circuit.layout F).Transmits Decimals (inputs.witnessMap F) inputs.witness := by
  refine writes_of_blocks [.single "Public_PublicInputHash", .single "Public_PrivateTxHash",
    .single "Public_FirstNullifier", .single "Core_PrivateTxBlinding",
    .under "Core_Order" orderTermsKeys, .under "Core_OrderUtxo" F.keys,
    .under "Core_TakerIn" F.keys, .under "Core_SourceOutput" F.keys,
    .under "Core_DestinationOutput" F.keys] ?_ ?_ ?_ ?_ ?_ ?_
  · simp [insertions, scalarEntries, OrderTermsProofInput.keys_witnessEntries, hF.keys]
  · show List.Pairwise Apart ["Public_PublicInputHash", "Public_PrivateTxHash",
      "Public_FirstNullifier", "Core_PrivateTxBlinding", "Core_Order_", "Core_OrderUtxo_",
      "Core_TakerIn_", "Core_SourceOutput_", "Core_DestinationOutput_"]
    decide
  · simp [Block.single, Block.under, nodup_orderTermsKeys, hF.nodup]
  · simp +contextual [Take.Circuit.layout, Take.Core.layout, Take.PublicInputs.layout,
      ← String.append_assoc, mem_names_of_mem_orderTermsKeys, hF.fields]
  · simp only [insertions, List.forall_mem_append]
    exact ⟨decimals_scalarEntries, ⟨⟨⟨inputs.order.decimals_witnessEntries _, hF.decimals _ _⟩,
      hF.decimals _ _⟩, hF.decimals _ _⟩, hF.decimals _ _⟩
  · intro find h
    simp only [insertions, scalarEntries, List.map_cons, List.map_nil, Layout.finds_append,
      Layout.finds_cons, Layout.finds_nil, finds_decimalString, and_true] at h
    obtain ⟨⟨hpublic, hhash, hnullifier, hblinding⟩, ⟨⟨⟨horder, horderUtxo⟩, htakerIn⟩, hsource⟩,
      hdestination⟩ := h
    have hpublic : find ("Public" ++ "_" ++ "PublicInputHash") =
        some [decimal inputs.publicInputHash] := hpublic
    have hhash : find ("Public" ++ "_" ++ "PrivateTxHash") =
        some [decimal inputs.privateTxHash] := hhash
    have hnullifier : find ("Public" ++ "_" ++ "FirstNullifier") =
        some [decimal inputs.firstNullifier] := hnullifier
    simp only [Take.Circuit.layout, Take.PublicInputs.layout, Layout.read_seq, Layout.read_map,
      Layout.read_under, read_frontendVariable_under hpublic, read_frontendVariable_under hhash,
      read_frontendVariable_under hnullifier,
      read_core hF horder horderUtxo htakerIn hsource hdestination hblinding]
    rfl

theorem TakeVerifiableEncryptionProofInputs.writes_insertions (hF : F.Documented)
    (inputs : TakeVerifiableEncryptionProofInputs) :
    ((inputs.insertions F).map Prod.fst).Nodup ∧
      (TakeVerifiableEncryption.Circuit.layout F).Transmits Decimals (inputs.witnessMap F)
        inputs.witness := by
  refine writes_of_blocks [.single "Public_PublicInputHash", .single "Public_PrivateTxHash",
    .single "Core_PrivateTxBlinding", .single "TakerNullifierPk",
    .under "Core_Order" orderTermsKeys, .under "Core_OrderUtxo" F.keys,
    .under "Core_TakerIn" F.keys, .under "Core_SourceOutput" F.keys,
    .under "Core_DestinationOutput" F.keys] ?_ ?_ ?_ ?_ ?_ ?_
  · simp [insertions, scalarEntries, OrderTermsProofInput.keys_witnessEntries, hF.keys]
  · show List.Pairwise Apart ["Public_PublicInputHash", "Public_PrivateTxHash",
      "Core_PrivateTxBlinding", "TakerNullifierPk", "Core_Order_", "Core_OrderUtxo_",
      "Core_TakerIn_", "Core_SourceOutput_", "Core_DestinationOutput_"]
    decide
  · simp [Block.single, Block.under, nodup_orderTermsKeys, hF.nodup]
  · simp +contextual [TakeVerifiableEncryption.Circuit.layout, Take.Core.layout,
      TakeVerifiableEncryption.PublicInputs.layout, ← String.append_assoc,
      mem_names_of_mem_orderTermsKeys, hF.fields]
  · simp only [insertions, List.forall_mem_append]
    exact ⟨decimals_scalarEntries, ⟨⟨⟨inputs.order.decimals_witnessEntries _, hF.decimals _ _⟩,
      hF.decimals _ _⟩, hF.decimals _ _⟩, hF.decimals _ _⟩
  · intro find h
    simp only [insertions, scalarEntries, List.map_cons, List.map_nil, Layout.finds_append,
      Layout.finds_cons, Layout.finds_nil, finds_decimalString, and_true] at h
    obtain ⟨⟨hpublic, hhash, hblinding, htaker⟩, ⟨⟨⟨horder, horderUtxo⟩, htakerIn⟩, hsource⟩,
      hdestination⟩ := h
    have hpublic : find ("Public" ++ "_" ++ "PublicInputHash") =
        some [decimal inputs.publicInputHash] := hpublic
    have hhash : find ("Public" ++ "_" ++ "PrivateTxHash") =
        some [decimal inputs.privateTxHash] := hhash
    simp only [TakeVerifiableEncryption.Circuit.layout,
      TakeVerifiableEncryption.PublicInputs.layout, Layout.read_seq, Layout.read_map,
      Layout.read_under, read_frontendVariable_under hpublic, read_frontendVariable_under hhash,
      read_core hF horder horderUtxo htakerIn hsource hdestination hblinding,
      read_frontendVariable htaker]
    rfl

theorem CancelProofInputs.writes_insertions (hF : F.Documented) (inputs : CancelProofInputs) :
    ((inputs.insertions F).map Prod.fst).Nodup ∧
      (Cancel.Circuit.layout F).Transmits Decimals (inputs.witnessMap F) inputs.witness := by
  refine writes_of_blocks [.single "Public_PublicInputHash", .single "Public_PrivateTxHash",
    .single "MakerOwnerPkField", .single "MakerNullifierPk", .single "PrivateTxBlinding",
    .under "Order" orderTermsKeys, .under "OrderUtxo" F.keys, .under "SourceOutput" F.keys]
    ?_ ?_ ?_ ?_ ?_ ?_
  · simp [insertions, scalarEntries, OrderTermsProofInput.keys_witnessEntries, hF.keys]
  · show List.Pairwise Apart ["Public_PublicInputHash", "Public_PrivateTxHash",
      "MakerOwnerPkField", "MakerNullifierPk", "PrivateTxBlinding", "Order_", "OrderUtxo_",
      "SourceOutput_"]
    decide
  · simp [Block.single, Block.under, nodup_orderTermsKeys, hF.nodup]
  · simp +contextual [Cancel.Circuit.layout, Cancel.PublicInputs.layout,
      mem_names_of_mem_orderTermsKeys, hF.fields]
  · simp only [insertions, List.forall_mem_append]
    exact ⟨decimals_scalarEntries, ⟨inputs.order.decimals_witnessEntries _, hF.decimals _ _⟩,
      hF.decimals _ _⟩
  · intro find h
    simp only [insertions, scalarEntries, List.map_cons, List.map_nil, Layout.finds_append,
      Layout.finds_cons, Layout.finds_nil, finds_decimalString, and_true] at h
    obtain ⟨⟨hpublic, hhash, howner, hnullifier, hblinding⟩, ⟨horder, horderUtxo⟩, hsource⟩ := h
    have hpublic : find ("Public" ++ "_" ++ "PublicInputHash") =
        some [decimal inputs.publicInputHash] := hpublic
    have hhash : find ("Public" ++ "_" ++ "PrivateTxHash") =
        some [decimal inputs.privateTxHash] := hhash
    simp only [Cancel.Circuit.layout, Cancel.PublicInputs.layout, Layout.read_seq, Layout.read_map,
      Layout.read_under, read_frontendVariable_under hpublic, read_frontendVariable_under hhash,
      OrderTermsProofInput.read_witnessEntries horder, hF.read horderUtxo, hF.read hsource,
      read_frontendVariable howner, read_frontendVariable hnullifier,
      read_frontendVariable hblinding]
    rfl

end

/-! ## Proving -/

section

variable (F : UtxoFormat) {C : Crypto} (bridge : Bridge (circuits C)) (prover : Prover (circuits C))

/-- `MakeProofInputs::prove`. -/
def MakeProofInputs.prove (inputs : MakeProofInputs) : Except ProverError OrderProof :=
  (prover.proveMap bridge .make (inputs.witnessMap F)).map .from

/-- `TakeProofInputs::prove`. -/
def TakeProofInputs.prove (inputs : TakeProofInputs) : Except ProverError OrderProof :=
  (prover.proveMap bridge .take (inputs.witnessMap F)).map .from

/-- `TakeVerifiableEncryptionProofInputs::prove`. -/
def TakeVerifiableEncryptionProofInputs.prove (inputs : TakeVerifiableEncryptionProofInputs) :
    Except ProverError OrderProof :=
  (prover.proveMap bridge .takeVerifiableEncryption (inputs.witnessMap F)).map .from

/-- `CancelProofInputs::prove`. -/
def CancelProofInputs.prove (inputs : CancelProofInputs) : Except ProverError OrderProof :=
  (prover.proveMap bridge .cancel (inputs.witnessMap F)).map .from

end

/-- **The provers prove their witnesses.** For all proof inputs of the four kinds, reduced or not,
no insertion overwrites another, the map that goes to gnark has exactly the names of the circuit's
fields, and each field gets the value of the typed witness. So what is proved through the map is
what the client proves, if gnark's bridge fills a circuit with what is transmitted to it. -/
theorem witnesses_by_name {F : UtxoFormat} (hF : F.Documented) {C : Crypto}
    {bridge : Bridge (circuits C)} (hbridge : bridge.Documented (circuitLayout F C))
    (prover : Prover (circuits C)) :
    (∀ inputs : MakeProofInputs,
      ((inputs.insertions F).map Prod.fst).Nodup ∧
        (Make.Circuit.layout F).Transmits Decimals (inputs.witnessMap F) inputs.witness ∧
        orErr (inputs.prove F bridge prover).toOption = proveMake prover inputs) ∧
    (∀ inputs : TakeProofInputs,
      ((inputs.insertions F).map Prod.fst).Nodup ∧
        (Take.Circuit.layout F).Transmits Decimals (inputs.witnessMap F) inputs.witness ∧
        orErr (inputs.prove F bridge prover).toOption = proveTake prover inputs) ∧
    (∀ inputs : TakeVerifiableEncryptionProofInputs,
      ((inputs.insertions F).map Prod.fst).Nodup ∧
        (TakeVerifiableEncryption.Circuit.layout F).Transmits Decimals (inputs.witnessMap F)
          inputs.witness ∧
        orErr (inputs.prove F bridge prover).toOption =
          proveTakeVerifiableEncryption prover inputs) ∧
    (∀ inputs : CancelProofInputs,
      ((inputs.insertions F).map Prod.fst).Nodup ∧
        (Cancel.Circuit.layout F).Transmits Decimals (inputs.witnessMap F) inputs.witness ∧
        orErr (inputs.prove F bridge prover).toOption = proveCancel prover inputs) := by
  refine ⟨?_, ?_, ?_, ?_⟩
  · intro inputs
    obtain ⟨hnodup, h⟩ := inputs.writes_insertions hF
    exact ⟨hnodup, h, prover.orErr_proveMap hbridge (i := .make) h _⟩
  · intro inputs
    obtain ⟨hnodup, h⟩ := inputs.writes_insertions hF
    exact ⟨hnodup, h, prover.orErr_proveMap hbridge (i := .take) h _⟩
  · intro inputs
    obtain ⟨hnodup, h⟩ := inputs.writes_insertions hF
    exact ⟨hnodup, h, prover.orErr_proveMap hbridge (i := .takeVerifiableEncryption) h _⟩
  · intro inputs
    obtain ⟨hnodup, h⟩ := inputs.writes_insertions hF
    exact ⟨hnodup, h, prover.orErr_proveMap hbridge (i := .cancel) h _⟩

namespace Sample

/-- A bridge to the circuits. -/
def bridge : Bridge (circuits Swap.Sample.crypto) :=
  .strict (circuitLayout .sample Swap.Sample.crypto)

end Sample

open Sdk.Sample in
theorem witnesses_by_name_sample :
    ((takeInputs.insertions .sample).map Prod.fst).Nodup ∧
      (Take.Circuit.layout .sample).Transmits Decimals (takeInputs.witnessMap .sample)
        takeInputs.witness ∧
      orErr (takeInputs.prove .sample Sample.bridge
          (.zeros (circuits Swap.Sample.crypto))).toOption =
        proveTake (.zeros (circuits Swap.Sample.crypto)) takeInputs :=
  (witnesses_by_name UtxoFormat.sample_documented
    (Bridge.strict_documented (circuitLayout .sample Swap.Sample.crypto))
    (.zeros (circuits Swap.Sample.crypto))).2.1 takeInputs

end Sdk

end Zolana.Swap
