import Zolana.Spp.Reclaim

set_option autoImplicit false

/-! # One hash in the SDKs and in SPP

A proof builder hashes the UTXOs that it knows of, with a zero where the circuit has a dummy.
SPP hashes every entry of the transact, wherever its dummies and its padding stand. Both are
the same `private_tx_hash`, since a chain skips zeros.
-/

namespace Zolana

/-! ## What SPP computes -/

/-- SPP executes the transact with the UTXOs of these hashes: dummies aside, it spends those of
`inputs` and creates those of `outputs`, in order. -/
structure SppMoves (C : Crypto) (t : TransactIxData) (op : TxOpening)
    (inputs outputs : List (Bytes 32)) (privateTxBlinding : Bytes 32) : Prop where
  commits : SppCommits C t op
  spent : List.Forall₂ (fun u word => Publishes word (C.utxoHash u)) op.spent inputs
  created : List.Forall₂ (fun u word => Publishes word (C.utxoHash u)) op.created outputs
  blinding : Fr.ofBytes privateTxBlinding = some op.privateTxBlinding

instance (C : Crypto) (t : TransactIxData) (op : TxOpening) (inputs outputs : List (Bytes 32))
    (privateTxBlinding : Bytes 32) :
    Decidable (SppMoves C t op inputs outputs privateTxBlinding) :=
  decidable_of_iff
    (SppCommits C t op ∧
      List.Forall₂ (fun u word => Publishes word (C.utxoHash u)) op.spent inputs ∧
      List.Forall₂ (fun u word => Publishes word (C.utxoHash u)) op.created outputs ∧
      Fr.ofBytes privateTxBlinding = some op.privateTxBlinding)
    ⟨fun ⟨h1, h2, h3, h4⟩ => ⟨h1, h2, h3, h4⟩, fun ⟨h1, h2, h3, h4⟩ => ⟨h1, h2, h3, h4⟩⟩

/-- The words that publish UTXOs denote their hashes. -/
theorem exists_hashes_of_publishes {C : Crypto} {us : List Utxo} {words : List (Bytes 32)}
    (h : List.Forall₂ (fun u word => Publishes word (C.utxoHash u)) us words) :
    ∃ hs, us.mapM C.utxoHash = some hs ∧ words.mapM Fr.ofBytes = some hs := by
  induction h with
  | nil => exact ⟨[], rfl, rfl⟩
  | cons hword _ ih =>
      obtain ⟨hash, hhash, hof⟩ := hword
      obtain ⟨hs, hus, hwords⟩ := ih
      refine ⟨hash :: hs, ?_, ?_⟩
      · rw [List.mapM_cons, hhash, hus]
        rfl
      · rw [List.mapM_cons, hof, hwords]
        rfl

/-- The builders' call, on the hashes of the UTXOs alone, returns what SPP publishes. -/
theorem SppMoves.privateTxHash {C : Crypto} {t : TransactIxData} {op : TxOpening}
    {inputs outputs : List (Bytes 32)} {blinding : Bytes 32}
    (h : SppMoves C t op inputs outputs blinding) :
    PrivateTxHash C inputs outputs blinding = .ok t.privateTxHash := by
  obtain ⟨ins, hins, hinputs⟩ := exists_hashes_of_publishes h.spent
  obtain ⟨outs, houts, houtputs⟩ := exists_hashes_of_publishes h.created
  obtain ⟨d, hop, hword⟩ := h.commits.privateTxHash
  rw [TxOpening.privateTxHash_of_utxos hins houts] at hop
  exact PrivateTxHash_eq_ok.mpr ⟨ins, outs, op.privateTxBlinding, d, hinputs, houtputs, h.blinding,
    hop, (Fr.toBytes_of_ofBytes hword).symm⟩

/-! ## Two inputs into two outputs

`make` of the swap and `escrow` of the timelock escrow. -/

/-- The zero word of a dummy input drops out of the hash. -/
theorem PrivateTxHash_dummy (C : Crypto) (input : Bytes 32) (outputs : List (Bytes 32))
    (blinding : Bytes 32) :
    PrivateTxHash C [input, Bytes.replicate 32 0] outputs blinding =
      PrivateTxHash C [input] outputs blinding := by
  have hzero : Fr.ofBytes (Bytes.replicate 32 0) = some 0 := by decide
  have hchain : ∀ x : Fr, C.hashChain [x, 0] = C.hashChain [x] := by
    intro x
    exact HashChain.chain_congr (by by_cases hx : x = 0 <;> simp [hx])
  cases hinput : Fr.ofBytes input with
  | none => simp [PrivateTxHash, hinput]
  | some x => simp [PrivateTxHash, Crypto.privateTxHash, hinput, hzero, hchain]

/-- `private_tx_hash` of a transact that turns a source, known by its hash, into `change` and
`locked`, as the builders of both SDKs compute it. -/
structure LocksInto (C : Crypto) (source : Bytes 32) (change locked : Utxo)
    (blinding privateTxHash : Bytes 32) : Prop where
  calls : ∃ changeWord, ProofInputUtxo.hash C change = .ok changeWord ∧
    ∃ lockedWord, ProofInputUtxo.hash C locked = .ok lockedWord ∧
      PrivateTxHash C [source, Bytes.replicate 32 0] [changeWord, lockedWord] blinding =
        .ok privateTxHash

namespace LocksInto

variable {C : Crypto} {source : Bytes 32} {change locked : Utxo} {blinding privateTxHash : Bytes 32}

/-- What the circuits recompute. -/
theorem circuit (h : LocksInto C source change locked blinding privateTxHash) :
    ∃ outs, [change, locked].mapM C.utxoHash = some outs ∧
      C.privateTxHash [decimal source, 0] outs (decimal blinding) = some (decimal privateTxHash) := by
  obtain ⟨changeWord, hchange, lockedWord, hlocked, hprivate⟩ := h.calls
  obtain ⟨ins, outs, b, d, hins, houts, hb, hd, rfl⟩ := PrivateTxHash_eq_ok.mp hprivate
  have hzero : Fr.ofBytes (Bytes.replicate 32 0) = some 0 := by decide
  simp only [List.mapM_cons, List.mapM_nil, hzero, Option.bind_eq_bind, Option.bind_some,
    Option.bind_eq_some_iff, Option.pure_def, Option.some.injEq] at hins
  obtain ⟨s, hs, rfl⟩ := hins
  refine ⟨outs, mapM_utxoHash_of_hash (.cons hchange (.cons hlocked .nil)) houts, ?_⟩
  rw [decimal_of_ofBytes hs, decimal_of_ofBytes hb, decimal_toBytes]
  exact hd

/-- What SPP publishes when it executes the transact. -/
theorem spp (h : LocksInto C source change locked blinding privateTxHash) {t : TransactIxData}
    {op : TxOpening} {changeWord lockedWord : Bytes 32}
    (hchange : (C.utxoHash change).map Fr.toBytes = some changeWord)
    (hlocked : (C.utxoHash locked).map Fr.toBytes = some lockedWord)
    (hspp : SppMoves C t op [source] [changeWord, lockedWord] blinding) :
    t.privateTxHash = privateTxHash := by
  obtain ⟨changeWord', hchange', lockedWord', hlocked', hprivate⟩ := h.calls
  have hsameChange : changeWord = changeWord' :=
    Option.some.inj (hchange.symm.trans (orErr_eq_ok.mp hchange'))
  have hsameLocked : lockedWord = lockedWord' :=
    Option.some.inj (hlocked.symm.trans (orErr_eq_ok.mp hlocked'))
  subst hsameChange hsameLocked
  rw [PrivateTxHash_dummy, hspp.privateTxHash] at hprivate
  exact Except.ok.inj hprivate

end LocksInto

/-! ## One input into one output

`cancel` of the swap and `withdraw` of the timelock escrow. -/

/-- What SPP publishes when it executes the transact. -/
theorem SpendsInto.spp {C : Crypto} {input output : Utxo} {blinding privateTxHash : Bytes 32}
    (h : SpendsInto C input output blinding privateTxHash) {t : TransactIxData} {op : TxOpening}
    {inWord outWord : Bytes 32} (hin : (C.utxoHash input).map Fr.toBytes = some inWord)
    (hout : (C.utxoHash output).map Fr.toBytes = some outWord)
    (hspp : SppMoves C t op [inWord] [outWord] blinding) : t.privateTxHash = privateTxHash := by
  obtain ⟨inWord', hin', outWord', hout', hprivate⟩ := SpendsInto.iff_calls.mp h
  have hsameIn : inWord = inWord' := Option.some.inj (hin.symm.trans (orErr_eq_ok.mp hin'))
  have hsameOut : outWord = outWord' := Option.some.inj (hout.symm.trans (orErr_eq_ok.mp hout'))
  subst hsameIn hsameOut
  rw [hspp.privateTxHash] at hprivate
  exact Except.ok.inj hprivate

/-! ## Published openings -/

/-- The word that a UTXO is published with, where its hash is defined. -/
def hashWord (C : Crypto) (u : Utxo) : Bytes 32 := ((C.utxoHash u).getD 0).toBytes

/-- SPP executes the transact that publishes the opening, as one of its UTXOs. -/
def TxOpening.Moves (C : Crypto) (op : TxOpening) (expiryUnixTs : UInt64) : Prop :=
  SppMoves C (op.publish C expiryUnixTs none []) op (op.spent.map (hashWord C))
    (op.created.map (hashWord C)) op.privateTxBlinding.toBytes

instance (C : Crypto) (op : TxOpening) (expiryUnixTs : UInt64) :
    Decidable (op.Moves C expiryUnixTs) :=
  inferInstanceAs (Decidable (SppMoves ..))

end Zolana
