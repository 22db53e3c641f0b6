import Zolana.Swap.Lifecycle
import Zolana.TimelockEscrow.Timelock

set_option autoImplicit false

/-! # The source of a make and of an escrow

Both programs create their locked UTXO from one source, which the circuits know by its hash
alone: they recompute `private_tx_hash` with the input list `[SourceInputHash, 0]`. A chain of
one entry is that entry, so `SourceInputHash` may as well be the chain of several inputs. It is
the hash of the only input exactly if it is no chain value and not zero.
-/

namespace Zolana

/-- The transact spends one UTXO, the one with this hash. -/
def SpendsOnly (C : Crypto) (op : TxOpening) (sourceInputHash : Fr) : Prop :=
  ∃ u, op.spent = [u] ∧ C.utxoHash u = some sourceInputHash

/-- The hash is neither that of a dummy nor a chain value. -/
def IsSource (C : Crypto) (sourceInputHash : Fr) : Prop :=
  sourceInputHash ≠ 0 ∧ HashChain.IsLeaf C.node sourceInputHash

theorem Swap.processMakeIx_spendsOnly_iff {E : Swap.Env} (hE : E.Secure)
    {accounts : AccountIterator} {data : List UInt8} {cpi : Cpi} {t : TransactIxData}
    {op : TxOpening} (h : Swap.processMakeIx E accounts data = .ok cpi)
    (ht : cpi.Transact E.runtime t) (hspp : SppCommits E.crypto t op) :
    (∃ w : Swap.Make.Circuit, w.Satisfied E.crypto ∧
      Fr.ofBytes t.privateTxHash = some w.privateTxHash) ∧
    ∀ w : Swap.Make.Circuit, w.Satisfied E.crypto →
      Fr.ofBytes t.privateTxHash = some w.privateTxHash →
      (SpendsOnly E.crypto op w.sourceInputHash ↔ IsSource E.crypto w.sourceInputHash) := by
  refine ⟨Swap.processMakeIx_sound hE h ht, ?_⟩
  intro w hw hp
  obtain ⟨outs, -, hcommit⟩ := hw.privateTxHash
  exact TxOpening.spent_singleton_iff hE.ideal hcommit (hspp.privateTxHash_eq hp)

theorem TimelockEscrow.processEscrowIx_spendsOnly_iff {E : TimelockEscrow.Env} (hE : E.Secure)
    {accounts : AccountIterator} {data : List UInt8} {cpi : Cpi} {t : TransactIxData}
    {op : TxOpening} (h : TimelockEscrow.processEscrowIx E accounts data = .ok cpi)
    (ht : cpi.Transact E.runtime t) (hspp : SppCommits E.crypto t op) :
    (∃ w : TimelockEscrow.Escrow.Circuit, w.Satisfied E.crypto ∧
      Fr.ofBytes t.privateTxHash = some w.privateTxHash) ∧
    ∀ w : TimelockEscrow.Escrow.Circuit, w.Satisfied E.crypto →
      Fr.ofBytes t.privateTxHash = some w.privateTxHash →
      (SpendsOnly E.crypto op w.sourceInputHash ↔ IsSource E.crypto w.sourceInputHash) := by
  refine ⟨TimelockEscrow.processEscrowIx_sound hE h ht, ?_⟩
  intro w hw hp
  obtain ⟨outs, -, hcommit⟩ := hw.privateTxHash
  exact TxOpening.spent_singleton_iff hE.ideal hcommit (hspp.privateTxHash_eq hp)

/-- **When a make or an escrow spends one source.** An accepted instruction of either kind has
a satisfying witness, and for every such witness the transact spends exactly one UTXO, the one
that the witness names, if and only if the hash it names is neither zero nor a chain value. -/
theorem spendsOnly_iff {accounts : AccountIterator} {data : List UInt8} {cpi : Cpi}
    {t : TransactIxData} {op : TxOpening} :
    (∀ E : Swap.Env, E.Secure → Swap.processMakeIx E accounts data = .ok cpi →
      cpi.Transact E.runtime t → SppCommits E.crypto t op →
      (∃ w : Swap.Make.Circuit, w.Satisfied E.crypto ∧
        Fr.ofBytes t.privateTxHash = some w.privateTxHash) ∧
      ∀ w : Swap.Make.Circuit, w.Satisfied E.crypto →
        Fr.ofBytes t.privateTxHash = some w.privateTxHash →
        (SpendsOnly E.crypto op w.sourceInputHash ↔ IsSource E.crypto w.sourceInputHash)) ∧
    (∀ E : TimelockEscrow.Env, E.Secure → TimelockEscrow.processEscrowIx E accounts data = .ok cpi →
      cpi.Transact E.runtime t → SppCommits E.crypto t op →
      (∃ w : TimelockEscrow.Escrow.Circuit, w.Satisfied E.crypto ∧
        Fr.ofBytes t.privateTxHash = some w.privateTxHash) ∧
      ∀ w : TimelockEscrow.Escrow.Circuit, w.Satisfied E.crypto →
        Fr.ofBytes t.privateTxHash = some w.privateTxHash →
        (SpendsOnly E.crypto op w.sourceInputHash ↔ IsSource E.crypto w.sourceInputHash)) := by
  constructor
  · intro E hE h ht hspp
    exact Swap.processMakeIx_spendsOnly_iff hE h ht hspp
  · intro E hE h ht hspp
    exact TimelockEscrow.processEscrowIx_spendsOnly_iff hE h ht hspp

theorem spendsOnly_iff_sample :
    (SpendsOnly Swap.Sample.crypto Swap.Sample.makeOpening 100 ↔
      IsSource Swap.Sample.crypto 100) ∧
    (SpendsOnly TimelockEscrow.Sample.crypto TimelockEscrow.Sample.escrowOpening 100 ↔
      IsSource TimelockEscrow.Sample.crypto 100) := by
  constructor
  · open Swap.Sample in
    have hspp : SppCommits crypto (makeTransact makeMarker) makeOpening := by decide
    have hw : Swap.Make.Circuit.Satisfied crypto ⟨503, terms 0, order, change, 100, 53⟩ :=
      Swap.Make.Circuit.define_eq_some.mp (by decide : _ = some ())
    exact (spendsOnly_iff.1 env env_secure make_ok rfl hspp).2 _ hw (by decide)
  · open TimelockEscrow.Sample in
    have hspp : SppCommits crypto (escrowOpening.publish crypto 500 none []) escrowOpening := by
      decide
    have hw : TimelockEscrow.Escrow.Circuit.Satisfied crypto
        ⟨500, terms 100, escrow, change, 100, 50⟩ :=
      TimelockEscrow.Escrow.Circuit.define_eq_some.mp (by decide : _ = some ())
    exact (spendsOnly_iff.2 env env_secure escrow_ok rfl hspp).2 _ hw (by decide)

/-! ## A make with two sources

The maker pays with 8 units and 2 units; the witness names the chain of the two hashes. -/

namespace Swap.Sample

/-- The second coin of the maker, and the change of 10 units less the order's 7. -/
def extraFunds : Utxo := sampleUtxo makerOwner 20 2 42 0
def extraChange : Utxo := sampleUtxo makerOwner 20 3 43 0

/-- The tables of `crypto` with what the make evaluates: the nullifier of the second coin and
the two chains. -/
def extraCrypto : Crypto :=
  { crypto with
    poseidon := Oracle.tabulate (Fr.offset 1000)
      (poseidonTable ++ [[114, 42, 5], [100, 114], [115, 102]])
    utxoHash := Oracle.tabulate (Fr.offset 100) (utxoTable ++ [extraFunds, extraChange])
    privateTxCommit i o b := Oracle.tabulate (Fr.offset 500) [((1031, 1032, 55) : Fr × Fr × Fr)]
      (i, o, b) }

theorem extraCrypto_ideal : extraCrypto.Ideal :=
  .of_tables rfl rfl (fun _ _ _ => rfl) rfl (by decide) (by decide) (by decide) (by decide)
    (by decide)

def extraOpening : TxOpening :=
  ⟨[some ⟨funds, 5⟩, some ⟨extraFunds, 5⟩], [some extraChange, some order], 55⟩

def extraTransact (marker : List UInt8) : TransactIxData :=
  extraOpening.publish extraCrypto 50 none [⟨Bytes.replicate 32 2, marker⟩]

def extraTransacts : List TransactIxData := [extraTransact [], extraTransact makeMarker]

noncomputable def extraEnv : Env where
  crypto := extraCrypto
  groth16 := Groth16.idealVerifier (relation extraCrypto)
  runtime := .tabulate authority extraTransacts
  makeIxData bytes := extraTransacts[bytes.length]?.map fun t => ⟨plainProof, t⟩
  takeIxData _ := none
  takeVerifiableEncryptionIxData _ := none
  cancelIxData _ := none

theorem extraEnv_secure : extraEnv.Secure where
  ideal := extraCrypto_ideal
  sound := Groth16.idealVerifier_sound
  roundTrips := Codec.tabulate_roundTrips extraTransacts

theorem extraMake_ok :
    processMakeIx extraEnv (accounts [maker, maker]) (data 0) = .ok (cpi [maker] 1) := by
  have hrelation : relation extraCrypto .make 500 :=
    ⟨⟨500, terms 0, order, extraChange, 1031, 55⟩, rfl, by decide⟩
  refine processMakeIx_eq_ok.mpr ⟨⟨maker, true, true⟩, accounts [maker],
    ⟨plainProof, extraTransact []⟩, extraTransact makeMarker, rfl, rfl, rfl, rfl,
    Groth16.idealVerifier_ok rfl (by decide : Fr.ofBytes _ = some 500) hrelation, by decide, ?_⟩
  exact forward_eq_ok.mpr ⟨data 1, by decide, by decide, by decide, rfl⟩

end Swap.Sample

open Swap.Sample in
/-- An accepted make that SPP executes can spend two UTXOs. -/
theorem not_spendsOnly :
    ¬∀ E : Swap.Env, E.Secure → ∀ ledger accounts data cpi t op,
      Swap.processMakeIx E accounts data = .ok cpi → cpi.Transact E.runtime t →
      SppAccepts E.crypto ledger cpi.signers t op → ∃ u, op.spent = [u] := by
  intro h
  have hspp : SppAccepts extraCrypto ⟨{funds, extraFunds}, ∅⟩ (cpi [maker] 1).signers
      (extraTransact makeMarker) extraOpening := by decide
  obtain ⟨u, hu⟩ := h extraEnv extraEnv_secure ⟨{funds, extraFunds}, ∅⟩ (accounts [maker, maker])
    (data 0) (cpi [maker] 1) (extraTransact makeMarker) extraOpening extraMake_ok rfl hspp
  have hlength : extraOpening.spent.length = 2 := rfl
  rw [hu] at hlength
  cases hlength

end Zolana
