import Mathlib.Data.List.ReduceOption
import Mathlib.Data.List.Forall2
import Zolana.Basic.Ledger
import Zolana.Spp.Program

set_option autoImplicit false

/-! # The SPP transact

`TransactIxData` is the instruction the programs forward, `TxOpening` the list of UTXOs the
SPP proof behind it opens, and `SppAccepts` the condition under which SPP executes it: every
input is unspent and its owner signs, value is conserved per asset, and `private_tx_hash`
commits the nonzero inputs and outputs. The main result is `TxOpening.privateTxHash_binds`:
when a circuit recomputes `private_tx_hash` from UTXOs it knows, these are the UTXOs that
the transact spends and creates.
-/

namespace Zolana

/-! ## Instruction data -/

/-- `TransactInput`. -/
structure TransactInput where
  nullifierHash : Bytes 32
  deriving DecidableEq

/-- `TransactOutput`; the owner tag in its wire form. -/
structure TransactOutput where
  utxoHash : Bytes 32
  ownerTag : List UInt8
  data : Option (List UInt8)
  deriving DecidableEq

/-- `MessageData`. -/
structure MessageData where
  viewTag : Bytes 32
  data : List UInt8
  deriving DecidableEq

/-- `TransactIxData`; the parts that neither program reads in their wire form. -/
structure TransactIxData where
  expiryUnixTs : UInt64
  privateTxHash : Bytes 32
  circuit : List UInt8
  txViewingPk : Bytes 33
  salt : Bytes 16
  proof : List UInt8
  inputs : List TransactInput
  interfaceTransfers : List UInt8
  dataHash : Option (Bytes 32)
  ringDataHash : Option (Bytes 32)
  outputs : List TransactOutput
  messages : List MessageData
  treeContexts : List UInt8
  deriving DecidableEq

/-- `wincode` for one type: `deserialize_exact` and `serialize`. -/
structure Codec (α : Type) where
  deserializeExact : List UInt8 → Option α
  serialize : α → Option (List UInt8)

/-- What is written is read back. -/
def Codec.RoundTrips {α : Type} (codec : Codec α) : Prop :=
  ∀ ⦃a bytes⦄, codec.serialize a = some bytes → codec.deserializeExact bytes = some a

/-- The codec of finitely many values: the `i`-th one is written as `i` zero bytes. -/
def Codec.tabulate {α : Type} [DecidableEq α] (xs : List α) : Codec α where
  deserializeExact bytes := xs[bytes.length]?
  serialize a := (xs.idxOf? a).map (List.replicate · 0)

theorem Codec.tabulate_roundTrips {α : Type} [DecidableEq α] (xs : List α) :
    (Codec.tabulate xs).RoundTrips := by
  intro a bytes h
  obtain ⟨i, hi, rfl⟩ := Option.map_eq_some_iff.mp h
  obtain ⟨hlt, hget, -⟩ := List.idxOf?_eq_some_iff.mp hi
  show xs[(List.replicate i (0 : UInt8)).length]? = some a
  rw [List.length_replicate, List.getElem?_eq_getElem hlt, hget]

/-! ## Owners -/

namespace Crypto

variable (C : Crypto)

/-- `NullifierKey::pubkey`. -/
def nullifierPubkey (secret : Fr) : Option Fr := C.poseidon [secret]

/-- The owner hash of a Solana key and a nullifier key. -/
def ownerHash (signer : Address) (nullifierPk : Fr) : Option Fr := do
  let pkField ← C.solanaOwnerIdentity signer
  C.poseidon [pkField, nullifierPk]

/-- The UTXO belongs to the Solana key, under some nullifier key. -/
def OwnedBy (signer : Address) (u : Utxo) : Prop := ∃ n, C.ownerHash signer n = some u.owner

variable {C}

theorem ownerHash_eq_some {signer : Address} {nullifierPk h : Fr} :
    C.ownerHash signer nullifierPk = some h ↔
      ∃ pk, C.solanaOwnerIdentity signer = some pk ∧ C.poseidon [pk, nullifierPk] = some h := by
  simp [ownerHash, Option.bind_eq_some_iff]

/-- An owner hash names one Solana key. -/
theorem Ideal.ownedBy_unique (hC : C.Ideal) {s s' : Address} {u : Utxo} (h : C.OwnedBy s u)
    (h' : C.OwnedBy s' u) : s = s' := by
  obtain ⟨n, hn⟩ := h
  obtain ⟨n', hn'⟩ := h'
  obtain ⟨pk, hpk, hh⟩ := ownerHash_eq_some.mp hn
  obtain ⟨pk', hpk', hh'⟩ := ownerHash_eq_some.mp hn'
  have hlist := hC.poseidon hh hh'
  simp only [List.cons.injEq, and_true] at hlist
  obtain ⟨rfl, -⟩ := hlist
  exact hC.solanaOwnerIdentity hpk hpk'

end Crypto

/-! ## Openings -/

/-- A spent UTXO with the nullifier secret that spends it. -/
structure Spend where
  utxo : Utxo
  nullifierSecret : Fr
  deriving DecidableEq

/-- What the SPP proof of a transact opens; `none` is a dummy entry. -/
structure TxOpening where
  inputs : List (Option Spend)
  outputs : List (Option Utxo)
  privateTxBlinding : Fr
  deriving DecidableEq

namespace TxOpening

variable (C : Crypto) (op : TxOpening)

/-- The UTXOs behind the nonzero inputs. -/
def spent : List Utxo := (op.inputs.map (Option.map Spend.utxo)).reduceOption

/-- The UTXOs behind the nonzero outputs. -/
def created : List Utxo := op.outputs.reduceOption

/-- The hash under which an entry enters `private_tx_hash`: zero for a dummy. -/
def slotHash : Option Utxo → Option Fr
  | none => some 0
  | some u => C.utxoHash u

/-- The `private_tx_hash` of the opening. -/
def privateTxHash : Option Fr := do
  let inputs ← (op.inputs.map (Option.map Spend.utxo)).mapM (slotHash C)
  let outputs ← op.outputs.mapM (slotHash C)
  C.privateTxHash inputs outputs op.privateTxBlinding

variable {C op}

theorem privateTxHash_eq_some {d : Fr} :
    op.privateTxHash C = some d ↔
      ∃ ins outs, (op.inputs.map (Option.map Spend.utxo)).mapM (slotHash C) = some ins ∧
        op.outputs.mapM (slotHash C) = some outs ∧
        C.privateTxHash ins outs op.privateTxBlinding = some d := by
  simp only [privateTxHash, Option.bind_eq_bind, Option.bind_eq_some_iff]
  constructor
  · rintro ⟨ins, hins, outs, houts, hd⟩
    exact ⟨ins, outs, hins, houts, hd⟩
  · rintro ⟨ins, outs, hins, houts, hd⟩
    exact ⟨ins, hins, outs, houts, hd⟩

/-- Dropping the zero hashes of a list of entries leaves the hashes of its UTXOs. -/
theorem mapM_reduceOption (hC : C.Ideal) {slots : List (Option Utxo)} {hs : List Fr}
    (h : slots.mapM (slotHash C) = some hs) :
    slots.reduceOption.mapM C.utxoHash = some (hs.filter (· ≠ 0)) := by
  induction slots generalizing hs with
  | nil =>
      obtain rfl : [] = hs := by simpa using h
      rfl
  | cons slot slots ih =>
      simp only [List.mapM_cons, Option.bind_eq_bind, Option.bind_eq_some_iff, Option.pure_def,
        Option.some.injEq] at h
      obtain ⟨d, hd, ds, hds, rfl⟩ := h
      cases slot with
      | none =>
          obtain rfl : 0 = d := Option.some.inj hd
          simpa using ih hds
      | some u =>
          -- a real entry never hashes to zero, so the filter keeps it
          have hne : d ≠ 0 := fun h0 => hC.utxoHash_ne_zero u (h0 ▸ hd)
          have hu : C.utxoHash u = some d := hd
          rw [List.reduceOption_cons_of_some, List.mapM_cons, hu, ih hds]
          simp [hne]

/-- The nonzero entries are UTXO hashes, hence no chain values. -/
theorem isLeaf_of_mem (hC : C.Ideal) {slots : List (Option Utxo)} {hs : List Fr}
    (h : slots.mapM (slotHash C) = some hs) :
    ∀ d ∈ hs, d ≠ 0 → HashChain.IsLeaf C.node d := by
  induction slots generalizing hs with
  | nil =>
      obtain rfl : [] = hs := by simpa using h
      simp
  | cons slot slots ih =>
      simp only [List.mapM_cons, Option.bind_eq_bind, Option.bind_eq_some_iff, Option.pure_def,
        Option.some.injEq] at h
      obtain ⟨d, hd, ds, hds, rfl⟩ := h
      intro e he hne
      rcases List.mem_cons.mp he with rfl | he
      · cases slot with
        | none => exact absurd (Option.some.inj hd).symm hne
        | some u => exact hC.utxoHash_ne_node hd
      · exact ih hds e he hne

theorem mapM_slotHash_some {us : List Utxo} :
    (us.map some).mapM (slotHash C) = us.mapM C.utxoHash := by
  induction us with
  | nil => rfl
  | cons u us ih => rw [List.map_cons, List.mapM_cons, List.mapM_cons, ih]; rfl

/-- Entries have hashes as soon as their UTXOs do, and the dummies add zeros only. -/
theorem exists_slotHashes {slots : List (Option Utxo)} {uh : List Fr}
    (h : slots.reduceOption.mapM C.utxoHash = some uh) :
    ∃ hs, slots.mapM (slotHash C) = some hs ∧ hs.filter (· ≠ 0) = uh.filter (· ≠ 0) := by
  induction slots generalizing uh with
  | nil =>
      obtain rfl : [] = uh := by simpa using h
      exact ⟨[], rfl, rfl⟩
  | cons slot slots ih =>
      cases slot with
      | none =>
          rw [List.reduceOption_cons_of_none] at h
          obtain ⟨hs, hhs, hfilter⟩ := ih h
          refine ⟨0 :: hs, ?_, by simpa using hfilter⟩
          rw [List.mapM_cons, hhs]
          rfl
      | some u =>
          rw [List.reduceOption_cons_of_some] at h
          simp only [List.mapM_cons, Option.bind_eq_bind, Option.bind_eq_some_iff, Option.pure_def,
            Option.some.injEq] at h
          obtain ⟨d, hd, ds, hds, rfl⟩ := h
          obtain ⟨hs, hhs, hfilter⟩ := ih hds
          refine ⟨d :: hs, ?_, by rw [List.filter_cons, List.filter_cons, hfilter]⟩
          rw [List.mapM_cons, hhs, slotHash, hd]
          rfl

/-- **Dummies do not count.** The `private_tx_hash` of an opening is the one of its UTXOs,
wherever dummies stand between them. -/
theorem privateTxHash_of_utxos {ins outs : List Fr} (hins : op.spent.mapM C.utxoHash = some ins)
    (houts : op.created.mapM C.utxoHash = some outs) :
    op.privateTxHash C = C.privateTxHash ins outs op.privateTxBlinding := by
  obtain ⟨inSlots, hinSlots, hin⟩ := exists_slotHashes hins
  obtain ⟨outSlots, houtSlots, hout⟩ := exists_slotHashes houts
  have hinChain : C.hashChain inSlots = C.hashChain ins := HashChain.chain_congr hin
  have houtChain : C.hashChain outSlots = C.hashChain outs := HashChain.chain_congr hout
  rw [privateTxHash, hinSlots, houtSlots, Crypto.privateTxHash, ← hinChain, ← houtChain]
  rfl

/-- Entries and UTXOs with one chain are the same UTXOs. -/
theorem reduceOption_eq_of_hashChain (hC : C.Ideal) {slots : List (Option Utxo)}
    {us : List Utxo} {hs uh : List Fr} {d : Fr} (hslots : slots.mapM (slotHash C) = some hs)
    (hus : us.mapM C.utxoHash = some uh) (hd : C.hashChain hs = some d)
    (hd' : C.hashChain uh = some d) : slots.reduceOption = us := by
  have hus' : (us.map some).mapM (slotHash C) = some uh := by rw [mapM_slotHash_some, hus]
  have hfilter : hs.filter (· ≠ 0) = uh.filter (· ≠ 0) :=
    HashChain.chain_inj hC.nodeInjective hC.isLeaf_zero (isLeaf_of_mem hC hslots)
      (isLeaf_of_mem hC hus') hd hd'
  have hid : (us.map some).reduceOption = us := by simp [List.reduceOption]
  have h1 := mapM_reduceOption hC hslots
  have h2 := mapM_reduceOption hC hus'
  rw [← hfilter, hid] at h2
  exact hC.utxoHash.mapM_inj h1 h2

/-- The outputs alone are bound by `private_tx_hash`, whatever the circuit knows of the
inputs. -/
theorem privateTxHash_binds_created (hC : C.Ideal) {vs : List Utxo} {inputs vh : List Fr}
    {blinding d : Fr} (hvs : vs.mapM C.utxoHash = some vh)
    (hcircuit : C.privateTxHash inputs vh blinding = some d) (hop : op.privateTxHash C = some d) :
    op.created = vs := by
  obtain ⟨ins, outs, -, houts, hd⟩ := privateTxHash_eq_some.mp hop
  obtain ⟨i, o, -, ho, hcommit⟩ := Crypto.privateTxHash_eq_some.mp hd
  obtain ⟨i', o', -, ho', hcommit'⟩ := Crypto.privateTxHash_eq_some.mp hcircuit
  obtain ⟨-, rfl, -⟩ := hC.privateTxCommit hcommit hcommit'
  exact reduceOption_eq_of_hashChain hC houts hvs ho ho'

/-- **`private_tx_hash` binds the transact.** If a circuit obtains the transact's
`private_tx_hash` from the hashes of the UTXOs `us` and `vs`, then `us` are the UTXOs the
transact spends and `vs` those it creates, in order. -/
theorem privateTxHash_binds (hC : C.Ideal) {us vs : List Utxo} {uh vh : List Fr}
    {blinding d : Fr} (hus : us.mapM C.utxoHash = some uh) (hvs : vs.mapM C.utxoHash = some vh)
    (hcircuit : C.privateTxHash uh vh blinding = some d) (hop : op.privateTxHash C = some d) :
    op.spent = us ∧ op.created = vs := by
  -- the outputs are bound without the inputs, and the inputs in the same way
  have hcreated : op.created = vs := privateTxHash_binds_created hC hvs hcircuit hop
  obtain ⟨ins, outs, hins, -, hd⟩ := privateTxHash_eq_some.mp hop
  obtain ⟨i, o, hi, -, hcommit⟩ := Crypto.privateTxHash_eq_some.mp hd
  obtain ⟨i', o', hi', -, hcommit'⟩ := Crypto.privateTxHash_eq_some.mp hcircuit
  obtain ⟨rfl, -, -⟩ := hC.privateTxCommit hcommit hcommit'
  exact ⟨reduceOption_eq_of_hashChain hC hins hus hi hi', hcreated⟩

/-- **One source in the circuit, one input in the transact.** If a circuit obtains the
transact's `private_tx_hash` from the one source hash `source`, the transact spends one UTXO
with that hash exactly if `source` is neither zero nor a chain value. -/
theorem spent_singleton_iff (hC : C.Ideal) {source blinding d : Fr} {outs : List Fr}
    (hcircuit : C.privateTxHash [source, 0] outs blinding = some d)
    (hop : op.privateTxHash C = some d) :
    (∃ u, op.spent = [u] ∧ C.utxoHash u = some source) ↔
      source ≠ 0 ∧ HashChain.IsLeaf C.node source := by
  constructor
  · rintro ⟨u, -, hu⟩
    refine ⟨?_, hC.utxoHash_ne_node hu⟩
    intro h0
    exact hC.utxoHash_ne_zero u (h0 ▸ hu)
  · rintro ⟨hne, hleaf⟩
    obtain ⟨ins, _, hins, -, hd⟩ := privateTxHash_eq_some.mp hop
    obtain ⟨i, _, hi, -, hcommit⟩ := Crypto.privateTxHash_eq_some.mp hd
    obtain ⟨i', _, hi', -, hcommit'⟩ := Crypto.privateTxHash_eq_some.mp hcircuit
    obtain ⟨rfl, -, -⟩ := hC.privateTxCommit hcommit hcommit'
    have hfilter : [source, 0].filter (· ≠ 0) = [source] := by simp [hne]
    have hleaves : ∀ h ∈ [source, 0], h ≠ 0 → HashChain.IsLeaf C.node h := by
      intro h hmem hh
      rcases List.mem_cons.mp hmem with rfl | hmem
      · exact hleaf
      · exact absurd (List.mem_singleton.mp hmem) hh
    -- both chains start at leaves, so they have the same entries
    have hentries : ins.filter (· ≠ 0) = [source] := by
      rw [← hfilter]
      exact HashChain.chain_inj hC.nodeInjective hC.isLeaf_zero (isLeaf_of_mem hC hins) hleaves
        hi hi'
    have hspent : op.spent.mapM C.utxoHash = some [source] := by
      rw [← hentries]
      exact mapM_reduceOption hC hins
    rcases hus : op.spent with _ | ⟨u, us⟩
    · rw [hus] at hspent
      cases hspent
    · rw [hus] at hspent
      simp only [List.mapM_cons, Option.bind_eq_bind, Option.bind_eq_some_iff, Option.pure_def,
        Option.some.injEq, List.cons.injEq] at hspent
      obtain ⟨h, hu, hs, hrest, rfl, rfl⟩ := hspent
      have hnil : us = [] := hC.utxoHash.mapM_inj hrest rfl
      exact ⟨u, by rw [hnil], hu⟩

end TxOpening

/-! ## SPP -/

/-- `signer` owns the spent UTXO with the nullifier secret of the spend. -/
def Spend.AuthorizedBy (C : Crypto) (sp : Spend) (signer : Address) : Prop :=
  ∃ npk, C.nullifierPubkey sp.nullifierSecret = some npk ∧
    C.ownerHash signer npk = some sp.utxo.owner

theorem Spend.AuthorizedBy.ownedBy {C : Crypto} {sp : Spend} {signer : Address}
    (h : sp.AuthorizedBy C signer) : C.OwnedBy signer sp.utxo := by
  obtain ⟨npk, -, h⟩ := h
  exact ⟨npk, h⟩

instance (C : Crypto) (sp : Spend) (signer : Address) : Decidable (sp.AuthorizedBy C signer) :=
  decidable_of_iff ((C.nullifierPubkey sp.nullifierSecret).bind (C.ownerHash signer) =
    some sp.utxo.owner) Option.bind_eq_some_iff

/-- The nullifier a spend publishes. -/
def Spend.nullifier (C : Crypto) (sp : Spend) : Option Fr := do
  let utxoHash ← C.utxoHash sp.utxo
  C.poseidon [utxoHash, sp.utxo.blinding, sp.nullifierSecret]

/-- The amount of an asset that a list of UTXOs holds. -/
def balance (us : List Utxo) (asset : Fr) : ℕ :=
  ((us.filter (·.asset = asset)).map (·.amount.val)).sum

theorem balance_eq_zero {us : List Utxo} {asset : Fr} (h : asset ∉ us.map (·.asset)) :
    balance us asset = 0 := by
  have hnil : us.filter (·.asset = asset) = [] := by
    rw [List.filter_eq_nil_iff]
    intro u hu heq
    exact h (List.mem_map.mpr ⟨u, hu, of_decide_eq_true heq⟩)
  rw [balance, hnil]
  rfl

/-- The entry a published word stands for. -/
def Publishes (word : Bytes 32) (x : Option Fr) : Prop := ∃ h, x = some h ∧ Fr.ofBytes word = some h

instance (word : Bytes 32) (x : Option Fr) : Decidable (Publishes word x) :=
  decidable_of_iff (x.isSome ∧ Fr.ofBytes word = x) <| by
    rw [Option.isSome_iff_exists]
    constructor
    · rintro ⟨⟨h, rfl⟩, hw⟩
      exact ⟨h, rfl, hw⟩
    · rintro ⟨h, rfl, hw⟩
      exact ⟨⟨h, rfl⟩, hw⟩

/-- SPP commits the opening: the published nullifiers, output hashes and `private_tx_hash`
are those of the opened UTXOs. The nullifier of a dummy input is arbitrary. -/
structure SppCommits (C : Crypto) (t : TransactIxData) (op : TxOpening) : Prop where
  nullifiers : List.Forall₂ (fun i sp => ∀ s ∈ sp, Publishes i.nullifierHash (Spend.nullifier C s))
    t.inputs op.inputs
  outputs : List.Forall₂ (fun o u => Publishes o.utxoHash (TxOpening.slotHash C u))
    t.outputs op.outputs
  privateTxHash : Publishes t.privateTxHash (op.privateTxHash C)

instance (C : Crypto) (t : TransactIxData) (op : TxOpening) : Decidable (SppCommits C t op) :=
  decidable_of_iff
    (List.Forall₂ (fun i sp => ∀ s ∈ sp, Publishes i.nullifierHash (Spend.nullifier C s))
        t.inputs op.inputs ∧
      List.Forall₂ (fun o u => Publishes o.utxoHash (TxOpening.slotHash C u)) t.outputs
        op.outputs ∧
      Publishes t.privateTxHash (op.privateTxHash C))
    ⟨fun ⟨h1, h2, h3⟩ => ⟨h1, h2, h3⟩, fun ⟨h1, h2, h3⟩ => ⟨h1, h2, h3⟩⟩

/-- The transact that publishes an opening, the hashes that are undefined as zero; all its
outputs carry `data`. -/
def TxOpening.publish (C : Crypto) (op : TxOpening) (expiryUnixTs : UInt64)
    (data : Option (List UInt8)) (messages : List MessageData) : TransactIxData where
  expiryUnixTs := expiryUnixTs
  privateTxHash := ((op.privateTxHash C).getD 0).toBytes
  circuit := []
  txViewingPk := Bytes.replicate 33 0
  salt := Bytes.replicate 16 0
  proof := []
  inputs := op.inputs.map fun sp => ⟨((sp.bind (Spend.nullifier C)).getD 0).toBytes⟩
  interfaceTransfers := []
  dataHash := none
  ringDataHash := none
  outputs := op.outputs.map fun u => ⟨((TxOpening.slotHash C u).getD 0).toBytes, [], data⟩
  messages := messages
  treeContexts := []

namespace SppCommits

variable {C : Crypto} {t : TransactIxData} {op : TxOpening}

/-- The published `private_tx_hash` is the one of the opening. -/
theorem privateTxHash_eq (h : SppCommits C t op) {d : Fr}
    (hd : Fr.ofBytes t.privateTxHash = some d) : op.privateTxHash C = some d := by
  obtain ⟨d', hop, hword⟩ := h.privateTxHash
  rw [hop, ← hword, hd]

/-- `TxOpening.privateTxHash_binds` for a transact that SPP commits. -/
theorem binds (hC : C.Ideal) (h : SppCommits C t op) {us vs : List Utxo} {d blinding : Fr}
    (hd : Fr.ofBytes t.privateTxHash = some d)
    (hcircuit : ∃ ins outs, us.mapM C.utxoHash = some ins ∧ vs.mapM C.utxoHash = some outs ∧
      C.privateTxHash ins outs blinding = some d) :
    op.spent = us ∧ op.created = vs := by
  obtain ⟨ins, outs, hins, houts, hp⟩ := hcircuit
  exact TxOpening.privateTxHash_binds hC hins houts hp (h.privateTxHash_eq hd)

/-- `TxOpening.privateTxHash_binds_created` for a transact that SPP commits. -/
theorem binds_created (hC : C.Ideal) (h : SppCommits C t op) {vs : List Utxo} {inputs : List Fr}
    {d blinding : Fr} (hd : Fr.ofBytes t.privateTxHash = some d)
    (hcircuit : ∃ outs, vs.mapM C.utxoHash = some outs ∧
      C.privateTxHash inputs outs blinding = some d) : op.created = vs := by
  obtain ⟨outs, houts, hp⟩ := hcircuit
  exact TxOpening.privateTxHash_binds_created hC houts hp (h.privateTxHash_eq hd)

/-- The hash of every created UTXO is published with an output. -/
theorem exists_output (h : SppCommits C t op) {u : Utxo} (hu : u ∈ op.created) :
    ∃ o ∈ t.outputs, ∃ hash, C.utxoHash u = some hash ∧ o.utxoHash = hash.toBytes := by
  have hslot : some u ∈ op.outputs := List.reduceOption_mem_iff.mp hu
  obtain ⟨i, hi, hget⟩ := List.getElem_of_mem hslot
  have hlen : i < t.outputs.length := h.outputs.length_eq ▸ hi
  obtain ⟨hash, hhash, hword⟩ := h.outputs.get hlen hi
  have hslotHash : TxOpening.slotHash C (some u) = some hash := by
    rw [← hget]
    exact hhash
  exact ⟨t.outputs[i], List.getElem_mem hlen, hash, hslotHash, (Fr.toBytes_of_ofBytes hword).symm⟩

/-- The first two outputs of a transact publish the first two entries of its opening. -/
theorem exists_two_slots (h : SppCommits C t op) {first second : TransactOutput}
    {rest : List TransactOutput} (hlist : t.outputs = first :: second :: rest) :
    ∃ slot slot' slots, op.outputs = slot :: slot' :: slots ∧
      Publishes first.utxoHash (TxOpening.slotHash C slot) ∧
      Publishes second.utxoHash (TxOpening.slotHash C slot') := by
  have houtputs := h.outputs
  rw [hlist] at houtputs
  obtain ⟨slot, tail, hfirst, htail, hslot⟩ := List.forall₂_cons_left_iff.mp houtputs
  obtain ⟨slot', slots, hsecond, -, hslot'⟩ := List.forall₂_cons_left_iff.mp htail
  exact ⟨slot, slot', slots, by rw [hslot, hslot'], hfirst, hsecond⟩

end SppCommits

/-- SPP accepts the transact with this opening on this ledger, under these signers. -/
structure SppAccepts (C : Crypto) (ledger : Ledger Utxo) (signers : List Address)
    (t : TransactIxData) (op : TxOpening) : Prop where
  commits : SppCommits C t op
  nodup : op.spent.Nodup
  unspent : ∀ u ∈ op.spent, u ∈ ledger.unspent
  signed : ∀ sp, some sp ∈ op.inputs → ∃ s ∈ signers, sp.AuthorizedBy C s
  conserved : ∀ asset, balance op.spent asset = balance op.created asset

/-- Conservation is a question about the assets that occur. -/
theorem conserved_iff {us vs : List Utxo} :
    (∀ u ∈ us ++ vs, balance us u.asset = balance vs u.asset) ↔
      ∀ asset, balance us asset = balance vs asset := by
  refine ⟨fun h asset => ?_, fun h u _ => h u.asset⟩
  by_cases hmem : asset ∈ (us ++ vs).map (·.asset)
  · obtain ⟨u, hu, rfl⟩ := List.mem_map.mp hmem
    exact h u hu
  · rw [List.map_append, List.mem_append, not_or] at hmem
    rw [balance_eq_zero hmem.1, balance_eq_zero hmem.2]

instance (C : Crypto) (ledger : Ledger Utxo) (signers : List Address) (t : TransactIxData)
    (op : TxOpening) : Decidable (SppAccepts C ledger signers t op) :=
  decidable_of_iff
    (SppCommits C t op ∧ op.spent.Nodup ∧ (∀ u ∈ op.spent, u ∈ ledger.leaves) ∧
      (∀ u ∈ op.spent, u ∉ ledger.nullified) ∧
      (∀ slot ∈ op.inputs, ∀ sp ∈ slot, ∃ s ∈ signers, sp.AuthorizedBy C s) ∧
      ∀ u ∈ op.spent ++ op.created,
        balance op.spent u.asset = balance op.created u.asset) <| by
    constructor
    · rintro ⟨hcommits, hnodup, hleaves, hnullified, hsigned, hconserved⟩
      exact ⟨hcommits, hnodup, fun u hu => Ledger.mem_unspent.mpr ⟨hleaves u hu, hnullified u hu⟩,
        fun sp hsp => hsigned _ hsp sp rfl, conserved_iff.mp hconserved⟩
    · rintro ⟨hcommits, hnodup, hunspent, hsigned, hconserved⟩
      refine ⟨hcommits, hnodup, fun u hu => (Ledger.mem_unspent.mp (hunspent u hu)).1,
        fun u hu => (Ledger.mem_unspent.mp (hunspent u hu)).2, ?_, conserved_iff.mpr hconserved⟩
      rintro slot hslot sp rfl
      exact hsigned sp hslot

namespace SppAccepts

variable {C : Crypto} {ledger : Ledger Utxo} {signers : List Address} {t : TransactIxData}
  {op : TxOpening}

/-- Every spent UTXO belongs to a signer. -/
theorem exists_signer (h : SppAccepts C ledger signers t op) {u : Utxo} (hu : u ∈ op.spent) :
    ∃ s ∈ signers, C.OwnedBy s u := by
  rw [TxOpening.spent, List.reduceOption_mem_iff, List.mem_map] at hu
  obtain ⟨slot, hslot, heq⟩ := hu
  cases slot with
  | none => simp at heq
  | some sp =>
      obtain ⟨s, hs, hauth⟩ := h.signed sp hslot
      obtain rfl : sp.utxo = u := Option.some.inj heq
      exact ⟨s, hs, hauth.ownedBy⟩

end SppAccepts

/-! ## The CPI -/

/-- `spr_program::cpi::TransactAccountsError`. -/
inductive TransactAccountsError
  | invalidSppProgram
  | missingPdaSigner
  | notEnoughAccounts
  deriving DecidableEq

/-- The runtime and the SPP client library, as the programs call them. -/
structure Runtime where
  /-- `Address::find_program_address(seeds, program_id)`. -/
  findProgramAddress : List (List UInt8) → Address → Address × UInt8
  /-- `SppTransactAccounts::new`. -/
  sppTransactAccounts : List AccountView → List Address → Except TransactAccountsError Unit
  /-- `TransactIxData::serialize`, and what SPP reads. -/
  transact : Codec TransactIxData

/-- The runtime with one PDA, a client that asks for the PDAs among the accounts, and the codec
of finitely many transacts. -/
def Runtime.tabulate (authority : Address) (transacts : List TransactIxData) : Runtime where
  findProgramAddress _ _ := (authority, 255)
  sppTransactAccounts accounts pdas :=
    if ∀ pda ∈ pdas, pda ∈ accounts.map (·.address) then .ok () else .error .missingPdaSigner
  transact := Codec.tabulate transacts

/-- The CPI a program makes into SPP. -/
structure Cpi where
  accounts : List AccountView
  data : List UInt8
  pdaSigners : List Address
  deriving DecidableEq

/-- The keys that sign inside the CPI: the outer signers among the forwarded accounts, and
the PDAs of the calling program. -/
def Cpi.signers (cpi : Cpi) : List Address :=
  (cpi.accounts.filter (·.isSigner)).map (·.address) ++ cpi.pdaSigners

/-- `cpi_spp_transact_signed`, with the program's id, PDA seed and error mapping. -/
def cpiSppTransactSigned (rt : Runtime) (programId : Address) (seed : List UInt8)
    (transactAccountsError : TransactAccountsError → ProgramError)
    (sppAccounts : List AccountView) (transactBytes : List UInt8) : ProgramResult Cpi :=
  let (authority, _bump) := rt.findProgramAddress [seed] programId
  match rt.sppTransactAccounts sppAccounts [authority] with
  | .error e => .error (transactAccountsError e)
  | .ok () => .ok ⟨sppAccounts, transactBytes, [authority]⟩

theorem cpiSppTransactSigned_eq_ok {rt : Runtime} {programId : Address} {seed : List UInt8}
    {err : TransactAccountsError → ProgramError} {accounts : List AccountView}
    {bytes : List UInt8} {cpi : Cpi} :
    cpiSppTransactSigned rt programId seed err accounts bytes = .ok cpi ↔
      rt.sppTransactAccounts accounts [(rt.findProgramAddress [seed] programId).1] = .ok () ∧
        cpi = ⟨accounts, bytes, [(rt.findProgramAddress [seed] programId).1]⟩ := by
  simp only [cpiSppTransactSigned]
  split
  · rename_i e he
    simp [he]
  · rename_i he
    simp [he, eq_comm]

/-- The transact that SPP reads from the CPI. -/
def Cpi.Transact (rt : Runtime) (cpi : Cpi) (t : TransactIxData) : Prop :=
  rt.transact.deserializeExact cpi.data = some t

/-- What every instruction ends with: the transact is serialized and sent to SPP with the
accounts that are left, through the program's own `cpi_spp_transact_signed`. -/
def forward (rt : Runtime) (error : ProgramError)
    (cpiSppTransactSigned : List AccountView → List UInt8 → ProgramResult Cpi)
    (iter : AccountIterator) (transact : TransactIxData) : ProgramResult Cpi := do
  let transactBytes ← okOr (rt.transact.serialize transact) error
  let sppAccounts ← iter.remaining
  cpiSppTransactSigned sppAccounts transactBytes

theorem forward_eq_ok {rt : Runtime} {error : ProgramError} {programId : Address}
    {seed : List UInt8} {err : TransactAccountsError → ProgramError} {iter : AccountIterator}
    {transact : TransactIxData} {cpi : Cpi} :
    forward rt error (cpiSppTransactSigned rt programId seed err) iter transact = .ok cpi ↔
      ∃ bytes, rt.transact.serialize transact = some bytes ∧ iter ≠ [] ∧
        rt.sppTransactAccounts iter [(rt.findProgramAddress [seed] programId).1] = .ok () ∧
        cpi = ⟨iter, bytes, [(rt.findProgramAddress [seed] programId).1]⟩ := by
  simp only [forward, bind_eq_ok, okOr_eq_ok, AccountIterator.remaining_eq_ok,
    cpiSppTransactSigned_eq_ok]
  constructor
  · rintro ⟨bytes, hbytes, accounts, ⟨rfl, hne⟩, hspp, hcpi⟩
    exact ⟨bytes, hbytes, hne, hspp, hcpi⟩
  · rintro ⟨bytes, hbytes, hne, hspp, hcpi⟩
    exact ⟨bytes, hbytes, iter, ⟨rfl, hne⟩, hspp, hcpi⟩

/-- The CPI carries the transact it was given, the accounts left over, and the signature of
the authority. -/
structure Forwards (rt : Runtime) (authority : Address) (iter : AccountIterator)
    (transact : TransactIxData) (cpi : Cpi) : Prop where
  accounts : cpi.accounts = iter
  pdaSigners : cpi.pdaSigners = [authority]
  transact : ∀ {t}, cpi.Transact rt t → t = transact

theorem forwards_of_forward {rt : Runtime} (hrt : rt.transact.RoundTrips) {error : ProgramError}
    {programId : Address} {seed : List UInt8} {err : TransactAccountsError → ProgramError}
    {iter : AccountIterator} {transact : TransactIxData} {cpi : Cpi}
    (h : forward rt error (cpiSppTransactSigned rt programId seed err) iter transact = .ok cpi) :
    Forwards rt (rt.findProgramAddress [seed] programId).1 iter transact cpi := by
  obtain ⟨bytes, hbytes, -, -, rfl⟩ := forward_eq_ok.mp h
  refine ⟨rfl, rfl, fun {t} ht => ?_⟩
  have hread : rt.transact.deserializeExact bytes = some transact := hrt hbytes
  exact Option.some.inj (ht.symm.trans hread)

end Zolana
