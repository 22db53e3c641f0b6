import Zolana.Spp.Crypto

set_option autoImplicit false

/-! # The timelock escrow circuits

`prover/circuits` of the escrow program: the escrow terms and the circuits `escrow` and
`withdraw`, each with the proposition that a satisfying witness fulfils.
-/

namespace Zolana.TimelockEscrow

open Gnark

/-! ## Escrow terms

`escrowterms.go`. -/

/-- `escrowterms.EscrowTerms`. -/
structure EscrowTerms where
  ownerHash : Fr
  unlock : Fr
  deriving DecidableEq

/-- `EscrowTerms.DataHash`. -/
def EscrowTerms.dataHash (C : Crypto) (terms : EscrowTerms) : Option Fr :=
  C.poseidon [terms.ownerHash, terms.unlock]

theorem EscrowTerms.dataHash_inj {C : Crypto} (hC : C.Ideal) {terms terms' : EscrowTerms} {d : Fr}
    (h : terms.dataHash C = some d) (h' : terms'.dataHash C = some d) : terms = terms' := by
  have hlist : [terms.ownerHash, terms.unlock] = [terms'.ownerHash, terms'.unlock] :=
    hC.poseidon h h'
  simp only [List.cons.injEq, and_true] at hlist
  cases terms
  cases terms'
  simpa using hlist

/-- The UTXO carries the terms: their hash as data, default ring fields, a nonzero amount. -/
structure CarriesTerms (C : Crypto) (u : Utxo) (terms : EscrowTerms) : Prop where
  defaultRing : u.DefaultRing
  dataHash : terms.dataHash C = some u.dataHash
  amount_ne : u.amount ≠ 0

theorem CarriesTerms.dataHash_ne_zero {C : Crypto} (hC : C.Ideal) {u : Utxo}
    {terms : EscrowTerms} (h : CarriesTerms C u terms) : u.dataHash ≠ 0 := by
  intro h0
  have hzero : C.poseidon [terms.ownerHash, terms.unlock] = some 0 := h0 ▸ h.dataHash
  exact hC.poseidon_ne_zero _ hzero

/-! ## Escrow

`escrow.go`. -/

namespace Escrow

/-- `escrow.Circuit`. -/
structure Circuit where
  privateTxHash : Fr
  terms : EscrowTerms
  escrowUtxo : Utxo
  change : Utxo
  sourceInputHash : Fr
  privateTxBlinding : Fr
  deriving DecidableEq

namespace Circuit

variable (C : Crypto) (c : Circuit)

/-- `checkEscrowOutputUtxo`. -/
def checkEscrowOutputUtxo : Option Fr := do
  let dataHash ← c.terms.dataHash C
  C.checkDataUtxo c.escrowUtxo dataHash

/-- `checkChangeOutputUtxo`. -/
def checkChangeOutputUtxo : Option Fr :=
  C.checkPlainUtxo c.change c.escrowUtxo.asset none (some c.terms.ownerHash)

/-- `Circuit.Define`. -/
def define : Option Unit := do
  let escrowOutputUtxoHash ← c.checkEscrowOutputUtxo C
  let changeOutputUtxoHash ← c.checkChangeOutputUtxo C
  -- as in a make, the source input is any hash
  let privateTxHash ← C.privateTxHash [c.sourceInputHash, 0]
    [changeOutputUtxoHash, escrowOutputUtxoHash] c.privateTxBlinding
  assertIsEqual privateTxHash c.privateTxHash

/-- What a satisfying witness fulfils. -/
structure Satisfied : Prop where
  escrow : CarriesTerms C c.escrowUtxo c.terms
  change : c.change.Dataless
  change_asset : c.change.asset = c.escrowUtxo.asset
  change_owner : c.change.owner = c.terms.ownerHash
  privateTxHash : ∃ outs, [c.change, c.escrowUtxo].mapM C.utxoHash = some outs ∧
    C.privateTxHash [c.sourceInputHash, 0] outs c.privateTxBlinding = some c.privateTxHash

variable {C c}

theorem define_eq_some {u : Unit} : c.define C = some u ↔ c.Satisfied C := by
  simp only [define, checkEscrowOutputUtxo, checkChangeOutputUtxo, Option.bind_eq_bind,
    Option.bind_eq_some_iff, Crypto.checkDataUtxo_eq_some, Crypto.checkPlainUtxo_eq_some,
    assertIsEqual_eq_some]
  constructor
  · rintro ⟨he, ⟨d, hd, hring, rfl, hne, hh⟩, hc, ⟨hplain, hasset, -, howner, hch⟩, p, hp, rfl⟩
    refine ⟨⟨hring, hd, hne⟩, hplain, hasset, howner _ rfl, [hc, he], ?_, hp⟩
    simp [hh, hch]
  · rintro ⟨⟨hring, hdata, hne⟩, hplain, hasset, howner, outs, houts, hp⟩
    simp only [List.mapM_cons, List.mapM_nil, Option.bind_eq_bind, Option.bind_eq_some_iff,
      Option.pure_def, Option.some.injEq] at houts
    obtain ⟨hc, hch, _, ⟨he, hh, _, rfl, rfl⟩, rfl⟩ := houts
    exact ⟨he, ⟨_, hdata, hring, rfl, hne, hh⟩, hc,
      ⟨hplain, hasset, by simp, by simp [howner], hch⟩, _, hp, rfl⟩

end Circuit

end Escrow

/-! ## Withdraw

`withdraw.go`. -/

namespace Withdraw

/-- `withdraw.PublicInputs`. -/
structure PublicInputs where
  publicInputHash : Fr
  privateTxHash : Fr
  deriving DecidableEq

/-- `PublicInputs.Check`. -/
def PublicInputs.check (C : Crypto) (p : PublicInputs) (unlock ownerPkField : Fr) :
    Option Unit := do
  let publicInputHash ← C.poseidon [p.privateTxHash, unlock, ownerPkField]
  assertIsEqual p.publicInputHash publicInputHash

/-- `withdraw.Circuit`. -/
structure Circuit where
  pub : PublicInputs
  terms : EscrowTerms
  escrowUtxo : Utxo
  sourceOutput : Utxo
  ownerPkField : Fr
  nullifierPk : Fr
  privateTxBlinding : Fr
  deriving DecidableEq

namespace Circuit

variable (C : Crypto) (c : Circuit)

/-- `checkEscrowInputUtxo`. -/
def checkEscrowInputUtxo : Option Fr := do
  let dataHash ← c.terms.dataHash C
  C.checkDataUtxo c.escrowUtxo dataHash

/-- `checkSourceOutputUtxo`. -/
def checkSourceOutputUtxo : Option Fr :=
  C.checkPlainUtxo c.sourceOutput c.escrowUtxo.asset (some c.escrowUtxo.amount)
    (some c.terms.ownerHash)

/-- `checkOwnerAuthorization`. -/
def checkOwnerAuthorization : Option Unit := do
  let recomputedOwnerHash ← C.poseidon [c.ownerPkField, c.nullifierPk]
  assertIsEqual recomputedOwnerHash c.terms.ownerHash

/-- `Circuit.Define`. -/
def define : Option Unit := do
  let escrowInputUtxoHash ← c.checkEscrowInputUtxo C
  let sourceOutputUtxoHash ← c.checkSourceOutputUtxo C
  c.checkOwnerAuthorization C
  let privateTxHash ← C.privateTxHash [escrowInputUtxoHash] [sourceOutputUtxoHash]
    c.privateTxBlinding
  assertIsEqual privateTxHash c.pub.privateTxHash
  c.pub.check C c.terms.unlock c.ownerPkField

/-- What a satisfying witness fulfils. -/
structure Satisfied : Prop where
  escrow : CarriesTerms C c.escrowUtxo c.terms
  sourceOutput : Pays c.sourceOutput c.escrowUtxo.asset c.escrowUtxo.amount c.terms.ownerHash
  owner : C.poseidon [c.ownerPkField, c.nullifierPk] = some c.terms.ownerHash
  privateTxHash : ∃ ins outs, [c.escrowUtxo].mapM C.utxoHash = some ins ∧
    [c.sourceOutput].mapM C.utxoHash = some outs ∧
    C.privateTxHash ins outs c.privateTxBlinding = some c.pub.privateTxHash
  publicInputHash : C.poseidon [c.pub.privateTxHash, c.terms.unlock, c.ownerPkField] =
    some c.pub.publicInputHash

variable {C c}

theorem define_eq_some {u : Unit} : c.define C = some u ↔ c.Satisfied C := by
  simp only [define, checkEscrowInputUtxo, checkSourceOutputUtxo, checkOwnerAuthorization,
    PublicInputs.check, Option.bind_eq_bind, Option.bind_eq_some_iff,
    Crypto.checkDataUtxo_eq_some, Crypto.checkPlainUtxo_some_some_eq_some, assertIsEqual_eq_some,
    exists_const]
  constructor
  · rintro ⟨he, ⟨d, hd, hring, rfl, hne, hh⟩, hs, ⟨hsp, hsh⟩, ⟨w, hw, rfl⟩, p, hp, rfl, q, hq, heq⟩
    refine ⟨⟨hring, hd, hne⟩, hsp, hw, ⟨[he], [hs], ?_, ?_, hp⟩, by rw [heq, hq]⟩
    · simp [hh]
    · simp [hsh]
  · rintro ⟨⟨hring, hdata, hne⟩, hsp, hw, ⟨ins, outs, hins, houts, hp⟩, hq⟩
    simp only [List.mapM_cons, List.mapM_nil, Option.bind_eq_bind, Option.bind_eq_some_iff,
      Option.pure_def, Option.some.injEq] at hins houts
    obtain ⟨he, hh, _, rfl, rfl⟩ := hins
    obtain ⟨hs, hsh, _, rfl, rfl⟩ := houts
    exact ⟨he, ⟨_, hdata, hring, rfl, hne, hh⟩, hs, ⟨hsp, hsh⟩, ⟨_, hw, rfl⟩, _, hp, rfl, _, hq, rfl⟩

end Circuit

end Withdraw

/-! ## The statements the verifying keys are set up for -/

/-- `CircuitId`. -/
inductive CircuitId
  | escrow
  | withdraw
  deriving DecidableEq

/-- The circuit has a satisfying witness with this public input. -/
def relation (C : Crypto) : CircuitId → Fr → Prop
  | .escrow, x => ∃ w : Escrow.Circuit, w.privateTxHash = x ∧ w.define C = some ()
  | .withdraw, x => ∃ w : Withdraw.Circuit, w.pub.publicInputHash = x ∧ w.define C = some ()

end Zolana.TimelockEscrow
