import Zolana.Spp.Crypto

set_option autoImplicit false

/-! # The swap circuits

`prover/circuits`: the order terms and the four circuits `make`, `take`,
`take_verifiable_encryption` and `cancel`. Every `define` follows the Go `Define` line by
line; next to it stands the proposition that a satisfying witness fulfils (`Satisfied`) and
the equivalence of the two.
-/

namespace Zolana.Swap

open Gnark

/-! ## Order terms

`orderterms.go`. -/

/-- `TakeModeDerived`. -/
def takeModeDerived : Fr := 0

/-- `TakeModeVerifiable`. -/
def takeModeVerifiable : Fr := 1

/-- `TakeEncKdfDomain`. -/
def takeEncKdfDomain : Fr := 0x5357415054414b45

/-- `orderterms.OrderTerms`. -/
structure OrderTerms where
  destinationAsset : Fr
  destinationAmount : Fr
  makerOwnerHash : Fr
  makerViewingPk : {vars : List Fr // vars.length = 33}
  expiry : Fr
  takerPkFe : Fr
  takeMode : Fr
  deriving DecidableEq

namespace OrderTerms

variable (C : Crypto) (o : OrderTerms)

/-- `OrderTerms.Check`. -/
def check : Option Unit := do
  assertIsDifferent o.destinationAmount 0
  toBinary o.destinationAmount 64
  assertIsBoolean o.takeMode

/-- `OrderTerms.MakerAddressFE`. -/
def makerAddressFE : Option Fr := do
  let viewingKeyHash ← C.gnarkHashBytes o.makerViewingPk.1
  C.poseidon [o.makerOwnerHash, viewingKeyHash]

/-- `OrderTerms.DataHash`. -/
def dataHash (makerAddressFe : Fr) : Option Fr :=
  C.poseidon [o.destinationAsset, o.destinationAmount, makerAddressFe, o.expiry, o.takerPkFe,
    o.takeMode]

/-- The hash of the terms, the data hash under their own maker address. -/
def hash : Option Fr := do
  let makerAddressFe ← o.makerAddressFE C
  o.dataHash C makerAddressFe

/-- What `check` establishes. -/
structure WellFormed : Prop where
  destinationAmount_ne : o.destinationAmount ≠ 0
  destinationAmount_lt : o.destinationAmount.val < 2 ^ 64
  takeMode : o.takeMode = 0 ∨ o.takeMode = 1

variable {C o}

theorem check_eq_some {u : Unit} : o.check = some u ↔ o.WellFormed := by
  simp only [check, Option.bind_eq_bind, Option.bind_eq_some_iff, assertIsDifferent_eq_some,
    toBinary_eq_some, assertIsBoolean_eq_some, exists_const]
  constructor
  · rintro ⟨hne, hlt, hmode⟩
    exact ⟨hne, hlt, hmode⟩
  · rintro ⟨hne, hlt, hmode⟩
    exact ⟨hne, hlt, hmode⟩

theorem hash_eq_some {h : Fr} :
    o.hash C = some h ↔ ∃ a, o.makerAddressFE C = some a ∧ o.dataHash C a = some h := by
  simp [hash, Option.bind_eq_some_iff]

theorem makerAddressFE_eq_some {a : Fr} :
    o.makerAddressFE C = some a ↔
      ∃ v, C.gnarkHashBytes o.makerViewingPk.1 = some v ∧
        C.poseidon [o.makerOwnerHash, v] = some a := by
  simp [makerAddressFE, Option.bind_eq_some_iff]

/-- **The terms hash binds the terms.** Terms with one hash agree in every field the
circuits constrain; the viewing key is bound up to its own hash. -/
theorem hash_inj (hposeidon : Oracle.CollisionFree C.poseidon) {o' : OrderTerms} {h : Fr}
    (ho : o.hash C = some h) (ho' : o'.hash C = some h) :
    o.destinationAsset = o'.destinationAsset ∧ o.destinationAmount = o'.destinationAmount ∧
      o.makerOwnerHash = o'.makerOwnerHash ∧ o.expiry = o'.expiry ∧
      o.takerPkFe = o'.takerPkFe ∧ o.takeMode = o'.takeMode := by
  obtain ⟨a, ha, hd⟩ := hash_eq_some.mp ho
  obtain ⟨a', ha', hd'⟩ := hash_eq_some.mp ho'
  have hlist := hposeidon hd hd'
  simp only [List.cons.injEq, and_true] at hlist
  obtain ⟨hasset, hamount, rfl, hexpiry, htaker, hmode⟩ := hlist
  -- the maker's owner hash sits one hash deeper, in the address
  obtain ⟨v, -, hv⟩ := makerAddressFE_eq_some.mp ha
  obtain ⟨v', -, hv'⟩ := makerAddressFE_eq_some.mp ha'
  have howner := hposeidon hv hv'
  simp only [List.cons.injEq, and_true] at howner
  exact ⟨hasset, hamount, howner.1, hexpiry, htaker, hmode⟩

theorem hash_ne_zero (hC : C.Ideal) {h : Fr} (ho : o.hash C = some h) : h ≠ 0 := by
  obtain ⟨a, -, hd⟩ := hash_eq_some.mp ho
  intro h0
  exact hC.poseidon_ne_zero _ (h0 ▸ hd)

end OrderTerms

/-- The UTXO carries the terms: their hash as data, default ring fields, a nonzero amount. -/
structure CarriesTerms (C : Crypto) (u : Utxo) (o : OrderTerms) : Prop where
  defaultRing : u.DefaultRing
  dataHash : o.hash C = some u.dataHash
  amount_ne : u.amount ≠ 0

/-! ## Make

`make.go`. -/

namespace Make

/-- `make.Circuit`. -/
structure Circuit where
  privateTxHash : Fr
  order : OrderTerms
  orderUtxo : Utxo
  change : Utxo
  sourceInputHash : Fr
  privateTxBlinding : Fr
  deriving DecidableEq

namespace Circuit

variable (C : Crypto) (c : Circuit)

/-- `checkOrderOutputUtxo`. -/
def checkOrderOutputUtxo (makerAddressFe : Fr) : Option Fr := do
  let dataHash ← c.order.dataHash C makerAddressFe
  C.checkDataUtxo c.orderUtxo dataHash

/-- `checkChangeOutputUtxo`. -/
def checkChangeOutputUtxo : Option Fr :=
  C.checkPlainUtxo c.change c.orderUtxo.asset none (some c.order.makerOwnerHash)

/-- `Circuit.Define`. -/
def define : Option Unit := do
  c.order.check
  let makerAddressFe ← c.order.makerAddressFE C
  let orderOutputUtxoHash ← c.checkOrderOutputUtxo C makerAddressFe
  let changeOutputUtxoHash ← c.checkChangeOutputUtxo C
  -- the source input enters by its hash alone, and that hash is a free witness
  let privateTxHash ← C.privateTxHash [c.sourceInputHash, 0]
    [changeOutputUtxoHash, orderOutputUtxoHash] c.privateTxBlinding
  assertIsEqual privateTxHash c.privateTxHash

/-- What a satisfying witness fulfils. -/
structure Satisfied : Prop where
  wellFormed : c.order.WellFormed
  order : CarriesTerms C c.orderUtxo c.order
  change : c.change.Dataless
  change_asset : c.change.asset = c.orderUtxo.asset
  change_owner : c.change.owner = c.order.makerOwnerHash
  privateTxHash : ∃ outs, [c.change, c.orderUtxo].mapM C.utxoHash = some outs ∧
    C.privateTxHash [c.sourceInputHash, 0] outs c.privateTxBlinding = some c.privateTxHash

variable {C c}

theorem define_eq_some {u : Unit} : c.define C = some u ↔ c.Satisfied C := by
  simp only [define, checkOrderOutputUtxo, checkChangeOutputUtxo, Option.bind_eq_bind,
    Option.bind_eq_some_iff, OrderTerms.check_eq_some, Crypto.checkDataUtxo_eq_some,
    Crypto.checkPlainUtxo_eq_some, assertIsEqual_eq_some, exists_const]
  constructor
  · rintro ⟨hwf, a, ha, ho, ⟨d, hd, hring, rfl, hne, hh⟩, hc, ⟨hplain, hasset, -, howner, hch⟩, p,
      hp, rfl⟩
    refine ⟨hwf, ⟨hring, OrderTerms.hash_eq_some.mpr ⟨a, ha, hd⟩, hne⟩, hplain, hasset,
      howner _ rfl, [hc, ho], ?_, hp⟩
    simp [hh, hch]
  · rintro ⟨hwf, ⟨hring, hdata, hne⟩, hplain, hasset, howner, outs, houts, hp⟩
    obtain ⟨a, ha, hd⟩ := OrderTerms.hash_eq_some.mp hdata
    simp only [List.mapM_cons, List.mapM_nil, Option.bind_eq_bind, Option.bind_eq_some_iff,
      Option.pure_def, Option.some.injEq] at houts
    obtain ⟨hc, hch, _, ⟨ho, hh, _, rfl, rfl⟩, rfl⟩ := houts
    exact ⟨hwf, a, ha, ho, ⟨_, hd, hring, rfl, hne, hh⟩, hc,
      ⟨hplain, hasset, by simp, by simp [howner], hch⟩, _, hp, rfl⟩

end Circuit

end Make

/-! ## Take

`take.go`. -/

namespace Take

/-- `blindingSeedDomain`, the ASCII bytes `SWTX`. -/
def blindingSeedDomain : Fr := 0x53575458

/-- `take.Core`. -/
structure Core where
  order : OrderTerms
  orderUtxo : Utxo
  takerIn : Utxo
  sourceOutput : Utxo
  destinationOutput : Utxo
  privateTxBlinding : Fr
  deriving DecidableEq

namespace Core

variable (C : Crypto) (f : Core)

/-- `checkOrderInputUtxo`. -/
def checkOrderInputUtxo (makerAddressFe : Fr) : Option Fr := do
  let dataHash ← f.order.dataHash C makerAddressFe
  C.checkDataUtxo f.orderUtxo dataHash

/-- `checkTakerInputUtxo`. -/
def checkTakerInputUtxo : Option Fr :=
  C.checkPlainUtxo f.takerIn f.order.destinationAsset (some f.order.destinationAmount) none

/-- `checkSourceOutputUtxo`. -/
def checkSourceOutputUtxo : Option Fr :=
  C.checkPlainUtxo f.sourceOutput f.orderUtxo.asset (some f.orderUtxo.amount)
    (some f.takerIn.owner)

/-- `checkDestinationOutputUtxo`. -/
def checkDestinationOutputUtxo : Option Fr :=
  C.checkPlainUtxo f.destinationOutput f.order.destinationAsset (some f.order.destinationAmount)
    (some f.order.makerOwnerHash)

/-- `Core.Check`. -/
def check (privateTxHash : Fr) : Option Unit := do
  f.order.check
  let makerAddressFe ← f.order.makerAddressFE C
  let orderInputUtxoHash ← f.checkOrderInputUtxo C makerAddressFe
  -- asset, amount and data of the payment are fixed here, its owner is not
  let takerInputUtxoHash ← f.checkTakerInputUtxo C
  let sourceOutputUtxoHash ← f.checkSourceOutputUtxo C
  let destinationOutputUtxoHash ← f.checkDestinationOutputUtxo C
  let recomputedPrivateTxHash ← C.privateTxHash [orderInputUtxoHash, takerInputUtxoHash]
    [sourceOutputUtxoHash, destinationOutputUtxoHash] f.privateTxBlinding
  assertIsEqual recomputedPrivateTxHash privateTxHash

/-- What `check` establishes. -/
structure Satisfied (privateTxHash : Fr) : Prop where
  wellFormed : f.order.WellFormed
  order : CarriesTerms C f.orderUtxo f.order
  takerIn : Pays f.takerIn f.order.destinationAsset f.order.destinationAmount f.takerIn.owner
  sourceOutput : Pays f.sourceOutput f.orderUtxo.asset f.orderUtxo.amount f.takerIn.owner
  destinationOutput : Pays f.destinationOutput f.order.destinationAsset f.order.destinationAmount
    f.order.makerOwnerHash
  privateTxHash : ∃ ins outs, [f.orderUtxo, f.takerIn].mapM C.utxoHash = some ins ∧
    [f.sourceOutput, f.destinationOutput].mapM C.utxoHash = some outs ∧
    C.privateTxHash ins outs f.privateTxBlinding = some privateTxHash

variable {C f}

theorem check_eq_some {privateTxHash : Fr} {u : Unit} :
    f.check C privateTxHash = some u ↔ f.Satisfied C privateTxHash := by
  simp only [check, checkOrderInputUtxo, checkTakerInputUtxo, checkSourceOutputUtxo,
    checkDestinationOutputUtxo, Option.bind_eq_bind, Option.bind_eq_some_iff,
    OrderTerms.check_eq_some, Crypto.checkDataUtxo_eq_some,
    Crypto.checkPlainUtxo_some_some_eq_some, Crypto.checkPlainUtxo_some_none_eq_some,
    assertIsEqual_eq_some, exists_const]
  constructor
  · rintro ⟨hwf, a, ha, ho, ⟨d, hd, hring, rfl, hne, hh⟩, ht, ⟨htp, hth⟩, hs, ⟨hsp, hsh⟩, hde,
      ⟨hdp, hdh⟩, p, hp, rfl⟩
    refine ⟨hwf, ⟨hring, OrderTerms.hash_eq_some.mpr ⟨a, ha, hd⟩, hne⟩, htp, hsp, hdp, [ho, ht],
      [hs, hde], ?_, ?_, hp⟩
    · simp [hh, hth]
    · simp [hsh, hdh]
  · rintro ⟨hwf, ⟨hring, hdata, hne⟩, htp, hsp, hdp, ins, outs, hins, houts, hp⟩
    obtain ⟨a, ha, hd⟩ := OrderTerms.hash_eq_some.mp hdata
    simp only [List.mapM_cons, List.mapM_nil, Option.bind_eq_bind, Option.bind_eq_some_iff,
      Option.pure_def, Option.some.injEq] at hins houts
    obtain ⟨ho, hh, _, ⟨ht, hth, _, rfl, rfl⟩, rfl⟩ := hins
    obtain ⟨hs, hsh, _, ⟨hde, hdh, _, rfl, rfl⟩, rfl⟩ := houts
    exact ⟨hwf, a, ha, ho, ⟨_, hd, hring, rfl, hne, hh⟩, ht, ⟨htp, hth⟩, hs, ⟨hsp, hsh⟩, hde,
      ⟨hdp, hdh⟩, _, hp, rfl⟩

end Core

/-- `take.PublicInputs`. -/
structure PublicInputs where
  publicInputHash : Fr
  privateTxHash : Fr
  firstNullifier : Fr
  deriving DecidableEq

/-- `PublicInputs.Check`. -/
def PublicInputs.check (C : Crypto) (p : PublicInputs) (expiry : Fr) : Option Unit := do
  let publicInputHash ← C.poseidon [p.privateTxHash, expiry, p.firstNullifier]
  assertIsEqual p.publicInputHash publicInputHash

/-- `take.Circuit`. -/
structure Circuit where
  pub : PublicInputs
  core : Core
  deriving DecidableEq

namespace Circuit

variable (C : Crypto) (c : Circuit)

/-- `Circuit.Define`. -/
def define : Option Unit := do
  assertIsEqual c.core.order.takeMode takeModeDerived
  let blindingSeed ← C.poseidon [blindingSeedDomain, c.core.orderUtxo.blinding]
  -- the seed and the published nullifier leave the taker no choice of a blinding
  C.assertTransactionBlindings c.pub.firstNullifier blindingSeed c.core.privateTxBlinding
    c.core.sourceOutput.blinding c.core.destinationOutput.blinding
  c.core.check C c.pub.privateTxHash
  c.pub.check C c.core.order.expiry

/-- What a satisfying witness fulfils. -/
structure Satisfied : Prop where
  takeMode : c.core.order.takeMode = takeModeDerived
  blindings : ∃ seed, C.poseidon [blindingSeedDomain, c.core.orderUtxo.blinding] = some seed ∧
    C.assertTransactionBlindings c.pub.firstNullifier seed c.core.privateTxBlinding
      c.core.sourceOutput.blinding c.core.destinationOutput.blinding = some ()
  core : c.core.Satisfied C c.pub.privateTxHash
  publicInputHash : C.poseidon [c.pub.privateTxHash, c.core.order.expiry, c.pub.firstNullifier] =
    some c.pub.publicInputHash

variable {C c}

theorem define_eq_some {u : Unit} : c.define C = some u ↔ c.Satisfied C := by
  simp only [define, PublicInputs.check, Option.bind_eq_bind, Option.bind_eq_some_iff,
    Core.check_eq_some, assertIsEqual_eq_some, exists_const]
  constructor
  · rintro ⟨hmode, seed, hseed, _, hb, hcore, p, hp, heq⟩
    exact ⟨hmode, ⟨seed, hseed, hb⟩, hcore, by rw [heq, hp]⟩
  · rintro ⟨hmode, ⟨seed, hseed, hb⟩, hcore, hp⟩
    exact ⟨hmode, seed, hseed, (), hb, hcore, _, hp, rfl⟩

end Circuit

end Take

/-! ## Take with verifiable encryption

`take_verifiable_encryption/take.go`. -/

namespace TakeVerifiableEncryption

/-- `mergeKdfInfo`, the ASCII bytes `TSPP/merge`. -/
def mergeKdfInfo : List UInt8 := [84, 83, 80, 80, 47, 109, 101, 114, 103, 101]

/-- `take_verifiable_encryption.PublicInputs`. -/
structure PublicInputs where
  publicInputHash : Fr
  privateTxHash : Fr
  deriving DecidableEq

/-- `PublicInputs.Check`. -/
def PublicInputs.check (C : Crypto) (p : PublicInputs) (expiry ctHash : Fr) : Option Unit := do
  let publicInputHash ← C.poseidon [p.privateTxHash, expiry, ctHash]
  assertIsEqual p.publicInputHash publicInputHash

/-- `take_verifiable_encryption.Circuit`. -/
structure Circuit where
  pub : PublicInputs
  core : Take.Core
  takerNullifierPk : Fr
  deriving DecidableEq

namespace Circuit

variable (C : Crypto) (c : Circuit)

/-- The 72 plaintext bytes of `checkVerifiableEncryption`. -/
def plaintext : Option (Bytes 72) := do
  let amount ← fieldToBytesBE c.core.order.destinationAmount 8
  let asset ← fieldToBytesBE c.core.order.destinationAsset 32
  let blinding ← fieldToBytesBE c.core.destinationOutput.blinding 32
  return (amount.append asset).append blinding

/-- The ciphertext of `checkVerifiableEncryption`. -/
def ciphertext : Option (Bytes 72) := do
  let sharedSecret ← C.poseidon [c.core.orderUtxo.blinding, takeEncKdfDomain]
  let plaintext ← c.plaintext
  C.symmetricApply sharedSecret mergeKdfInfo plaintext

/-- `checkVerifiableEncryption`. -/
def checkVerifiableEncryption : Option Fr := do
  let ciphertext ← c.ciphertext C
  C.gnarkHashBytes (ciphertext.1.map Fr.ofU8)

/-- `Circuit.Define`. -/
def define : Option Unit := do
  assertIsEqual c.core.order.takeMode takeModeVerifiable
  -- the payment belongs to the taker of the terms, under some nullifier key
  let takerOwnerHash ← C.poseidon [c.core.order.takerPkFe, c.takerNullifierPk]
  assertIsEqual c.core.takerIn.owner takerOwnerHash
  c.core.check C c.pub.privateTxHash
  let ctHash ← c.checkVerifiableEncryption C
  c.pub.check C c.core.order.expiry ctHash

/-- What a satisfying witness fulfils. -/
structure Satisfied : Prop where
  takeMode : c.core.order.takeMode = takeModeVerifiable
  takerIn_owner : C.poseidon [c.core.order.takerPkFe, c.takerNullifierPk] =
    some c.core.takerIn.owner
  core : c.core.Satisfied C c.pub.privateTxHash
  publicInputHash : ∃ ctHash, c.checkVerifiableEncryption C = some ctHash ∧
    C.poseidon [c.pub.privateTxHash, c.core.order.expiry, ctHash] = some c.pub.publicInputHash

variable {C c}

theorem define_eq_some {u : Unit} : c.define C = some u ↔ c.Satisfied C := by
  simp only [define, PublicInputs.check, Option.bind_eq_bind, Option.bind_eq_some_iff,
    Take.Core.check_eq_some, assertIsEqual_eq_some, exists_const]
  constructor
  · rintro ⟨hmode, owner, howner, heq, hcore, ct, hct, p, hp, heq'⟩
    exact ⟨hmode, by rw [heq, howner], hcore, ct, hct, by rw [heq', hp]⟩
  · rintro ⟨hmode, howner, hcore, ct, hct, hp⟩
    exact ⟨hmode, _, howner, rfl, hcore, ct, hct, _, hp, rfl⟩

end Circuit

end TakeVerifiableEncryption

/-! ## Cancel

`cancel.go`. -/

namespace Cancel

/-- `cancel.PublicInputs`. -/
structure PublicInputs where
  publicInputHash : Fr
  privateTxHash : Fr
  deriving DecidableEq

/-- `PublicInputs.Check`. -/
def PublicInputs.check (C : Crypto) (p : PublicInputs) (expiry makerOwnerPkField : Fr) :
    Option Unit := do
  let publicInputHash ← C.poseidon [p.privateTxHash, expiry, makerOwnerPkField]
  assertIsEqual p.publicInputHash publicInputHash

/-- `cancel.Circuit`. -/
structure Circuit where
  pub : PublicInputs
  order : OrderTerms
  orderUtxo : Utxo
  sourceOutput : Utxo
  makerOwnerPkField : Fr
  makerNullifierPk : Fr
  privateTxBlinding : Fr
  deriving DecidableEq

namespace Circuit

variable (C : Crypto) (c : Circuit)

/-- `checkOrderInputUtxo`. -/
def checkOrderInputUtxo (makerAddressFe : Fr) : Option Fr := do
  let dataHash ← c.order.dataHash C makerAddressFe
  C.checkDataUtxo c.orderUtxo dataHash

/-- `checkSourceOutputUtxo`. -/
def checkSourceOutputUtxo : Option Fr :=
  C.checkPlainUtxo c.sourceOutput c.orderUtxo.asset (some c.orderUtxo.amount)
    (some c.order.makerOwnerHash)

/-- `checkMakerAuthorization`. -/
def checkMakerAuthorization : Option Unit := do
  let recomputedOwnerHash ← C.poseidon [c.makerOwnerPkField, c.makerNullifierPk]
  assertIsEqual recomputedOwnerHash c.order.makerOwnerHash

/-- `Circuit.Define`; the terms are not checked with `OrderTerms.Check` here. -/
def define : Option Unit := do
  let makerAddressFe ← c.order.makerAddressFE C
  let orderInputUtxoHash ← c.checkOrderInputUtxo C makerAddressFe
  let sourceOutputUtxoHash ← c.checkSourceOutputUtxo C
  c.checkMakerAuthorization C
  let privateTxHash ← C.privateTxHash [orderInputUtxoHash] [sourceOutputUtxoHash]
    c.privateTxBlinding
  assertIsEqual privateTxHash c.pub.privateTxHash
  c.pub.check C c.order.expiry c.makerOwnerPkField

/-- What a satisfying witness fulfils. -/
structure Satisfied : Prop where
  order : CarriesTerms C c.orderUtxo c.order
  sourceOutput : Pays c.sourceOutput c.orderUtxo.asset c.orderUtxo.amount c.order.makerOwnerHash
  maker : C.poseidon [c.makerOwnerPkField, c.makerNullifierPk] = some c.order.makerOwnerHash
  privateTxHash : ∃ ins outs, [c.orderUtxo].mapM C.utxoHash = some ins ∧
    [c.sourceOutput].mapM C.utxoHash = some outs ∧
    C.privateTxHash ins outs c.privateTxBlinding = some c.pub.privateTxHash
  publicInputHash : C.poseidon [c.pub.privateTxHash, c.order.expiry, c.makerOwnerPkField] =
    some c.pub.publicInputHash

variable {C c}

theorem define_eq_some {u : Unit} : c.define C = some u ↔ c.Satisfied C := by
  simp only [define, checkOrderInputUtxo, checkSourceOutputUtxo, checkMakerAuthorization,
    PublicInputs.check, Option.bind_eq_bind, Option.bind_eq_some_iff,
    Crypto.checkDataUtxo_eq_some, Crypto.checkPlainUtxo_some_some_eq_some, assertIsEqual_eq_some,
    exists_const]
  constructor
  · rintro ⟨a, ha, ho, ⟨d, hd, hring, rfl, hne, hh⟩, hs, ⟨hsp, hsh⟩, ⟨w, hw, rfl⟩, p, hp, rfl, q, hq,
      heq⟩
    refine ⟨⟨hring, OrderTerms.hash_eq_some.mpr ⟨a, ha, hd⟩, hne⟩, hsp, hw, ⟨[ho], [hs], ?_, ?_, hp⟩,
      by rw [heq, hq]⟩
    · simp [hh]
    · simp [hsh]
  · rintro ⟨⟨hring, hdata, hne⟩, hsp, hw, ⟨ins, outs, hins, houts, hp⟩, hq⟩
    obtain ⟨a, ha, hd⟩ := OrderTerms.hash_eq_some.mp hdata
    simp only [List.mapM_cons, List.mapM_nil, Option.bind_eq_bind, Option.bind_eq_some_iff,
      Option.pure_def, Option.some.injEq] at hins houts
    obtain ⟨ho, hh, _, rfl, rfl⟩ := hins
    obtain ⟨hs, hsh, _, rfl, rfl⟩ := houts
    exact ⟨a, ha, ho, ⟨_, hd, hring, rfl, hne, hh⟩, hs, ⟨hsp, hsh⟩, ⟨_, hw, rfl⟩, _, hp, rfl, _, hq,
      rfl⟩

end Circuit

end Cancel

/-! ## The statements the verifying keys are set up for -/

/-- `CircuitId`. -/
inductive CircuitId
  | make
  | cancel
  | take
  | takeVerifiableEncryption
  deriving DecidableEq

/-- The circuit has a satisfying witness with this public input. -/
def relation (C : Crypto) : CircuitId → Fr → Prop
  | .make, x => ∃ w : Make.Circuit, w.privateTxHash = x ∧ w.define C = some ()
  | .cancel, x => ∃ w : Cancel.Circuit, w.pub.publicInputHash = x ∧ w.define C = some ()
  | .take, x => ∃ w : Take.Circuit, w.pub.publicInputHash = x ∧ w.define C = some ()
  | .takeVerifiableEncryption, x =>
      ∃ w : TakeVerifiableEncryption.Circuit, w.pub.publicInputHash = x ∧ w.define C = some ()

end Zolana.Swap
