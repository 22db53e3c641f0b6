import Zolana.Basic.Layout
import Zolana.Spp.Client
import Zolana.Spp.Prover

set_option autoImplicit false

/-! # Witnesses by name

`ProofInputMap` of `spr_gnark_ffi_prover`. A prover crate does not hand gnark a typed witness but a
map from the names of the circuit's fields, the inner ones behind an underscore, to decimal
numbers. The tests of the crates compare the names on one sample with a list of their own. What has
to hold for every witness is that the map transmits the circuit that the rest of this development
speaks about.

The bridge on gnark's side is not part of the repository. All that is asked of it is that it fills a
circuit from a map with the names of its fields and no others, and with one number for a variable.
-/

namespace Zolana

/-- `ProofInputMap`. -/
abbrev ProofInputMap := Std.HashMap String (List String)

/-! ## Numbers -/

/-- `decimal`, as it stands in the map. -/
def decimalString (word : Bytes 32) : String := Nat.repr (BigEndian.ofBytesBE word.1)

/-- The digits of a byte. -/
def byteString (b : UInt8) : String := Nat.repr b.toNat

/-- The texts are numbers in decimal, and the variables are these numbers. -/
def Decimals (digits : List String) (vars : List Fr) : Prop :=
  ∃ numbers : List ℕ, digits = numbers.map Nat.repr ∧ vars = numbers.map (Fin.ofNat modulus)

theorem decimals_decimalString (word : Bytes 32) :
    Decimals [decimalString word] [decimal word] :=
  ⟨[BigEndian.ofBytesBE word.1], rfl, rfl⟩

theorem decimals_byteStrings (bytes : List UInt8) :
    Decimals (bytes.map byteString) (bytes.map Fr.ofU8) := by
  refine ⟨bytes.map UInt8.toNat, by rw [List.map_map]; rfl, ?_⟩
  rw [List.map_map]
  refine List.map_congr_left fun b _ => ?_
  exact Fin.ext (Nat.mod_eq_of_lt (Fr.ofU8 b).isLt).symm

theorem repr_injective : Function.Injective Nat.repr := by
  intro m n h
  have hdigits : Nat.toDigits 10 m = Nat.toDigits 10 n := by
    rw [← Nat.toList_repr, h, Nat.toList_repr]
  calc m = Nat.ofDigitChars 10 (Nat.toDigits 10 m) 0 :=
        (Nat.ofDigitChars_toDigits (by decide) (by decide)).symm
    _ = Nat.ofDigitChars 10 (Nat.toDigits 10 n) 0 := by rw [hdigits]
    _ = n := Nat.ofDigitChars_toDigits (by decide) (by decide)

/-- Texts are decimals of one list of variables. -/
theorem Decimals.unique {digits : List String} {vars vars' : List Fr} (h : Decimals digits vars)
    (h' : Decimals digits vars') : vars = vars' := by
  obtain ⟨numbers, rfl, rfl⟩ := h
  obtain ⟨numbers', hdigits, rfl⟩ := h'
  rw [List.map_injective_iff.mpr repr_injective hdigits]

/-- A lookup that finds what is written for a word finds the word. -/
@[simp] theorem finds_decimalString {find : Option (List Fr)} {word : Bytes 32} :
    (∃ vars, Decimals [decimalString word] vars ∧ find = some vars) ↔
      find = some [decimal word] := by
  constructor
  · rintro ⟨vars, hvars, hfind⟩
    rw [hfind, hvars.unique (decimals_decimalString word)]
  · intro hfind
    exact ⟨_, decimals_decimalString word, hfind⟩

@[simp] theorem finds_byteStrings {find : Option (List Fr)} {bytes : List UInt8} :
    (∃ vars, Decimals (bytes.map byteString) vars ∧ find = some vars) ↔
      find = some (bytes.map Fr.ofU8) := by
  constructor
  · rintro ⟨vars, hvars, hfind⟩
    rw [hfind, hvars.unique (decimals_byteStrings bytes)]
  · intro hfind
    exact ⟨_, decimals_byteStrings bytes, hfind⟩

/-! ## Fields -/

/-- A `frontend.Variable` field. -/
def frontendVariable (field : String) : Layout (List Fr) Fr :=
  .value field fun
    | [x] => some x
    | _ => none

/-- A `[n]frontend.Variable` field. -/
def frontendVariables (n : ℕ) (field : String) :
    Layout (List Fr) {vars : List Fr // vars.length = n} :=
  .value field fun vars => if h : vars.length = n then some ⟨vars, h⟩ else none

@[simp] theorem names_frontendVariable (field : String) :
    (frontendVariable field).names = [field] := rfl

theorem read_frontendVariable {field : String} {find : String → Option (List Fr)} {x : Fr}
    (h : find field = some [x]) : (frontendVariable field).read find = some x := by
  rw [frontendVariable, Layout.read_value h]

theorem read_frontendVariable_under {name field : String} {find : String → Option (List Fr)}
    {x : Fr} (h : find (name ++ "_" ++ field) = some [x]) :
    (frontendVariable field).read (fun field => find (name ++ "_" ++ field)) = some x :=
  read_frontendVariable h

theorem read_keyVariables {field : String} {find : String → Option (List Fr)} {key : Bytes 33}
    (h : find field = some (key.1.map Fr.ofU8)) :
    (frontendVariables 33 field).read find = some (keyVariables key) := by
  have hlength : (key.1.map Fr.ofU8).length = 33 := by rw [List.length_map, key.2]
  rw [frontendVariables, Layout.read_value h]
  exact dif_pos hlength

/-! ## UTXOs -/

/-- How `spr_gnark_ffi_prover` and `gnarksdk` exchange a UTXO. -/
structure UtxoFormat where
  /-- The fields of `gnarksdk.Utxo`. -/
  layout : Layout (List Fr) Utxo
  /-- `utxo_proof_input_keys`, without the prefix. -/
  keys : List String
  /-- `utxo_proof_inputs(utxo, prefix)`. -/
  utxoProofInputs : ProofInputUtxo → String → List (String × List String)

/-- The keys are the fields, each once, and the numbers that are written for a UTXO are those of its
fields. -/
structure UtxoFormat.Documented (F : UtxoFormat) : Prop where
  keys : ∀ u name, (F.utxoProofInputs u name).map Prod.fst = F.keys.map (name ++ "_" ++ ·)
  nodup : F.keys.Nodup
  fields : ∀ key ∈ F.keys, key ∈ F.layout.names
  decimals : ∀ u name, ∀ e ∈ F.utxoProofInputs u name, ∃ vars, Decimals e.2 vars
  read : ∀ ⦃u name find⦄, Layout.Finds Decimals find (F.utxoProofInputs u name) →
    F.layout.read (fun field => find (name ++ "_" ++ field)) = some u

/-! ## Maps -/

/-- The entries of the scalars. -/
def scalarEntries (scalars : List (String × Bytes 32)) : List (String × List String) :=
  scalars.map fun s => (s.1, [decimalString s.2])

/-- The map that a `witness` builds, entry by entry. -/
def proofInputMap (entries : List (String × List String)) : ProofInputMap :=
  (∅ : ProofInputMap).insertMany entries

theorem decimals_scalarEntries {scalars : List (String × Bytes 32)} :
    ∀ e ∈ scalarEntries scalars, ∃ vars, Decimals e.2 vars := by
  intro e he
  obtain ⟨s, -, rfl⟩ := List.mem_map.mp he
  exact ⟨_, decimals_decimalString s.2⟩

/-- Entries with the names of blocks write a record: none overwrites another, and their map
transmits it. -/
theorem writes_of_blocks {α : Type} {L : Layout (List Fr) α} {entries : List (String × List String)}
    {a : α} (blocks : List Block)
    (hkeys : entries.map Prod.fst = blocks.flatMap Block.names)
    (hapart : (blocks.map Block.beginning).Pairwise Apart) (hnodup : ∀ b ∈ blocks, b.endings.Nodup)
    (hnames : ∀ b ∈ blocks, ∀ name ∈ b.names, name ∈ L.names)
    (hdecimals : ∀ e ∈ entries, ∃ vars, Decimals e.2 vars)
    (hread : ∀ find, Layout.Finds Decimals find entries → L.read find = some a) :
    (entries.map Prod.fst).Nodup ∧ L.Transmits Decimals (proofInputMap entries) a := by
  have hdistinct : (entries.map Prod.fst).Nodup := by
    rw [hkeys]
    exact nodup_blocks hapart hnodup
  refine ⟨hdistinct, Layout.transmits_insertMany hdistinct ?_ hdecimals hread⟩
  intro name hname
  rw [hkeys] at hname
  obtain ⟨b, hb, hname⟩ := List.mem_flatMap.mp hname
  exact hnames b hb name hname

/-! ## The bridge -/

/-- Gnark's side of `PROVER`: it fills the registered circuits from maps. -/
structure Bridge {K : Type} (circuits : Circuits K) where
  fill : (id : K) → ProofInputMap → Option (circuits.Witness id)

/-- A map that transmits a witness of a circuit with these fields fills the circuit with it. -/
structure Bridge.Documented {K : Type} {circuits : Circuits K} (bridge : Bridge circuits)
    (layout : (id : K) → Layout (List Fr) (circuits.Witness id)) : Prop where
  fill : ∀ ⦃id map w⦄, (layout id).Transmits Decimals map w → bridge.fill id map = some w

/-- `PROVER`: `prove(id, map)?.compress()?`. -/
def Prover.proveMap {K : Type} {circuits : Circuits K} (prover : Prover circuits)
    (bridge : Bridge circuits) (id : K) (map : ProofInputMap) :
    Except ProverError CompressedProof :=
  match bridge.fill id map with
  | some w => prover.prove id w
  | none => .error .failed

/-- What is proved through a map that transmits the witness is what is proved from the witness. -/
theorem Prover.orErr_proveMap {K α : Type} {circuits : Circuits K} (prover : Prover circuits)
    {bridge : Bridge circuits} {L : (id : K) → Layout (List Fr) (circuits.Witness id)}
    (hbridge : bridge.Documented L) {i : K} {map : ProofInputMap} {w : circuits.Witness i}
    (h : (L i).Transmits Decimals map w) (f : CompressedProof → α) :
    orErr ((prover.proveMap bridge i map).map f).toOption =
      orErr ((prover.prove i w).toOption.map f) := by
  have hprove : prover.proveMap bridge i map = prover.prove i w := by
    rw [proveMap, hbridge.fill h]
  rw [hprove]
  cases prover.prove i w <;> rfl

/-! ## A format and a bridge -/

/-- The fields under their own names. -/
def Utxo.layout : Layout (List Fr) Utxo :=
  Utxo.mk <$> frontendVariable "Owner" <*> frontendVariable "Asset" <*>
    frontendVariable "Amount" <*> frontendVariable "Blinding" <*> frontendVariable "DataHash" <*>
    frontendVariable "RingDataHash" <*> frontendVariable "RingProgramId" <*>
    frontendVariable "TreeId"

def UtxoFormat.sample : UtxoFormat where
  layout := Utxo.layout
  keys := Utxo.layout.names
  utxoProofInputs u name :=
    scalarEntries ([("Owner", u.owner), ("Asset", u.asset), ("Amount", u.amount),
      ("Blinding", u.blinding), ("DataHash", u.dataHash), ("RingDataHash", u.ringDataHash),
      ("RingProgramId", u.ringProgramId), ("TreeId", u.treeId)].map
        fun (field, x) => (name ++ "_" ++ field, x.toBytes))

theorem UtxoFormat.sample_documented : UtxoFormat.sample.Documented where
  keys _ _ := rfl
  nodup := by decide
  fields _ := id
  decimals _ _ := decimals_scalarEntries
  read := by
    intro u name find h
    simp only [sample, scalarEntries, List.map_cons, List.map_nil, Layout.finds_cons,
      Layout.finds_nil, finds_decimalString, decimal_toBytes, and_true] at h
    obtain ⟨howner, hasset, hamount, hblinding, hdata, hringData, hringProgram, htree⟩ := h
    simp only [sample, Utxo.layout, Layout.read_seq, Layout.read_map,
      read_frontendVariable_under howner, read_frontendVariable_under hasset,
      read_frontendVariable_under hamount, read_frontendVariable_under hblinding,
      read_frontendVariable_under hdata, read_frontendVariable_under hringData,
      read_frontendVariable_under hringProgram, read_frontendVariable_under htree]
    rfl

/-- The variable that a decimal number is assigned to. -/
def readVariable (digits : String) : Option Fr :=
  if digits.toList.isEmpty then none
  else if digits.toList.all Char.isDigit then
    some (Fin.ofNat modulus (Nat.ofDigitChars 10 digits.toList 0))
  else none

theorem readVariable_repr (n : ℕ) : readVariable (Nat.repr n) = some (Fin.ofNat modulus n) := by
  have hempty : ¬(Nat.toDigits 10 n).isEmpty = true := by
    rw [List.isEmpty_iff]
    exact Nat.toDigits_ne_nil
  have hdigits : (Nat.toDigits 10 n).all Char.isDigit = true := by
    rw [List.all_eq_true]
    intro c hc
    exact Nat.isDigit_of_mem_toDigits (by decide) (by decide) hc
  rw [readVariable, Nat.toList_repr, if_neg hempty, if_pos hdigits,
    Nat.ofDigitChars_toDigits (by decide) (by decide)]

theorem Decimals.mapM_readVariable {digits : List String} {vars : List Fr}
    (h : Decimals digits vars) : digits.mapM readVariable = some vars := by
  obtain ⟨numbers, rfl, rfl⟩ := h
  induction numbers with
  | nil => rfl
  | cons n numbers ih =>
      rw [List.map_cons, List.mapM_cons, readVariable_repr, ih]
      rfl

/-- A bridge that refuses other names than those of the fields. -/
def Bridge.strict {K : Type} {circuits : Circuits K}
    (layout : (id : K) → Layout (List Fr) (circuits.Witness id)) : Bridge circuits where
  fill id map :=
    if ∀ name ∈ map.keys, name ∈ (layout id).names then
      (layout id).read fun name => map[name]?.bind (·.mapM readVariable)
    else none

theorem Bridge.strict_documented {K : Type} {circuits : Circuits K}
    (layout : (id : K) → Layout (List Fr) (circuits.Witness id)) :
    (Bridge.strict layout).Documented layout where
  fill := by
    intro id map w h
    have hnames : ∀ name ∈ map.keys, name ∈ (layout id).names := by
      intro name hname
      exact (h.names name).mp (Std.HashMap.mem_keys.mp hname)
    refine (if_pos hnames).trans (h.read _ ?_)
    intro name digits hdigits
    obtain ⟨vars, hvars⟩ := h.written name digits hdigits
    refine ⟨vars, hvars, ?_⟩
    rw [hdigits, Option.bind_some, hvars.mapM_readVariable]

end Zolana
