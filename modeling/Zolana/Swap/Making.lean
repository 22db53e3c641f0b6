import Zolana.Swap.Lifecycle

set_option autoImplicit false

/-! # What a make announces

A make creates an order and announces it: the program writes a marker with the order's hash
into the single message of the transact. The circuit knows the order by its place in the
output chain, which skips dummy entries, and the program by a fixed index into the output
list of the instruction. The two meet at one output exactly if the first two entries of the
list are no dummies.
-/

namespace Zolana.Swap

/-! ## The marker and the order -/

/-- What a make is to do with the transact it received: it creates a change and an order of
well-formed terms, and it forwards the transact with the order's hash and the maker's key in
the single message, which was empty. -/
structure MarksOrder (C : Crypto) (makerPubkey : Address) (received forwarded : TransactIxData)
    (op : TxOpening) (T : OrderTerms) (change order : Utxo) : Prop where
  wellFormed : T.WellFormed
  created : op.created = [change, order]
  carriesTerms : CarriesTerms C order T
  change_dataless : change.Dataless
  change_asset : change.asset = order.asset
  change_owner : change.owner = T.makerOwnerHash
  forwarded : ∃ m h, received.messages = [m] ∧ m.data = [] ∧ C.utxoHash order = some h ∧
    forwarded = { received with
      messages := [{ m with data := (MarkerData.mk h.toBytes makerPubkey).toVec }] }

/-- The first two outputs of the transact are no dummies. -/
def LeadsWithOutputs (t : TransactIxData) : Prop :=
  ∃ first second rest, t.outputs = first :: second :: rest ∧ first.utxoHash ≠ Fr.toBytes 0 ∧
    second.utxoHash ≠ Fr.toBytes 0

/-- A word published for an entry is zero exactly if the entry is a dummy. -/
theorem publishes_zero_iff {C : Crypto} (hC : C.Ideal) {word : Bytes 32} {slot : Option Utxo}
    (h : Publishes word (TxOpening.slotHash C slot)) : word = Fr.toBytes 0 ↔ slot = none := by
  obtain ⟨d, hd, hword⟩ := h
  have hbytes : Fr.toBytes d = word := Fr.toBytes_of_ofBytes hword
  cases slot with
  | none =>
      have h0 : 0 = d := Option.some.inj hd
      subst h0
      exact ⟨fun _ => rfl, fun _ => hbytes.symm⟩
  | some u =>
      have hne : d ≠ 0 := by
        intro h0
        exact hC.utxoHash_ne_zero u (h0 ▸ hd)
      constructor
      · intro h0
        rw [← hbytes] at h0
        exact absurd (Fr.toBytes_injective h0) hne
      · intro h0
        cases h0

/-- A word published for an entry is the hash of a UTXO exactly if the entry is that UTXO. -/
theorem publishes_hash_iff {C : Crypto} (hC : C.Ideal) {word : Bytes 32} {slot : Option Utxo}
    {u : Utxo} {hash : Fr} (hu : C.utxoHash u = some hash)
    (h : Publishes word (TxOpening.slotHash C slot)) : word = hash.toBytes ↔ slot = some u := by
  obtain ⟨d, hd, hword⟩ := h
  have hbytes : Fr.toBytes d = word := Fr.toBytes_of_ofBytes hword
  constructor
  · intro hsame
    have hdigest : d = hash := Fr.toBytes_injective (hbytes.trans hsame)
    subst hdigest
    cases slot with
    | none =>
        have h0 : 0 = d := Option.some.inj hd
        exact absurd hu (h0 ▸ hC.utxoHash_ne_zero u)
    | some v => rw [hC.utxoHash hd hu]
  · rintro rfl
    have hdigest : d = hash := Option.some.inj (hd.symm.trans hu)
    rw [← hbytes, hdigest]

/-- The bytes of a message are those of one marker. -/
theorem marker_eq_of_messages {m m' : MessageData} {marker marker' : MarkerData}
    (h : [{ m with data := marker.toVec }] = [{ m' with data := marker'.toVec }]) :
    marker = marker' := by
  have hmessage := List.singleton_inj.mp h
  rw [MessageData.mk.injEq] at hmessage
  exact MarkerData.toVec_injective hmessage.2

/-- The marker of an accepted make names the second entry of the opening, and that entry is
the order exactly if the first two entries are no dummies. -/
theorem second_output_eq_order_iff {C : Crypto} (hC : C.Ideal) {t : TransactIxData}
    {op : TxOpening} {change order : Utxo} {h : Fr} (hspp : SppCommits C t op)
    (hcreated : op.created = [change, order]) (hne : change ≠ order)
    (horder : C.utxoHash order = some h) :
    (∃ o, t.outputs[orderOutputIndex]? = some o ∧ o.utxoHash = h.toBytes) ↔
      LeadsWithOutputs t := by
  unfold TxOpening.created at hcreated
  constructor
  · rintro ⟨o, ho, hword⟩
    -- a list with a second entry has two
    rcases hlist : t.outputs with _ | ⟨first, _ | ⟨second, rest⟩⟩
    · rw [hlist] at ho
      cases ho
    · rw [hlist] at ho
      cases ho
    rw [hlist] at ho
    have hsecond : second = o := Option.some.inj ho
    subst hsecond
    obtain ⟨slot, slot', slots, hslots, hfirst, hpub⟩ := hspp.exists_two_slots hlist
    rw [hslots] at hcreated
    -- the word of the order is no other entry's
    have hslot' : slot' = some order := (publishes_hash_iff hC horder hpub).mp hword
    refine ⟨first, second, rest, hlist, ?_, ?_⟩
    · intro h0
      have hnone : slot = none := (publishes_zero_iff hC hfirst).mp h0
      rw [hnone, hslot', List.reduceOption_cons_of_none, List.reduceOption_cons_of_some,
        List.cons.injEq] at hcreated
      exact hne hcreated.1.symm
    · intro h0
      have hnone : slot' = none := (publishes_zero_iff hC hpub).mp h0
      rw [hslot'] at hnone
      cases hnone
  · rintro ⟨first, second, rest, hlist, hfirst, hsecond⟩
    obtain ⟨slot, slot', slots, hslots, hpub, hpub'⟩ := hspp.exists_two_slots hlist
    rw [hslots] at hcreated
    refine ⟨second, by rw [hlist]; rfl, ?_⟩
    cases slot with
    | none => exact absurd ((publishes_zero_iff hC hpub).mpr rfl) hfirst
    | some u =>
        cases slot' with
        | none => exact absurd ((publishes_zero_iff hC hpub').mpr rfl) hsecond
        | some v =>
            rw [List.reduceOption_cons_of_some, List.reduceOption_cons_of_some,
              List.cons.injEq, List.cons.injEq] at hcreated
            obtain ⟨-, rfl, -⟩ := hcreated
            exact (publishes_hash_iff hC horder hpub').mpr rfl

/-- **When a make names the order it creates.** An accepted make creates an order of
well-formed terms and its change, and forwards the transact with the marker in its single
message; the marker names that order exactly if the first two outputs of the transact are no
dummies. -/
theorem processMakeIx_marksOrder_iff {E : Env} (hE : E.Secure) {accounts : AccountIterator}
    {data : List UInt8} {cpi : Cpi} {t : TransactIxData} {op : TxOpening}
    (h : processMakeIx E accounts data = .ok cpi) (ht : cpi.Transact E.runtime t)
    (hspp : SppCommits E.crypto t op) :
    ∃ payer iter ix, accounts = payer :: iter ∧ payer.isSigner = true ∧
      E.makeIxData data = some ix ∧
      ((∃ T change order, MarksOrder E.crypto payer.address ix.transact t op T change order) ↔
        LeadsWithOutputs ix.transact) := by
  obtain ⟨payer, iter, ix, transact, hacc, hsigner, -, hix, -, hmarker, hforward⟩ :=
    processMakeIx_eq_ok.mp h
  refine ⟨payer, iter, ix, hacc, hsigner, hix, ?_⟩
  have hread : t = transact := (forwards_of_forward hE hforward).transact ht
  obtain ⟨o, m, ho, hm, hempty, htransact⟩ := writeMarker_eq_ok.mp hmarker
  -- the marker leaves the outputs alone
  have houtputs : t.outputs = ix.transact.outputs := by rw [hread, htransact]
  have hleads : LeadsWithOutputs ix.transact ↔ LeadsWithOutputs t := by
    unfold LeadsWithOutputs
    rw [houtputs]
  rw [hleads]
  have hne : ∀ {T : OrderTerms} {change order : Utxo}, CarriesTerms E.crypto order T →
      change.Dataless → change ≠ order := by
    intro T change order hT hplain heq
    exact hT.not_dataless hE.ideal (heq ▸ hplain)
  constructor
  · rintro ⟨T, change, order, hmarks⟩
    obtain ⟨m', hash, -, -, hhash, hforwarded⟩ := hmarks.forwarded
    refine (second_output_eq_order_iff hE.ideal hspp hmarks.created
      (hne hmarks.carriesTerms hmarks.change_dataless) hhash).mp ⟨o, by rw [houtputs, ho], ?_⟩
    -- two descriptions of the forwarded message
    have hwritten : t.messages = [{ m' with
        data := (MarkerData.mk hash.toBytes payer.address).toVec }] := by rw [hforwarded]
    rw [hread, htransact] at hwritten
    exact congrArg MarkerData.orderUtxoHash (marker_eq_of_messages hwritten)
  · intro hlead
    obtain ⟨w, hw, hcreated⟩ := processMakeIx_created hE h ht hspp
    obtain ⟨outs, houts, -⟩ := hw.privateTxHash
    simp only [List.mapM_cons, List.mapM_nil, Option.bind_eq_bind, Option.bind_eq_some_iff,
      Option.pure_def, Option.some.injEq] at houts
    obtain ⟨_, -, _, ⟨hash, hhash, -⟩, -⟩ := houts
    obtain ⟨o', ho', hword⟩ := (second_output_eq_order_iff hE.ideal hspp hcreated
      (hne hw.order hw.change) hhash).mpr hlead
    have hoo : o' = o := by
      rw [houtputs, ho] at ho'
      exact (Option.some.inj ho').symm
    refine ⟨w.order, w.change, w.orderUtxo,
      { wellFormed := hw.wellFormed
        created := hcreated
        carriesTerms := hw.order
        change_dataless := hw.change
        change_asset := hw.change_asset
        change_owner := hw.change_owner
        forwarded := ⟨m, hash, hm, hempty, hhash, ?_⟩ }⟩
    rw [hread, htransact, ← hword, hoo]

open Sample in
theorem processMakeIx_marksOrder_iff_sample :
    ∃ payer iter ix, accounts [maker, maker] = payer :: iter ∧ payer.isSigner = true ∧
      env.makeIxData (data 3) = some ix ∧
      ((∃ T change order, MarksOrder crypto payer.address ix.transact (makeTransact makeMarker)
          makeOpening T change order) ↔ LeadsWithOutputs ix.transact) :=
  processMakeIx_marksOrder_iff env_secure make_ok rfl (by decide)

/-! ## A make that announces its change

The same make with a dummy in front of its outputs: `private_tx_hash` does not change, and
the marker names the change. -/

namespace Sample

/-- `makeOpening` behind a dummy output. -/
def paddedOpening : TxOpening :=
  ⟨[some ⟨funds, 5⟩, none], [none, some change, some order], 53⟩

def paddedTransact (marker : List UInt8) : TransactIxData :=
  paddedOpening.publish crypto 50 none [⟨Bytes.replicate 32 2, marker⟩]

/-- The marker names the change, whose hash is 101. -/
def paddedMarker : List UInt8 := (MarkerData.mk (Fr.toBytes 101) maker).toVec

def paddedTransacts : List TransactIxData := [paddedTransact [], paddedTransact paddedMarker]

noncomputable def paddedEnv : Env where
  crypto := crypto
  groth16 := Groth16.idealVerifier (relation crypto)
  runtime := .tabulate authority paddedTransacts
  makeIxData bytes := paddedTransacts[bytes.length]?.map fun t => ⟨plainProof, t⟩
  takeIxData _ := none
  takeVerifiableEncryptionIxData _ := none
  cancelIxData _ := none

theorem paddedEnv_secure : paddedEnv.Secure where
  ideal := crypto_ideal
  sound := Groth16.idealVerifier_sound
  roundTrips := Codec.tabulate_roundTrips paddedTransacts

theorem paddedMake_ok :
    processMakeIx paddedEnv (accounts [maker, maker]) (data 0) = .ok (cpi [maker] 1) := by
  refine processMakeIx_eq_ok.mpr ⟨⟨maker, true, true⟩, accounts [maker],
    ⟨plainProof, paddedTransact []⟩, paddedTransact paddedMarker, rfl, rfl, rfl, rfl,
    verify rfl (by decide : Fr.ofBytes _ = some 503) ?_, by decide, ?_⟩
  · exact ⟨⟨503, terms 0, order, change, 100, 53⟩, rfl, by decide⟩
  · exact forward_eq_ok.mpr ⟨data 1, by decide, by decide, by decide, rfl⟩

end Sample

open Sample in
/-- An accepted make that SPP executes can name its change instead of the order. -/
theorem not_processMakeIx_marksOrder :
    ¬∀ E : Env, E.Secure → ∀ ledger accounts data cpi t op,
      processMakeIx E accounts data = .ok cpi → cpi.Transact E.runtime t →
      SppAccepts E.crypto ledger cpi.signers t op →
      ∃ payer iter ix, accounts = payer :: iter ∧ payer.isSigner = true ∧
        E.makeIxData data = some ix ∧
        ∃ T change order, MarksOrder E.crypto payer.address ix.transact t op T change order := by
  intro h
  have hspp : SppAccepts crypto ⟨{funds}, ∅⟩ (cpi [maker] 1).signers
      (paddedTransact paddedMarker) paddedOpening := by decide
  obtain ⟨payer, iter, ix, -, -, -, T, change', order', hmarks⟩ :=
    h paddedEnv paddedEnv_secure ⟨{funds}, ∅⟩ (accounts [maker, maker]) (data 0) (cpi [maker] 1)
      (paddedTransact paddedMarker) paddedOpening paddedMake_ok rfl hspp
  obtain ⟨m, hash, -, -, hhash, hforwarded⟩ := hmarks.forwarded
  have hcreated : [change, order] = [change', order'] := hmarks.created
  have horder : order = order' := by
    rw [List.cons.injEq, List.cons.injEq] at hcreated
    exact hcreated.2.1
  have hhash' : crypto.utxoHash order = some 102 := by decide
  have h102 : 102 = hash := by
    rw [← horder] at hhash
    exact Option.some.inj (hhash'.symm.trans hhash)
  subst h102
  -- the marker holds 101, the hash of the change
  have hwritten : (paddedTransact paddedMarker).messages = [{ m with
      data := (MarkerData.mk (Fr.toBytes 102) payer.address).toVec }] := by rw [hforwarded]
  have hmarker : MarkerData.mk (Fr.toBytes 101) maker = ⟨Fr.toBytes 102, payer.address⟩ :=
    marker_eq_of_messages (m := ⟨Bytes.replicate 32 2, paddedMarker⟩) hwritten
  have hword : Fr.toBytes 101 = Fr.toBytes 102 := congrArg MarkerData.orderUtxoHash hmarker
  exact absurd (Fr.toBytes_injective hword) (by decide)

end Zolana.Swap
