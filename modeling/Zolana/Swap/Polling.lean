import Zolana.Basic.Polling
import Zolana.Swap.MakerPass

set_option autoImplicit false

/-! # Waiting for orders

`index_until` of `poll.rs`, and `index_maker` and `index_taker` with it: a pass every half second
until one returns an order. Both always come back. The first pass with an order decides what the
maker gets, and only time runs out on him. The taker waits as long as nothing is listed under his
tag; the first listing with a message under it decides, and one transaction in that listing that is
not harmless fails the wait.
-/

namespace Zolana.Swap.Sdk

/-! ## The loop -/

/-- `INDEX_POLL`, in nanoseconds. -/
def INDEX_POLL : ℕ := 500 * 1000000

/-- `index_until`, with fuel for the rounds. The clock is read before the loop and after each
pass. -/
def indexUntil {β : Type} (now : ℕ → ℕ) (timeout : ℕ) (what : String)
    (collect : ℕ → Option (SdkResult (List β))) (fuel : ℕ) : Option (SdkResult (List β)) :=
  let deadline := now 0 + timeout
  Polling.pollUntil collect (fun n => now (n + 1) ≥ deadline)
    (.message ("timed out discovering " ++ what)) fuel 0

/-- `index_maker`, with fuel for the pages of each pass. -/
def indexMaker {κ : Type} (M : MakerIndexContext) (keypair : ShieldedKeypair)
    (registry : AssetRegistry) (indexer : ℕ → Rpc κ) (now : ℕ → ℕ) (timeout : ℕ) (pages : ℕ → ℕ) :
    ℕ → Option (SdkResult (List MakerOrder)) :=
  indexUntil now timeout "maker orders" fun n =>
    collectTagged M.toIndexContext keypair (indexer n) (scanMaker M · keypair registry) (pages n)

/-- `index_taker`, likewise. -/
def indexTaker {κ : Type} (I : IndexContext) (keypair : ShieldedKeypair) (registry : AssetRegistry)
    (indexer rpc : ℕ → Rpc κ) (now : ℕ → ℕ) (timeout : ℕ) (pages : ℕ → ℕ) :
    ℕ → Option (SdkResult (List TakerOrder)) :=
  indexUntil now timeout "taker orders" fun n =>
    collectTagged I keypair (indexer n) (indexTakerScan I keypair registry (rpc n)) (pages n)

/-- The deadline has not come when the clock is read after the round. -/
def InTime (now : ℕ → ℕ) (timeout n : ℕ) : Prop :=
  now (n + 1) < now 0 + timeout

/-- What an indexer lists under the tag, round by round, with fuel for the pages. -/
def Lists {κ : Type} (indexer : ℕ → Rpc κ) (tag : Bytes 32)
    (listed : ℕ → List (List ShieldedTransaction)) (pages : ℕ → ℕ) : Prop :=
  ∀ n, Paging.Listing
      (fun cursor => orErr ((indexer n).getShieldedTransactionsByTags [tag] cursor)) none
      (listed n) ∧ (listed n).length ≤ pages n

section Until

variable {β : Type} {now : ℕ → ℕ} {timeout : ℕ} {what : String}
  {collect : ℕ → Option (SdkResult (List β))} {fuel : ℕ}

/-- The wait ends: the pauses between the rounds add up to the timeout. -/
theorem exists_indexUntil (hnow : Polling.Sleeps INDEX_POLL now)
    (hcollect : ∀ n, ∃ r, collect n = some r) (hfuel : timeout / INDEX_POLL + 2 ≤ fuel) :
    ∃ r, indexUntil now timeout what collect fuel = some r := by
  obtain ⟨k, hk, hlate⟩ := hnow.exists_late (by decide) timeout
  refine Polling.exists_pollUntil hcollect ⟨k, Nat.lt_of_lt_of_le hk hfuel, ?_⟩
  rw [Nat.zero_add]
  exact hlate

/-- What a wait ends with that ends. -/
theorem indexUntil_eq_some (hfuel : ∃ r, indexUntil now timeout what collect fuel = some r)
    {r : SdkResult (List β)} :
    indexUntil now timeout what collect fuel = some r ↔
      ∃ n, (∀ m < n, collect m = some (.ok []) ∧ InTime now timeout m) ∧
        Polling.Ends collect (fun n => now (n + 1) ≥ now 0 + timeout)
          (.message ("timed out discovering " ++ what)) n r := by
  have hunfold : ∀ r, indexUntil now timeout what collect fuel = some r ↔
      ∃ n < fuel, (∀ m < n, collect m = some (.ok []) ∧ InTime now timeout m) ∧
        Polling.Ends collect (fun n => now (n + 1) ≥ now 0 + timeout)
          (.message ("timed out discovering " ++ what)) n r := by
    intro r
    simp only [indexUntil, Polling.pollUntil_eq_some, Polling.Waits, Nat.zero_add, ge_iff_le,
      Nat.not_le, InTime]
  constructor
  · intro h
    obtain ⟨n, -, hround⟩ := (hunfold r).mp h
    exact ⟨n, hround⟩
  · rintro ⟨n, hbefore, hends⟩
    obtain ⟨r', hr'⟩ := hfuel
    obtain ⟨n', hlt, hbefore', hends'⟩ := (hunfold r').mp hr'
    have hwaits : ∀ m, collect m = some (.ok []) ∧ InTime now timeout m →
        Polling.Waits collect (fun n => now (n + 1) ≥ now 0 + timeout) m := by
      rintro m ⟨hempty, htime⟩
      exact ⟨hempty, Nat.not_le.mpr htime⟩
    -- both rounds are the first that is not waited out
    have hsame : n = n' := by
      rcases Nat.lt_trichotomy n n' with hless | heq | hless
      · exact absurd (hwaits n (hbefore' n hless)) hends.not_waits
      · exact heq
      · exact absurd (hwaits n' (hbefore n' hless)) hends'.not_waits
    subst hsame
    exact (hunfold r).mpr ⟨n, hlt, hbefore, hends⟩

/-- What a wait returns is what one of its passes has collected. -/
theorem exists_collect_of_indexUntil {items : List β}
    (h : indexUntil now timeout what collect fuel = some (.ok items)) :
    ∃ n, collect n = some (.ok items) ∧ items ≠ [] := by
  obtain ⟨k, -, -, hends⟩ := Polling.pollUntil_eq_some.mp h
  cases hends with
  | finds hcollect hitems => exact ⟨0 + k, hcollect, hitems⟩

end Until

section Pass

variable {I : IndexContext} {κ β : Type} {keypair : ShieldedKeypair} {indexer : Rpc κ}
  {scan : ShieldedTransaction → SdkResult (Option β)} {tag : Bytes 32}

/-- A pass with fuel is one traversal of what is listed. -/
theorem collectTagged_eq (htag : I.confidentialViewTag keypair.signingPubkey = some tag)
    {pages : List (List ShieldedTransaction)}
    (hlist : Paging.Listing
      (fun cursor => orErr (indexer.getShieldedTransactionsByTags [tag] cursor)) none pages)
    {fuel : ℕ} (hfuel : pages.length ≤ fuel) :
    collectTagged I keypair indexer scan fuel = some (pages.flatten.filterMapM scan) := by
  rw [collectTagged, htag]
  refine (Paging.collect_eq hlist hfuel []).trans ?_
  cases pages.flatten.filterMapM scan <;> rfl

end Pass

/-! ## The maker -/

/-- **The maker waits for the first listing with an order.** The wait ends. It returns the orders
of the first pass that lists one, if it comes to this pass in time, and it fails, by its timeout,
exactly if no pass that it comes to in time lists an order. -/
theorem index_maker_waits {M : MakerIndexContext} (keypair : ShieldedKeypair)
    (registry : AssetRegistry) {makerAddress : ShieldedAddress} {tag : Bytes 32}
    (htag : M.confidentialViewTag keypair.signingPubkey = some tag)
    (haddress : M.shieldedAddress keypair = some makerAddress) {κ : Type} {indexer : ℕ → Rpc κ}
    {listed : ℕ → List (List ShieldedTransaction)} {pages : ℕ → ℕ}
    (hlists : Lists indexer tag listed pages) {now : ℕ → ℕ}
    (hnow : Polling.Sleeps INDEX_POLL now) (timeout : ℕ) {fuel : ℕ}
    (hfuel : timeout / INDEX_POLL + 2 ≤ fuel) :
    ∃ find : ShieldedTransaction → Option MakerOrder,
      (∀ tx order, find tx = some order ↔
        Nonempty (tx.HasOrder M keypair registry makerAddress order)) ∧
      (∃ r, indexMaker M keypair registry indexer now timeout pages fuel = some r) ∧
      (∀ orders, indexMaker M keypair registry indexer now timeout pages fuel = some (.ok orders) ↔
        ∃ n, (∀ m < n, (listed m).flatten.filterMap find = [] ∧ InTime now timeout m) ∧
          orders = (listed n).flatten.filterMap find ∧ orders ≠ []) ∧
      ∀ e, indexMaker M keypair registry indexer now timeout pages fuel = some (.error e) ↔
        e = .message "timed out discovering maker orders" ∧
          ∀ n, (∀ m < n, InTime now timeout m) → (listed n).flatten.filterMap find = [] := by
  have htotal : ∀ tx, ∃ found, scanMaker M tx keypair registry = .ok found :=
    exists_scanMaker_eq_ok haddress
  choose find hfind using htotal
  have hcollect : ∀ n, collectTagged M.toIndexContext keypair (indexer n)
      (scanMaker M · keypair registry) (pages n) = some (.ok ((listed n).flatten.filterMap find)) := by
    intro n
    rw [collectTagged_eq htag (hlists n).1 (hlists n).2, Paging.filterMapM_eq_ok hfind]
  have hends : ∃ r, indexMaker M keypair registry indexer now timeout pages fuel = some r :=
    exists_indexUntil hnow (fun n => ⟨_, hcollect n⟩) hfuel
  have hround : ∀ r, indexMaker M keypair registry indexer now timeout pages fuel = some r ↔ _ :=
    fun r => indexUntil_eq_some hends
  simp only [hcollect, Option.some.injEq, Except.ok.injEq] at hround
  refine ⟨find, ?_, hends, ?_, ?_⟩
  · intro tx order
    rw [← scanMaker_eq_ok_some_iff haddress, hfind, Except.ok.injEq]
  · intro orders
    rw [hround]
    constructor
    · rintro ⟨n, hbefore, hend⟩
      cases hend with
      | finds hitems hne =>
          rw [Option.some.injEq, Except.ok.injEq] at hitems
          exact ⟨n, hbefore, hitems.symm, hne⟩
    · rintro ⟨n, hbefore, rfl, hne⟩
      exact ⟨n, hbefore, .finds rfl hne⟩
  · intro e
    rw [hround]
    constructor
    · rintro ⟨n, hbefore, hend⟩
      cases hend with
      | fails hfail =>
          rw [Option.some.injEq] at hfail
          cases hfail
      | expires hempty hlate =>
          rw [Option.some.injEq, Except.ok.injEq] at hempty
          refine ⟨rfl, ?_⟩
          intro n' htime
          rcases Nat.lt_trichotomy n' n with hless | rfl | hless
          · exact (hbefore n' hless).1
          · exact hempty
          · exact absurd (htime n hless) (Nat.not_lt.mpr hlate)
    · rintro ⟨rfl, hsilent⟩
      obtain ⟨r, hr⟩ := hends
      obtain ⟨n, hbefore, hend⟩ := (hround r).mp hr
      have hempty := hsilent n fun m hm => (hbefore m hm).2
      refine ⟨n, hbefore, ?_⟩
      cases hend with
      | fails hfail =>
          rw [Option.some.injEq] at hfail
          cases hfail
      | finds hitems hne =>
          rw [hempty, Option.some.injEq, Except.ok.injEq] at hitems
          exact absurd hitems.symm hne
      | expires hfound hlate => exact .expires hfound hlate

/-! ## The taker -/

/-- No transaction of the listing has a message under the tag. -/
def Silent (tag : Bytes 32) (pages : List (List ShieldedTransaction)) : Prop :=
  ∀ tx ∈ pages.flatten, tx.taggedMessage tag = none

/-- The round is the first that lists a message under the tag, and it is come to in time. -/
def FirstMessage (now : ℕ → ℕ) (timeout : ℕ) (tag : Bytes 32)
    (listed : ℕ → List (List ShieldedTransaction)) (n : ℕ) : Prop :=
  (∀ m < n, Silent tag (listed m) ∧ InTime now timeout m) ∧ ¬Silent tag (listed n)

/-- **The first message under his tag ends the wait of the taker.** The wait ends. If a message comes
in time, the wait returns the orders that are listed then, exactly if every transaction listed then
is harmless. If none comes in time, it ends by its timeout. -/
theorem index_taker_waits {I : IndexContext} (keypair : ShieldedKeypair)
    (registry : AssetRegistry) {tag : Bytes 32}
    (htag : I.confidentialViewTag keypair.signingPubkey = some tag) {κ : Type}
    {indexer rpc : ℕ → Rpc κ} {listed : ℕ → List (List ShieldedTransaction)} {pages : ℕ → ℕ}
    (hlists : Lists indexer tag listed pages) {now : ℕ → ℕ}
    (hnow : Polling.Sleeps INDEX_POLL now) (timeout : ℕ) {fuel : ℕ}
    (hfuel : timeout / INDEX_POLL + 2 ≤ fuel) :
    (∃ r, indexTaker I keypair registry indexer rpc now timeout pages fuel = some r) ∧
    (∀ n, FirstMessage now timeout tag listed n →
      ((∃ orders, indexTaker I keypair registry indexer rpc now timeout pages fuel =
          some (.ok orders)) ↔
        ∀ tx ∈ (listed n).flatten, Harmless I keypair registry (rpc n) tag tx) ∧
      ∀ orders, indexTaker I keypair registry indexer rpc now timeout pages fuel =
          some (.ok orders) → ∀ order, order ∈ orders ↔
        ∃ tx ∈ (listed n).flatten,
          indexTakerScan I keypair registry (rpc n) tx = .ok (some order)) ∧
    ((∀ n, (∀ m < n, InTime now timeout m) → Silent tag (listed n)) →
      indexTaker I keypair registry indexer rpc now timeout pages fuel =
        some (.error (.message "timed out discovering taker orders"))) := by
  have hcollect : ∀ n, collectTagged I keypair (indexer n)
      (indexTakerScan I keypair registry (rpc n)) (pages n) =
        some ((listed n).flatten.filterMapM (indexTakerScan I keypair registry (rpc n))) :=
    fun n => collectTagged_eq htag (hlists n).1 (hlists n).2
  have hsilent : ∀ n, Silent tag (listed n) → collectTagged I keypair (indexer n)
      (indexTakerScan I keypair registry (rpc n)) (pages n) = some (.ok []) := by
    intro n hn
    rw [hcollect, Option.some.injEq, Paging.filterMapM_eq_ok_nil]
    intro tx htx
    exact indexTakerScan_of_untagged htag (hn tx htx)
  have hends : ∃ r, indexTaker I keypair registry indexer rpc now timeout pages fuel = some r :=
    exists_indexUntil hnow (fun n => ⟨_, hcollect n⟩) hfuel
  have hround : ∀ r, indexTaker I keypair registry indexer rpc now timeout pages fuel = some r ↔ _ :=
    fun r => indexUntil_eq_some hends
  refine ⟨hends, ?_, ?_⟩
  · rintro n ⟨hbefore, hmessage⟩
    -- the pass of this round fails or finds something
    have hresult : indexTaker I keypair registry indexer rpc now timeout pages fuel =
        some ((listed n).flatten.filterMapM (indexTakerScan I keypair registry (rpc n))) := by
      refine (hround _).mpr ⟨n, fun m hm => ⟨hsilent m (hbefore m hm).1, (hbefore m hm).2⟩, ?_⟩
      cases hpass : (listed n).flatten.filterMapM (indexTakerScan I keypair registry (rpc n)) with
      | error e => exact .fails (by rw [hcollect, hpass])
      | ok orders =>
          refine .finds (by rw [hcollect, hpass]) ?_
          rintro rfl
          rw [Paging.filterMapM_eq_ok_nil] at hpass
          refine hmessage ?_
          intro tx htx
          cases htagged : tx.taggedMessage tag with
          | none => rfl
          | some message =>
              obtain ⟨a, ha⟩ := (indexTakerScan_of_tagged htag htagged).mp (hpass tx htx)
              cases ha
    rw [hresult]
    constructor
    · simp only [Option.some.injEq, Paging.exists_filterMapM_eq_ok, exists_indexTakerScan_eq_ok htag]
    · intro orders horders order
      exact Paging.mem_filterMapM (Option.some.inj horders)
  · intro hall
    obtain ⟨r, hr⟩ := hends
    obtain ⟨n, hbefore, hend⟩ := (hround r).mp hr
    have hempty := hsilent n (hall n fun m hm => (hbefore m hm).2)
    cases hend with
    | fails hfail =>
        rw [hempty, Option.some.injEq] at hfail
        cases hfail
    | finds hitems hne =>
        rw [hempty, Option.some.injEq, Except.ok.injEq] at hitems
        exact absurd hitems.symm hne
    | expires _ _ => exact hr

/-! ## A sample wait

The make of the sample is listed from the second pass on, half a second after the first. -/

namespace Sample

/-- An indexer that lists no transaction, and then the make. -/
def laterIndexer (n : ℕ) : Rpc Unit where
  getShieldedTransactionsByTags _ _ := some ⟨if n = 0 then [] else [orderTransaction], none⟩
  resolveRegisteredAddress _ := none

def laterListed (n : ℕ) : List (List ShieldedTransaction) :=
  [if n = 0 then [] else [orderTransaction]]

theorem laterIndexer_lists (tag : Bytes 32) :
    Lists laterIndexer tag laterListed (fun _ => 1) := by
  intro n
  exact ⟨.last rfl, Nat.le_refl 1⟩

/-- A clock of passes that take no time. -/
def clock (n : ℕ) : ℕ := (n - 1) * INDEX_POLL

theorem clock_sleeps : Polling.Sleeps INDEX_POLL clock where
  start := by decide
  sleep n := by
    show n * INDEX_POLL + INDEX_POLL ≤ (n + 1) * INDEX_POLL
    rw [Nat.succ_mul]

end Sample

open Sdk.Sample in
theorem index_maker_waits_sample :
    indexMaker makerIndexContext Sample.makerKeypair registry laterIndexer clock INDEX_POLL
      (fun _ => 1) 3 = some (.ok [makerOrder]) := by
  obtain ⟨find, hfind, -, hok, -⟩ := index_maker_waits (M := makerIndexContext)
    Sample.makerKeypair registry rfl rfl (laterIndexer_lists (Bytes.replicate 32 2)) clock_sleeps
    INDEX_POLL (Nat.le_refl 3)
  have horder : find orderTransaction = some makerOrder :=
    (hfind _ _).mpr ((scanMaker_eq_ok_some_iff rfl).mp scanMaker_orderTransaction)
  refine (hok _).mpr ⟨1, ?_, ?_, by simp⟩
  · intro m hm
    obtain rfl := Nat.lt_one_iff.mp hm
    exact ⟨rfl, by unfold InTime; decide⟩
  · simp [laterListed, horder]

open Sdk.Sample in
theorem index_taker_waits_sample :
    ∃ orders, indexTaker indexContext takerKeypair registry laterIndexer (fun _ => rpc) clock
        INDEX_POLL (fun _ => 1) 3 = some (.ok orders) ∧ takerOrder ∈ orders := by
  obtain ⟨-, hmessage, -⟩ := @index_taker_waits indexContext takerKeypair registry _ rfl Unit
    laterIndexer (fun _ => rpc) _ _ (laterIndexer_lists (Bytes.replicate 32 2)) _ clock_sleeps
    INDEX_POLL _ (Nat.le_refl 3)
  have hfirst : FirstMessage clock INDEX_POLL (Bytes.replicate 32 2) laterListed 1 := by
    constructor
    · intro m hm
      obtain rfl := Nat.lt_one_iff.mp hm
      exact ⟨fun tx htx => absurd htx List.not_mem_nil, by unfold InTime; decide⟩
    · intro hsilent
      exact absurd (hsilent orderTransaction List.mem_cons_self) (by decide)
  obtain ⟨hiff, hmem⟩ := hmessage 1 hfirst
  obtain ⟨orders, horders⟩ := hiff.mpr (by
    intro tx htx
    obtain rfl := List.mem_singleton.mp htx
    exact (exists_indexTakerScan_eq_ok rfl).mp ⟨_, scan_orderTransaction⟩)
  exact ⟨orders, horders, (hmem orders horders _).mpr
    ⟨orderTransaction, List.mem_cons_self, scan_orderTransaction⟩⟩

end Zolana.Swap.Sdk
