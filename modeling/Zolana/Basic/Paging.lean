import Mathlib.Data.List.Basic

set_option autoImplicit false

/-! # Reading a paged listing

A listing is fetched page by page, each page naming the next cursor, and every entry is
scanned by a function that skips it, yields an item or fails. `collect` is the loop: it
returns at the last page or at the first failure. On a finite listing it is one traversal of
all entries (`collect_eq`), and the traversal succeeds exactly when no entry fails. What an
entry yields may itself be searched for in a list, up to the first success (`First`).
-/

namespace Zolana.Paging

/-! ## Scanning a list -/

section Scan

variable {ε τ β : Type}

/-- A traversal succeeds exactly when the scan fails on no entry. -/
theorem exists_filterMapM_eq_ok {scan : τ → Except ε (Option β)} {txs : List τ} :
    (∃ items, txs.filterMapM scan = .ok items) ↔ ∀ tx ∈ txs, ∃ item, scan tx = .ok item := by
  induction txs with
  | nil => simp [pure, Except.pure]
  | cons tx txs ih =>
      rw [List.forall_mem_cons, ← ih, List.filterMapM_cons]
      cases hscan : scan tx with
      | error e => simp [bind, Except.bind]
      | ok item =>
          cases item with
          | none => simp [bind, Except.bind]
          | some item =>
              cases htxs : txs.filterMapM scan <;> simp [bind, Except.bind, pure, Except.pure]

/-- What a successful traversal returns: the items of the entries that yield one. -/
theorem mem_filterMapM {scan : τ → Except ε (Option β)} {txs : List τ} {items : List β}
    (h : txs.filterMapM scan = .ok items) {item : β} :
    item ∈ items ↔ ∃ tx ∈ txs, scan tx = .ok (some item) := by
  induction txs generalizing items with
  | nil =>
      obtain rfl : [] = items := Except.ok.inj h
      simp
  | cons tx txs ih =>
      rw [List.filterMapM_cons] at h
      cases hscan : scan tx with
      | error e => simp [hscan, bind, Except.bind] at h
      | ok found =>
          cases found with
          | none =>
              simp only [hscan, bind, Except.bind] at h
              simp [ih h, hscan]
          | some first =>
              cases htxs : txs.filterMapM scan with
              | error e => simp [hscan, htxs, bind, Except.bind] at h
              | ok rest =>
                  simp only [hscan, htxs, bind, Except.bind, pure, Except.pure,
                    Except.ok.injEq] at h
                  subst h
                  simp [ih htxs, hscan, eq_comm]

theorem filterMapM_append {scan : τ → Except ε (Option β)} (txs txs' : List τ) :
    (txs ++ txs').filterMapM scan = do
      let items ← txs.filterMapM scan
      let items' ← txs'.filterMapM scan
      return items ++ items' := by
  induction txs with
  | nil => simp
  | cons tx txs ih =>
      rw [List.cons_append, List.filterMapM_cons, List.filterMapM_cons, ih]
      cases scan tx with
      | error e => rfl
      | ok item =>
          cases item with
          | none => rfl
          | some item =>
              simp only [bind, Except.bind]
              cases txs.filterMapM scan with
              | error e => rfl
              | ok items => cases txs'.filterMapM scan <;> rfl

/-- A traversal comes back empty exactly when every entry is skipped. -/
theorem filterMapM_eq_ok_nil {scan : τ → Except ε (Option β)} {txs : List τ} :
    txs.filterMapM scan = .ok [] ↔ ∀ tx ∈ txs, scan tx = .ok none := by
  constructor
  · intro h tx htx
    obtain ⟨item, hitem⟩ := exists_filterMapM_eq_ok.mp ⟨_, h⟩ tx htx
    cases item with
    | none => exact hitem
    | some item => exact absurd ((mem_filterMapM h).mpr ⟨tx, htx, hitem⟩) List.not_mem_nil
  · intro h
    obtain ⟨items, hitems⟩ := exists_filterMapM_eq_ok.mpr fun tx htx => ⟨none, h tx htx⟩
    rw [hitems, Except.ok.injEq, List.eq_nil_iff_forall_not_mem]
    intro item hitem
    obtain ⟨tx, htx, hscan⟩ := (mem_filterMapM hitems).mp hitem
    rw [h tx htx, Except.ok.injEq] at hscan
    cases hscan

/-- A scan that fails nowhere only selects. -/
theorem filterMapM_eq_ok {scan : τ → Except ε (Option β)} {find : τ → Option β}
    (hscan : ∀ tx, scan tx = .ok (find tx)) (txs : List τ) :
    txs.filterMapM scan = .ok (txs.filterMap find) := by
  induction txs with
  | nil => rfl
  | cons tx txs ih =>
      rw [List.filterMapM_cons, hscan, ih, List.filterMap_cons]
      cases find tx with
      | none => rfl
      | some item => rfl

end Scan

/-! ## Searching a list -/

section Search

variable {τ β : Type} {yields : τ → β → Prop} {txs : List τ}

/-- The item is one that the first entry to yield any item yields. -/
def First (yields : τ → β → Prop) (txs : List τ) (item : β) : Prop :=
  ∃ before tx after, txs = before ++ tx :: after ∧ yields tx item ∧
    ∀ earlier ∈ before, ∀ item', ¬yields earlier item'

theorem findSome?_eq_some_iff_first {find : τ → Option β}
    (hfind : ∀ tx item, find tx = some item ↔ yields tx item) {item : β} :
    txs.findSome? find = some item ↔ First yields txs item := by
  simp only [List.findSome?_eq_some_iff, First, Option.eq_none_iff_forall_ne_some, ne_eq, hfind]

/-- Entries that yield nothing hide none that do. -/
theorem exists_first_iff :
    (∃ item, First yields txs item) ↔ ∃ tx ∈ txs, ∃ item, yields tx item := by
  constructor
  · rintro ⟨item, before, tx, after, rfl, hitem, -⟩
    exact ⟨tx, List.mem_append_right _ List.mem_cons_self, item, hitem⟩
  · induction txs with
    | nil => simp
    | cons tx txs ih =>
        rintro ⟨tx', htx', item', hitem'⟩
        by_cases hyields : ∃ item, yields tx item
        · obtain ⟨item, hitem⟩ := hyields
          exact ⟨item, [], tx, txs, rfl, hitem, by simp⟩
        · rw [not_exists] at hyields
          have hmem : tx' ∈ txs := by
            rcases List.mem_cons.mp htx' with rfl | hmem
            · exact absurd hitem' (hyields item')
            · exact hmem
          obtain ⟨item, before, tx₁, after, rfl, hitem, hbefore⟩ := ih ⟨tx', hmem, item', hitem'⟩
          refine ⟨item, tx :: before, tx₁, after, rfl, hitem, ?_⟩
          rw [List.forall_mem_cons]
          exact ⟨hyields, hbefore⟩

end Search

/-! ## Pages -/

section Pages

variable {ε κ τ β : Type}

/-- One page: its entries and the cursor of the next page. -/
structure Page (κ τ : Type) where
  transactions : List τ
  nextCursor : Option κ

/-- The pages that `fetch` serves from a cursor on, up to the one without a next cursor. -/
inductive Listing (fetch : Option κ → Except ε (Page κ τ)) : Option κ → List (List τ) → Prop
  | last {cursor : Option κ} {txs : List τ} :
      fetch cursor = .ok ⟨txs, none⟩ → Listing fetch cursor [txs]
  | more {cursor : Option κ} {txs : List τ} {next : κ} {pages : List (List τ)} :
      fetch cursor = .ok ⟨txs, some next⟩ → Listing fetch (some next) pages →
        Listing fetch cursor (txs :: pages)

/-- The loop over the pages; `none` means that the fuel ran out before the last page. -/
def collect (fetch : Option κ → Except ε (Page κ τ)) (scan : τ → Except ε (Option β)) :
    ℕ → Option κ → List β → Option (Except ε (List β))
  | 0, _, _ => none
  | fuel + 1, cursor, found =>
      match fetch cursor with
      | .error e => some (.error e)
      | .ok page =>
          match page.transactions.filterMapM scan with
          -- what earlier pages yielded is lost
          | .error e => some (.error e)
          | .ok items =>
              match page.nextCursor with
              | none => some (.ok (found ++ items))
              | some next => collect fetch scan fuel (some next) (found ++ items)

/-- **The loop is one traversal.** With a unit of fuel for each page it ends, and what it
returns is the traversal of all entries. -/
theorem collect_eq {fetch : Option κ → Except ε (Page κ τ)} {scan : τ → Except ε (Option β)}
    {cursor : Option κ} {pages : List (List τ)} (h : Listing fetch cursor pages) {fuel : ℕ}
    (hfuel : pages.length ≤ fuel) (found : List β) :
    collect fetch scan fuel cursor found =
      some ((pages.flatten.filterMapM scan).map (found ++ ·)) := by
  -- along the listing; `found` grows from page to page, so it is general in the induction
  induction h generalizing fuel found with
  | @last cursor txs hfetch =>
      obtain ⟨fuel, rfl⟩ := Nat.exists_eq_add_one_of_ne_zero (Nat.pos_iff_ne_zero.mp hfuel)
      rw [collect, hfetch, List.flatten_singleton]
      cases htxs : txs.filterMapM scan <;> simp [htxs, Except.map]
  | @more cursor txs next pages hfetch _ ih =>
      obtain ⟨fuel, rfl⟩ := Nat.exists_eq_add_one_of_ne_zero
        (Nat.pos_iff_ne_zero.mp (Nat.lt_of_lt_of_le (Nat.succ_pos _) hfuel))
      have hle : pages.length ≤ fuel := Nat.le_of_succ_le_succ hfuel
      rw [collect, hfetch, List.flatten_cons, filterMapM_append]
      simp only
      cases htxs : txs.filterMapM scan with
      | error e => simp [bind, Except.bind, Except.map]
      | ok items =>
          simp only [ih hle, bind, Except.bind]
          cases pages.flatten.filterMapM scan <;> simp [Except.map, pure, Except.pure]

/-- With a scan that fails nowhere it returns all that the scan finds, in the order of the
listing. -/
theorem collect_eq_ok {fetch : Option κ → Except ε (Page κ τ)} {scan : τ → Except ε (Option β)}
    {find : τ → Option β} (hscan : ∀ tx, scan tx = .ok (find tx)) {cursor : Option κ}
    {pages : List (List τ)} (h : Listing fetch cursor pages) {fuel : ℕ}
    (hfuel : pages.length ≤ fuel) :
    collect fetch scan fuel cursor [] = some (.ok (pages.flatten.filterMap find)) := by
  rw [collect_eq h hfuel, filterMapM_eq_ok hscan]
  rfl

/-- The loop returns a list exactly when the scan fails on no listed entry. -/
theorem exists_collect_eq_ok {fetch : Option κ → Except ε (Page κ τ)}
    {scan : τ → Except ε (Option β)} {cursor : Option κ} {pages : List (List τ)}
    (h : Listing fetch cursor pages) {fuel : ℕ} (hfuel : pages.length ≤ fuel) :
    (∃ items, collect fetch scan fuel cursor [] = some (.ok items)) ↔
      ∀ tx ∈ pages.flatten, ∃ item, scan tx = .ok item := by
  rw [collect_eq h hfuel, ← exists_filterMapM_eq_ok]
  cases pages.flatten.filterMapM scan <;> simp [Except.map]

/-- The items the loop returns are those of the listed entries. -/
theorem mem_of_collect_eq_ok {fetch : Option κ → Except ε (Page κ τ)}
    {scan : τ → Except ε (Option β)} {cursor : Option κ} {pages : List (List τ)}
    (h : Listing fetch cursor pages) {fuel : ℕ} (hfuel : pages.length ≤ fuel) {items : List β}
    (hitems : collect fetch scan fuel cursor [] = some (.ok items)) {item : β} :
    item ∈ items ↔ ∃ tx ∈ pages.flatten, scan tx = .ok (some item) := by
  rw [collect_eq h hfuel, Option.some.injEq] at hitems
  cases htxs : pages.flatten.filterMapM scan with
  | error e =>
      rw [htxs] at hitems
      cases hitems
  | ok items' =>
      rw [htxs] at hitems
      obtain rfl : [] ++ items' = items := Except.ok.inj hitems
      rw [List.nil_append, mem_filterMapM htxs]

end Pages

end Zolana.Paging
