import Mathlib.Data.List.Basic

set_option autoImplicit false

/-! # Polling

A loop that collects, again and again, until something is found or it is late. A round ends the
loop or is waited out; so the loop returns what its first round that is not waited out ends with
(`pollUntil_eq_some`), and it returns at all if some round is late.

Whether a round is late is read off a clock. Between two readings the loop sleeps, so it is late
after a number of rounds that only depends on the timeout (`Sleeps.exists_late`).
-/

namespace Zolana.Polling

section Loop

variable {ε β : Type} (collect : ℕ → Option (Except ε (List β))) (late : ℕ → Prop) (timedOut : ε)

/-- The loop from round `n` on; `none` means that the fuel of the loop or of a round ran out. -/
def pollUntil [DecidablePred late] : ℕ → ℕ → Option (Except ε (List β))
  | 0, _ => none
  | fuel + 1, n =>
      match collect n with
      | none => none
      | some (.error e) => some (.error e)
      | some (.ok (item :: items)) => some (.ok (item :: items))
      | some (.ok []) => if late n then some (.error timedOut) else pollUntil fuel (n + 1)

/-- The round finds nothing and is not late. -/
def Waits (n : ℕ) : Prop :=
  collect n = some (.ok []) ∧ ¬late n

/-- What a round ends the loop with. -/
inductive Ends (n : ℕ) : Except ε (List β) → Prop
  | fails {e : ε} : collect n = some (.error e) → Ends n (.error e)
  | finds {items : List β} : collect n = some (.ok items) → items ≠ [] → Ends n (.ok items)
  | expires : collect n = some (.ok []) → late n → Ends n (.error timedOut)

variable {collect late timedOut}

/-- A round that is waited out ends nothing. -/
theorem Ends.not_waits {n : ℕ} {r : Except ε (List β)} (h : Ends collect late timedOut n r) :
    ¬Waits collect late n := by
  rintro ⟨hempty, hlate⟩
  cases h with
  | fails hfail => simp [hempty] at hfail
  | finds hfind hitems =>
      rw [hempty, Option.some.injEq, Except.ok.injEq] at hfind
      exact hitems hfind.symm
  | expires _ hlate' => exact hlate hlate'

/-- Every other round whose collecting ends does end the loop. -/
theorem waits_or_ends {n : ℕ} (h : ∃ r, collect n = some r) :
    Waits collect late n ∨ ∃ r, Ends collect late timedOut n r := by
  obtain ⟨r, hr⟩ := h
  cases r with
  | error e => exact .inr ⟨_, .fails hr⟩
  | ok items =>
      by_cases hitems : items = []
      · subst hitems
        by_cases hlate : late n
        · exact .inr ⟨_, .expires hr hlate⟩
        · exact .inl ⟨hr, hlate⟩
      · exact .inr ⟨_, .finds hr hitems⟩

variable [DecidablePred late]

theorem pollUntil_succ_of_waits {fuel n : ℕ} (h : Waits collect late n) :
    pollUntil collect late timedOut (fuel + 1) n =
      pollUntil collect late timedOut fuel (n + 1) := by
  rw [pollUntil, h.1]
  exact if_neg h.2

theorem pollUntil_succ_of_not_waits {fuel n : ℕ} (h : ¬Waits collect late n)
    {r : Except ε (List β)} :
    pollUntil collect late timedOut (fuel + 1) n = some r ↔ Ends collect late timedOut n r := by
  constructor
  · intro hr
    rw [pollUntil] at hr
    split at hr
    · cases hr
    · rename_i e hcollect
      obtain rfl := Option.some.inj hr
      exact .fails hcollect
    · rename_i item items hcollect
      obtain rfl := Option.some.inj hr
      exact .finds hcollect (List.cons_ne_nil _ _)
    · rename_i hcollect
      have hlate : late n := by
        by_contra hlate
        exact h ⟨hcollect, hlate⟩
      rw [if_pos hlate] at hr
      obtain rfl := Option.some.inj hr
      exact .expires hcollect hlate
  · intro hends
    rw [pollUntil]
    cases hends with
    | fails hcollect => rw [hcollect]
    | @finds items hcollect hitems =>
        cases items with
        | nil => exact absurd rfl hitems
        | cons item items => rw [hcollect]
    | expires hcollect hlate =>
        rw [hcollect]
        exact if_pos hlate

/-- **The first round that is not waited out decides.** -/
theorem pollUntil_eq_some {fuel n : ℕ} {r : Except ε (List β)} :
    pollUntil collect late timedOut fuel n = some r ↔
      ∃ k < fuel, (∀ j < k, Waits collect late (n + j)) ∧ Ends collect late timedOut (n + k) r := by
  induction fuel generalizing n with
  | zero => simp [pollUntil]
  | succ fuel ih =>
      by_cases hwaits : Waits collect late n
      · rw [pollUntil_succ_of_waits hwaits, ih]
        constructor
        · rintro ⟨k, hk, hbefore, hends⟩
          refine ⟨k + 1, Nat.succ_lt_succ hk, ?_, by rwa [Nat.add_right_comm] at hends⟩
          intro j hj
          cases j with
          | zero => exact hwaits
          | succ j =>
              have hround := hbefore j (Nat.lt_of_succ_lt_succ hj)
              rwa [Nat.add_right_comm] at hround
        · rintro ⟨k, hk, hbefore, hends⟩
          cases k with
          | zero => exact absurd hwaits hends.not_waits
          | succ k =>
              refine ⟨k, Nat.lt_of_succ_lt_succ hk, ?_, by rwa [Nat.add_right_comm]⟩
              intro j hj
              rw [Nat.add_right_comm]
              exact hbefore (j + 1) (Nat.succ_lt_succ hj)
      · rw [pollUntil_succ_of_not_waits hwaits]
        constructor
        · intro hends
          exact ⟨0, Nat.succ_pos fuel, fun j hj => absurd hj (Nat.not_lt_zero j), hends⟩
        · rintro ⟨k, -, hbefore, hends⟩
          cases k with
          | zero => exact hends
          | succ k => exact absurd (hbefore 0 (Nat.succ_pos k)) hwaits

/-- With rounds that end and one of them late, the loop ends. -/
theorem exists_pollUntil (hcollect : ∀ n, ∃ r, collect n = some r) {fuel n : ℕ}
    (hlate : ∃ k < fuel, late (n + k)) : ∃ r, pollUntil collect late timedOut fuel n = some r := by
  induction fuel generalizing n with
  | zero =>
      obtain ⟨k, hk, -⟩ := hlate
      exact absurd hk (Nat.not_lt_zero k)
  | succ fuel ih =>
      have hround : Waits collect late n ∨ ∃ r, Ends collect late timedOut n r :=
        waits_or_ends (hcollect n)
      rcases hround with hwaits | ⟨r, hends⟩
      · rw [pollUntil_succ_of_waits hwaits]
        obtain ⟨k, hk, hlate⟩ := hlate
        cases k with
        | zero => exact absurd hlate hwaits.2
        | succ k => exact ih ⟨k, Nat.lt_of_succ_lt_succ hk, by rwa [Nat.add_right_comm]⟩
      · exact ⟨r, (pollUntil_succ_of_not_waits hends.not_waits).mpr hends⟩

end Loop

/-! ## The clock -/

/-- The readings of a clock: one before the loop, and one after each round. Between two rounds
the loop sleeps. -/
structure Sleeps (pause : ℕ) (now : ℕ → ℕ) : Prop where
  start : now 0 ≤ now 1
  sleep : ∀ n, now (n + 1) + pause ≤ now (n + 2)

variable {pause : ℕ} {now : ℕ → ℕ}

theorem Sleeps.le_now (h : Sleeps pause now) (n : ℕ) : now 0 + n * pause ≤ now (n + 1) := by
  induction n with
  | zero => simpa using h.start
  | succ n ih =>
      calc now 0 + (n + 1) * pause = now 0 + n * pause + pause := by rw [Nat.succ_mul, Nat.add_assoc]
        _ ≤ now (n + 1) + pause := Nat.add_le_add_right ih pause
        _ ≤ now (n + 2) := h.sleep n

/-- The rounds until the deadline are at most those that the pauses leave room for. -/
theorem Sleeps.exists_late (h : Sleeps pause now) (hpause : 0 < pause) (timeout : ℕ) :
    ∃ k < timeout / pause + 2, now 0 + timeout ≤ now (k + 1) := by
  refine ⟨timeout / pause + 1, Nat.lt_succ_self _, ?_⟩
  have hroom : timeout ≤ (timeout / pause + 1) * pause := by
    rw [Nat.mul_comm]
    exact Nat.le_of_lt (Nat.lt_mul_div_succ timeout hpause)
  calc now 0 + timeout ≤ now 0 + (timeout / pause + 1) * pause := Nat.add_le_add_left hroom _
    _ ≤ now (timeout / pause + 2) := h.le_now _

end Zolana.Polling
