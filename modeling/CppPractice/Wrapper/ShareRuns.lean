import CppPractice.Wrapper.Shares

set_option autoImplicit false

namespace CppPractice.OrderBook

open Lists (snoc_eq_some)
open Tally (tally)
open LiveOrder (offered)

theorem deposit_covered {s : Impl} (covered : Covered s) {d : Deposit}
    (fits : ¬DepositCarries s d) :
    Covered (s.addBalance d.user d.quoteDelta d.baseDelta).1 := by
  rcases addBalance_cases s d.user d.quoteDelta d.baseDelta with ⟨-, same⟩ |
    ⟨u, users, accepted, done, moves⟩
  · rw [same]
    exact covered
  · rw [done]
    intro v u' at_v
    obtain ⟨w, before, rfl⟩ := moves.source at_v
    have earlier := covered v w before
    rw [plus_base, only_base]
    by_cases mine : v = d.user
    · subst mine
      obtain rfl : u = w := by simpa [accepted.1] using before
      have room : u.bal.base.toNat + d.baseDelta.toNat < 2 ^ 32 := by
        by_contra carries
        exact fits ⟨u, accepted.1, accepted, not_lt.mp carries⟩
      rw [if_pos rfl, Delta.deposit, BitVec.toNat_add, Nat.mod_eq_of_lt room]
      exact Nat.le_add_right_of_le earlier
    · rw [if_neg mine, add_zero]
      exact earlier

theorem newUser_covered {s : Impl} (synced : Synced s) (covered : Covered s) (name : String) :
    Covered (s.makeUser name).1 := by
  unfold Impl.makeUser
  split
  · exact covered
  · intro v u at_v
    rcases snoc_eq_some at_v with old | ⟨rfl, rfl⟩
    · exact covered v u old
    · refine le_of_eq (Tally.tally_zero fun o member => ?_)
      unfold offered
      split
      · rename_i mine
        have owned := synced.accounts.owned o member mine.2.1
        omega
      · rfl

theorem step_covered {s s' : Impl} (synced : Synced s) (covered : Covered s) {op : Op}
    {reply : Reply} (stepped : step s op = some (s', reply)) (fits : ¬Carries s op) :
    Covered s' := by
  obtain ⟨deposits, purchases⟩ := not_or.mp fits
  rcases step_cases stepped with ⟨name, -, rfl, -⟩ | ⟨user, quoteDelta, baseDelta, rfl, rfl, -⟩ |
    ⟨sub, result, submission, submitted, -⟩ | ⟨user, id, isBid, -, rfl, -⟩ | ⟨same, -⟩
  · exact newUser_covered synced covered name
  · exact deposit_covered covered fun carries => deposits ⟨_, rfl, carries⟩
  · exact submit_covered synced covered submitted fun carries => purchases ⟨sub, submission, carries⟩
  · exact cancel_rule synced (P := Covered) covered fun _ cancels => cancelled_covered covered cancels
  · intro v u found
    rw [same.users] at found
    rw [same.orders]
    exact covered v u found

theorem new_covered : Covered new := by
  have each : ∀ v < new.users.length, ∀ u ∈ new.users[v]?,
      tally (offered v) new.orders ≤ u.bal.base.toNat := by
    decide +kernel
  intro v u found
  exact each v (List.getElem?_eq_some_iff.mp found).1 u found

theorem shares_covered (ops : List Op)
    (fits : ∀ front op s log result, front ++ [op] <+: ops →
      Runs.run step new front = some (s, log) → step s op = some result → ¬Carries s op) :
    ∀ front s log, front <+: ops → Runs.run step new front = some (s, log) → Covered s := by
  intro front s log isPrefix ran
  exact Runs.run_conditioned (P := fun _ s => Covered s) (Q := fun s op => ¬Carries s op) new_covered
    (fun _ _ _ _ _ _ early covered fits stepped =>
      step_covered (run_synced early) covered stepped fits)
    (fun front' op s log result earlier => fits front' op s log result (earlier.trans isPrefix)) ran

instance (s : Impl) (op : Op) : Decidable (Carries s op) :=
  inferInstanceAs (Decidable (
    (∃ d ∈ op.deposit, ∃ u ∈ s.users[d.user]?,
      (s.users[d.user]? = some u ∧ ¬(d.quoteDelta < 0 ∧ u.bal.quote + d.quoteDelta < 0)) ∧
        2 ^ 32 ≤ u.bal.base.toNat + d.baseDelta.toNat) ∨
    ∃ sub ∈ op.submission, s.Admits sub.side sub.user sub.price sub.qty ∧
      ∃ outcome ∈ s.engine.processOrder sub.side sub.price sub.qty (toInt s.nextOrderId),
        ∃ v < s.users.length, ∃ u ∈ s.users[v]?,
          2 ^ 32 ≤ u.bal.base.toNat + tally (s.bought sub.side sub.user v) outcome.executions))

theorem each_step {Q : Impl → Op → Prop} {ops : List Op}
    (checked : ∀ n < ops.length, ∀ result ∈ Runs.run step new (ops.take n), ∀ op ∈ ops[n]?,
      Q result.1 op) (front : List Op) (op : Op) (s : Impl) (log : List (Op × Reply))
    (isPrefix : front ++ [op] <+: ops) (ran : Runs.run step new front = some (s, log)) : Q s op := by
  obtain ⟨rest, rfl⟩ := isPrefix
  refine checked front.length ?_ (s, log) ?_ op ?_
  · simp
  · simpa using ran
  · simp

theorem shares_covered_mixedOps :
    (Runs.run step new mixedOps).isSome ∧ ∀ front s log, front <+: mixedOps →
      Runs.run step new front = some (s, log) → Covered s := by
  refine ⟨by decide +kernel, shares_covered mixedOps ?_⟩
  intro front op s log result isPrefix ran _
  exact each_step (Q := fun s op => ¬Carries s op) (by decide +kernel) front op s log isPrefix ran

-- Five shares on offer, and one deposited on top of `2 ^ 32 - 1`.
def carryingOps : List Op :=
  [.makeUser "carol", .addBalance 2 0 4294967295, .addAsk 2 20000 5, .addBalance 2 0 1]

theorem shares_not_covered :
    ¬∀ ops s log, Runs.run step new ops = some (s, log) → Covered s := by
  intro covered
  have value : (Runs.run step new carryingOps).map (fun result =>
      (result.1.users[2]?.map (·.bal.base), tally (offered 2) result.1.orders)) =
        some (some 0, 5) := by
    decide +kernel
  obtain ⟨⟨s, log⟩, ran, same⟩ := Option.map_eq_some_iff.mp value
  obtain ⟨account, offer⟩ := Prod.mk.inj same
  obtain ⟨u, found, base⟩ := Option.map_eq_some_iff.mp account
  have := covered carryingOps s log ran 2 u found
  rw [offer, base] at this
  exact absurd this (by decide)

end CppPractice.OrderBook
