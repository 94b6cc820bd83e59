import CppPractice.Wrapper.Executions
import CppPractice.Wrapper.ShareRuns

set_option autoImplicit false

namespace CppPractice.OrderBook

open Tally (tally)
open LimitOrderBook (Accepts)

def totalBase (s : Impl) : Nat := tally (·.bal.base.toNat) s.users

def baseDepositOf : Op × Reply → Nat
  | (.addBalance _ _ baseDelta, .flag true) => baseDelta.toNat
  | _ => 0

def baseDeposits (log : List (Op × Reply)) : Nat := 2 * 10000 + tally baseDepositOf log

theorem sum_apart {user other n : Nat} (amount : Nat) (inside : user < n) :
    ∑ v ∈ Finset.range n, (if v = user ∧ ¬v = other then amount else 0) =
      if user = other then 0 else amount := by
  by_cases same : user = other
  · subst same
    simp
  · have apart (v : Nat) : v = user ∧ ¬v = other ↔ v = user :=
      ⟨And.left, fun mine => ⟨mine, by rw [mine]; exact same⟩⟩
    simp only [apart, if_neg same, Finset.sum_ite_eq', if_pos (Finset.mem_range.mpr inside)]

structure Conserved (s : Impl) (total : Nat) : Prop where
  covered : Covered s
  total : totalBase s = total

theorem Conserved.room {t t' : Impl} {total takerId : Nat} {e : Execution Qty}
    {maker taker bid ask : LiveOrder} (conserved : Conserved t total) (small : total < 2 ^ 32)
    (settles : Settles t t' takerId e maker taker) (exchange : Exchange maker taker bid ask e)
    (v : Nat) (w : User) (found : t.users[v]? = some w) :
    w.bal.base.toNat + (if v = bid.user ∧ ¬v = ask.user then e.qty.toNat else 0) < 2 ^ 32 := by
  split
  · rename_i buys
    obtain ⟨rfl, apart⟩ := buys
    obtain ⟨seller, sells⟩ : ∃ seller, t.users[ask.user]? = some seller := by
      have inside : ask.user < t.users.length := by
        rcases exchange.roles with ⟨-, rfl⟩ | ⟨-, rfl, -⟩
        · exact settles.makerOwned
        · exact settles.takerOwned
      exact ⟨_, List.getElem?_eq_getElem inside⟩
    -- The buyer's shares and the seller's are both in the total.
    have owns := le_trans (settles.owns exchange) (conserved.covered _ _ sells)
    have both := Tally.two_le_tally (f := fun u : User => u.bal.base.toNat) apart found sells
    have total := conserved.total
    rw [totalBase] at total
    omega
  · exact w.bal.base.isLt

theorem Conserved.settle {t t' : Impl} {total takerId : Nat} {e : Execution Qty}
    {maker taker : LiveOrder} (conserved : Conserved t total) (small : total < 2 ^ 32)
    (settles : Settles t t' takerId e maker taker) : Conserved t' total := by
  obtain ⟨bid, ask, exchange⟩ := settles.exchange
  have room := conserved.room small settles exchange
  refine ⟨settles.covered exchange conserved.covered room, ?_⟩
  have owned : bid.user < t.users.length ∧ ask.user < t.users.length := by
    rcases exchange.roles with ⟨rfl, rfl⟩ | ⟨rfl, rfl, -⟩
    · exact ⟨settles.takerOwned, settles.makerOwned⟩
    · exact ⟨settles.makerOwned, settles.takerOwned⟩
  have balance := Tally.tally_balance (f := fun u : User => u.bal.base.toNat)
    (fun v => if v = ask.user ∧ ¬v = bid.user then e.qty.toNat else 0)
    (fun v => if v = bid.user ∧ ¬v = ask.user then e.qty.toNat else 0)
    settles.moves.length fun v w u' before after => by
      obtain ⟨w', before', rfl⟩ := settles.moves.source after
      obtain rfl : w = w' := Option.some.inj (before.symm.trans before')
      exact settles.base exchange conserved.covered room before
  rw [sum_apart _ owned.1, sum_apart _ owned.2] at balance
  have total := conserved.total
  rw [totalBase] at total ⊢
  split_ifs at balance <;> omega

theorem Moves.totalBase {s s' : Impl} {delta : Nat → Delta} (moves : Moves s.users s'.users delta)
    (none : ∀ v, (delta v).base = 0) : totalBase s' = totalBase s := by
  have same (v : Nat) : (s'.users[v]?).map (fun u : User => u.bal.base.toNat) =
      (s.users[v]?).map fun u : User => u.bal.base.toNat + 0 := by
    rw [moves, Option.map_map]
    simp [Function.comp_def, none]
  simpa [OrderBook.totalBase] using Tally.tally_shift same

theorem opened_conserved {s : Impl} {total : Nat} (synced : Synced s)
    (conserved : Conserved s total) {side : Side} {user : Nat} {price : Price} {qty : Qty}
    (admits : s.Admits side user price qty) : Conserved (s.opened side user price qty) total where
  covered := opened_covered synced conserved.covered admits
  total := by
    rw [← conserved.total]
    refine Moves.totalBase opened_moves fun v => ?_
    rw [only_base, (Delta.lock_balances side price qty).2, ite_self]

theorem cancelled_conserved {s : Impl} {total : Nat} (conserved : Conserved s total)
    {user id : Nat} {isBid : Bool} {o : LiveOrder} (cancels : s.Cancels user id isBid o) :
    Conserved (s.cancelled user id o) total where
  covered := cancelled_covered conserved.covered cancels
  total := by
    rw [← conserved.total]
    refine Moves.totalBase (Moves.modify _ _ (release_eq · o)) fun v => ?_
    rw [only_base, (Delta.release_balances o).2, ite_self]

theorem rejected_conserved {s : Impl} {total : Nat} (conserved : Conserved s total) (side : Side)
    (user : Nat) (price : Price) (qty : Qty) :
    Conserved (s.rejected side user price qty) total where
  covered v u found := by
    have earlier := conserved.covered v u found
    rw [Impl.rejected, Tally.tally_append, Tally.tally_cons, offered_close, Tally.tally_nil]
    exact earlier
  total := conserved.total

theorem submit_conserved {s s' : Impl} {total : Nat} (synced : Synced s)
    (conserved : Conserved s total) (small : total < 2 ^ 32) {sub : Submission}
    {reply : Option Nat} (submitted : s.submits sub = some (s', reply)) : Conserved s' total := by
  rcases submit_cases synced submitted with ⟨-, -, rfl⟩ | ⟨admits, room, ⟨-, -, rfl⟩ |
    ⟨-, sameId, -, outcome, after, remaining, -, processed, rfl⟩⟩
  · exact ⟨conserved.covered, conserved.total⟩
  · exact rejected_conserved conserved _ _ _ _
  · refine acceptOrder_rule synced admits room sameId processed sub.discardUnfilled
      (J := fun _ t => Conserved t total) (P := fun t => Conserved t total) ?_ ?_ ?_ ?_
    · intro book stats
      have opened := opened_conserved synced conserved admits
      exact ⟨opened.covered, opened.total⟩
    · exact fun _ _ _ _ _ kept settles _ => kept.settle small settles
    · exact fun _ kept _ _ => ⟨kept.covered, kept.total⟩
    · intro t o kept _ _ cancels
      have cancelled := cancelled_conserved kept cancels
      exact ⟨cancelled.covered, cancelled.total⟩

theorem deposit_conserved {s : Impl} {total : Nat} (conserved : Conserved s total) (d : Deposit)
    (small : total + baseDepositOf (.addBalance d.user d.quoteDelta d.baseDelta,
      .flag (s.addBalance d.user d.quoteDelta d.baseDelta).2) < 2 ^ 32) :
    Conserved (s.addBalance d.user d.quoteDelta d.baseDelta).1
      (total + baseDepositOf (.addBalance d.user d.quoteDelta d.baseDelta,
        .flag (s.addBalance d.user d.quoteDelta d.baseDelta).2)) := by
  have kept := conserved.total
  rw [totalBase] at kept
  rcases addBalance_cases s d.user d.quoteDelta d.baseDelta with ⟨-, same⟩ |
    ⟨u, users, accepted, done, moves⟩
  · rw [same]
    exact conserved
  · rw [done] at small
    simp only [baseDepositOf] at small
    have inside := (List.getElem?_eq_some_iff.mp accepted.1).1
    have part := Tally.le_tally (f := fun u : User => u.bal.base.toNat)
      (List.mem_of_getElem? accepted.1)
    have room : u.bal.base.toNat + d.baseDelta.toNat < 2 ^ 32 := by omega
    have fits : ¬DepositCarries s d := by
      rintro ⟨u', found, -, carries⟩
      obtain rfl := Option.some.inj (accepted.1.symm.trans found)
      omega
    refine ⟨deposit_covered conserved.covered fits, ?_⟩
    rw [done]
    simp only [baseDepositOf]
    have balance := Tally.tally_balance (f := fun u : User => u.bal.base.toNat)
      (fun _ => 0) (fun v => if v = d.user then d.baseDelta.toNat else 0)
      moves.length fun v w u' before after => by
        obtain ⟨w', before', rfl⟩ := moves.source after
        obtain rfl := Option.some.inj (before.symm.trans before')
        rw [plus_base, only_base]
        split
        · rename_i mine
          subst mine
          obtain rfl := Option.some.inj (before.symm.trans accepted.1)
          exact BitVec.toNat_add_of_lt room
        · exact congrArg BitVec.toNat (add_zero _)
    rw [Finset.sum_const_zero, Finset.sum_ite_eq', if_pos (Finset.mem_range.mpr inside)] at balance
    change tally (fun u : User => u.bal.base.toNat) users = _
    omega

theorem newUser_conserved {s : Impl} {total : Nat} (synced : Synced s)
    (conserved : Conserved s total) (name : String) : Conserved (s.makeUser name).1 total := by
  refine ⟨newUser_covered synced conserved.covered name, ?_⟩
  rw [← conserved.total]
  unfold Impl.makeUser
  split
  · rfl
  · simp [totalBase]

theorem step_conserved {s s' : Impl} {total : Nat} (synced : Synced s)
    (conserved : Conserved s total) {op : Op} {reply : Reply}
    (small : total + baseDepositOf (op, reply) < 2 ^ 32)
    (stepped : step s op = some (s', reply)) :
    Conserved s' (total + baseDepositOf (op, reply)) := by
  rcases step_cases stepped with ⟨name, rfl, rfl, rfl⟩ |
    ⟨user, quoteDelta, baseDelta, rfl, rfl, rfl⟩ | ⟨sub, result, submission, submitted, rfl⟩ |
    ⟨user, id, isBid, rfl, rfl, rfl⟩ | ⟨same, none, rfl, -⟩
  · exact newUser_conserved synced conserved name
  · exact deposit_conserved conserved ⟨user, quoteDelta, baseDelta⟩ small
  · have nothing : baseDepositOf (op, .order result) = 0 := by
      cases op <;> rfl
    rw [nothing] at small ⊢
    exact submit_conserved synced conserved small submitted
  · have nothing : baseDepositOf (if isBid then .cancelBid user id else .cancelAsk user id,
        .flag (s.cancel user id isBid).2) = 0 := by
      cases isBid <;> rfl
    rw [nothing]
    exact cancel_rule synced (P := fun t => Conserved t total)
      ⟨conserved.covered, conserved.total⟩ fun _ cancels => cancelled_conserved conserved cancels
  · have nothing : baseDepositOf (op, .unit) = 0 := by
      cases op <;> rfl
    rw [nothing]
    refine ⟨fun v u found => ?_, ?_⟩
    · rw [same.users] at found
      rw [same.orders]
      exact conserved.covered v u found
    · rw [totalBase, same.users]
      exact conserved.total

def FillsOwned (s : Impl) (op : Op) : Prop :=
  ∀ sub outcome front e, op.submission = some sub →
    s.Admits sub.side sub.user sub.price sub.qty →
    s.engine.processOrder sub.side sub.price sub.qty (toInt s.nextOrderId) = some outcome →
    front ++ [e] <+: outcome.executions →
    ∃ maker taker seller,
      (s.settled sub outcome.book front).orders[toOrderId e.makerOrderId]? = some maker ∧
      (s.settled sub outcome.book front).orders[s.nextOrderId]? = some taker ∧
      (s.settled sub outcome.book front).users[if maker.isBid then taker.user else maker.user]? =
        some seller ∧
      e.qty ≤ seller.bal.base ∧ e.qty ≤ seller.lockedBase

theorem Settles.seller {t t' : Impl} {takerId : Nat} {e : Execution Qty} {maker taker : LiveOrder}
    (settles : Settles t t' takerId e maker taker) (covered : Covered t)
    (accounts : Accounts t.users t.orders) :
    ∃ seller, t.users[if maker.isBid then taker.user else maker.user]? = some seller ∧
      e.qty ≤ seller.bal.base ∧ e.qty ≤ seller.lockedBase := by
  obtain ⟨bid, ask, exchange⟩ := settles.exchange
  obtain ⟨inside, user_eq⟩ : ask.user < t.users.length ∧
      (if maker.isBid then taker.user else maker.user) = ask.user := by
    have isBid := exchange.isBid
    have isAsk := exchange.isAsk
    rcases exchange.roles with ⟨-, rfl⟩ | ⟨rfl, rfl, -⟩
    · exact ⟨settles.makerOwned, by rw [isAsk]; rfl⟩
    · exact ⟨settles.takerOwned, by rw [isBid]; rfl⟩
  have found := List.getElem?_eq_getElem inside
  have owns := settles.owns exchange
  have supply := covered _ _ found
  have locked := accounts.locked_base found
  rw [Nat.mod_eq_of_lt (lt_of_le_of_lt supply (BitVec.isLt _))] at locked
  rw [user_eq]
  exact ⟨_, found, BitVec.le_def.mpr (le_trans owns supply), BitVec.le_def.mpr (by omega)⟩

theorem fills_owned {s : Impl} {total : Nat} (synced : Synced s) (conserved : Conserved s total)
    (small : total < 2 ^ 32) (op : Op) : FillsOwned s op := by
  rintro sub outcome front e - admits answered isPrefix
  by_cases accepts : Accepts Engine sub.price sub.qty (toInt s.nextOrderId)
  · obtain ⟨sameId, -⟩ := toInt_valid synced.bounded accepts.2.2
    obtain ⟨free, queue, rep⟩ := synced.represents
    rw [sameId] at accepts answered
    obtain ⟨outcome', after, remaining, answered', processed⟩ :=
      LimitOrderBook.processOrder_processed rep sub.side accepts synced.fresh
    obtain rfl := Option.some.inj (answered.symm.trans answered')
    obtain ⟨kept, accounts, t', maker, taker, settles⟩ := settled_each synced admits sameId processed
      (J := fun _ t => Conserved t total) (fun stats => by
        have opened := opened_conserved synced conserved admits
        exact ⟨opened.covered, opened.total⟩)
      (fun _ _ _ _ _ kept settles _ => kept.settle small settles) isPrefix
    obtain ⟨seller, found, owned, locked⟩ := settles.seller kept.covered accounts
    exact ⟨maker, taker, seller, settles.makerAt, settles.takerAt, found, owned, locked⟩
  · rw [LimitOrderBook.processOrder_rejects accepts] at answered
    obtain rfl := Option.some.inj answered
    exact absurd (List.prefix_nil.mp isPrefix) (by simp)

theorem run_conserved {ops : List Op} {s : Impl} {log : List (Op × Reply)}
    (ran : Runs.run step new ops = some (s, log)) (small : baseDeposits log < 2 ^ 32) :
    Conserved s (baseDeposits log) := by
  refine Runs.run_induction
    (P := fun log s => baseDeposits log < 2 ^ 32 → Conserved s (baseDeposits log))
    (fun _ => ⟨new_covered, by decide +kernel⟩) ?_ ran small
  intro front s log op s' reply early earlier stepped small
  have grown : baseDeposits (log ++ [(op, reply)]) =
      baseDeposits log + baseDepositOf (op, reply) := by
    rw [baseDeposits, baseDeposits, Tally.tally_append, Tally.tally_cons, Tally.tally_nil,
      Nat.add_zero, Nat.add_assoc]
  rw [grown] at small ⊢
  exact step_conserved (run_synced early) (earlier (by omega)) small stepped

theorem baseDeposits_mono {front rest : List (Op × Reply)} (isPrefix : front <+: rest) :
    baseDeposits front ≤ baseDeposits rest := by
  obtain ⟨later, rfl⟩ := isPrefix
  rw [baseDeposits, baseDeposits, Tally.tally_append]
  omega

theorem shares_conserved (ops : List Op) (few : submissions ops < 2 ^ 31) :
    ∃ s log, Runs.run step new ops = some (s, log) ∧ (baseDeposits log < 2 ^ 32 →
      ∀ front s' log', front <+: ops → Runs.run step new front = some (s', log') →
        totalBase s' = baseDeposits log' ∧ ∀ op, front ++ [op] <+: ops → FillsOwned s' op) := by
  obtain ⟨s, log, ran, -, -⟩ := run_defined few
  refine ⟨s, log, ran, fun small front s' log' isPrefix early => ?_⟩
  have shorter : baseDeposits log' ≤ baseDeposits log := by
    obtain ⟨rest, rfl⟩ := isPrefix
    rw [Runs.run_append, early, Option.bind_some, Option.map_eq_some_iff] at ran
    obtain ⟨final, -, same⟩ := ran
    obtain ⟨-, rfl⟩ := Prod.mk.inj same
    exact baseDeposits_mono (List.prefix_append _ _)
  have conserved := run_conserved early (by omega)
  exact ⟨conserved.total, fun op _ => fills_owned (run_synced early) conserved (by omega) op⟩

theorem shares_conserved_mixedOps :
    ∃ s log, Runs.run step new mixedOps = some (s, log) ∧
      ∀ front s' log', front <+: mixedOps → Runs.run step new front = some (s', log') →
        totalBase s' = baseDeposits log' ∧ ∀ op, front ++ [op] <+: mixedOps → FillsOwned s' op := by
  obtain ⟨s, log, ran, conserved⟩ := shares_conserved mixedOps (by decide)
  refine ⟨s, log, ran, conserved ?_⟩
  have value : (Runs.run step new mixedOps).map (fun result => decide (baseDeposits result.2 < 2 ^ 32)) =
      some true := by
    decide +kernel
  rw [ran, Option.map_some, Option.some.injEq] at value
  exact of_decide_eq_true value

end CppPractice.OrderBook
