import CppPractice.Shared.Lists
import CppPractice.Wrapper.Moves

set_option autoImplicit false

namespace CppPractice.OrderBook

open Lists (snoc_eq_some)
open Tally (tally tally_set tally_append)

theorem mulMoney_sub {price : Price} {qty traded : Qty} (enough : traded ≤ qty) :
    mulMoney price (qty - traded) = mulMoney price qty - mulMoney price traded := by
  have := BitVec.le_def.mp enough
  rw [mulMoney, mulMoney, mulMoney, BitVec.toNat_sub_of_le enough, ← Int.mul_sub,
    Int.ofNat_sub this]

@[simp]
theorem mulMoney_zero (price : Price) : mulMoney price 0 = 0 := by
  simp [mulMoney]

namespace LiveOrder

structure Accurate (o : LiveOrder) : Prop where
  active : o.active = true ↔ o.remaining ≠ 0
  quote : o.lockedQuote = if o.isBid then mulMoney o.limitPrice o.remaining else 0
  base : o.lockedBase = if o.isBid then 0 else o.remaining

def quoteOf (v : Nat) (o : LiveOrder) : Money := if o.user = v then o.lockedQuote else 0

def baseOf (v : Nat) (o : LiveOrder) : Qty := if o.user = v then o.lockedBase else 0

theorem isBid_eq (o : LiveOrder) : o.isBid = decide (o.side = .Buy) := by
  unfold side
  cases o.isBid <;> rfl

theorem fresh_accurate (side : Side) (user : Nat) (price : Price) {qty : Qty} (positive : qty ≠ 0) :
    (fresh side user price qty).Accurate := by
  cases side <;> exact ⟨iff_of_true rfl positive, rfl, rfl⟩

section

variable (o : LiveOrder) (traded : Qty)

@[simp]
theorem fill_user : (o.fill traded).user = o.user := by
  simp only [fill]
  split <;> split <;> rfl

@[simp]
theorem fill_isBid : (o.fill traded).isBid = o.isBid := by
  simp only [fill]
  split <;> split <;> rfl

@[simp]
theorem fill_limitPrice : (o.fill traded).limitPrice = o.limitPrice := by
  simp only [fill]
  split <;> split <;> rfl

@[simp]
theorem fill_remaining : (o.fill traded).remaining = o.remaining - traded := by
  simp only [fill]
  split <;> split <;> rfl

@[simp]
theorem fill_side : (o.fill traded).side = o.side := by
  rw [side, side, fill_isBid]

theorem fill_active : (o.fill traded).active = if o.remaining = traded then false else o.active := by
  have used : o.remaining - traded = 0 ↔ o.remaining = traded := sub_eq_zero
  simp only [fill]
  by_cases same : o.remaining = traded
  · rw [if_pos same]
    split <;> rw [if_pos (used.mpr same)]
  · rw [if_neg same]
    split <;> rw [if_neg (mt used.mp same)]

theorem fill_lockedQuote : (o.fill traded).lockedQuote =
    if o.isBid then o.lockedQuote - mulMoney o.limitPrice traded else o.lockedQuote := by
  simp only [fill]
  split <;> split <;> rfl

theorem fill_lockedBase : (o.fill traded).lockedBase =
    if o.isBid then o.lockedBase else o.lockedBase - traded := by
  simp only [fill]
  split <;> split <;> rfl

end

theorem Accurate.fill {o : LiveOrder} (accurate : o.Accurate) {traded : Qty}
    (enough : traded ≤ o.remaining) : (o.fill traded).Accurate where
  active := by
    rw [fill_active, fill_remaining, ne_eq, sub_eq_zero]
    split
    · rename_i whole
      simp [whole]
    · rename_i part
      refine iff_of_true (accurate.active.mpr ?_) part
      rintro zero
      rw [zero] at enough part
      exact part (BitVec.le_zero_iff.mp enough).symm
  quote := by
    rw [fill_lockedQuote, accurate.quote, fill_isBid, fill_limitPrice, fill_remaining,
      mulMoney_sub enough]
    split <;> rfl
  base := by
    rw [fill_lockedBase, accurate.base, fill_isBid, fill_remaining]
    split <;> rfl

theorem close_accurate (o : LiveOrder) : o.close.Accurate where
  active := by simp [close]
  quote := by rw [close, mulMoney_zero, ite_self]
  base := by rw [close, ite_self]

@[simp]
theorem close_quoteOf (o : LiveOrder) (v : Nat) : o.close.quoteOf v = 0 := ite_self 0

@[simp]
theorem close_baseOf (o : LiveOrder) (v : Nat) : o.close.baseOf v = 0 := ite_self 0

-- Rejecting clears one of the two locks; the other one of a new order is zero.
theorem reject_fresh (side : Side) (user : Nat) (price : Price) (qty : Qty) :
    (fresh side user price qty).reject side = (fresh side user price qty).close := by
  cases side <;> rfl

end LiveOrder

structure Accounts (users : List User) (orders : List LiveOrder) : Prop where
  accurate : ∀ o ∈ orders, o.Accurate
  owned : ∀ o ∈ orders, o.active = true → o.user < users.length
  quote : ∀ v u, users[v]? = some u → u.lockedQuote = tally (LiveOrder.quoteOf v) orders
  base : ∀ v u, users[v]? = some u → u.lockedBase = tally (LiveOrder.baseOf v) orders

namespace Accounts

variable {users users' : List User} {orders : List LiveOrder} {delta : Nat → Delta}

theorem lockedQuote_inactive {o : LiveOrder} (accurate : o.Accurate) (inactive : o.active = false) :
    o.remaining = 0 ∧ o.lockedQuote = 0 ∧ o.lockedBase = 0 := by
  have zero : o.remaining = 0 := by
    by_contra some
    rw [accurate.active.mpr some] at inactive
    exact absurd inactive (by decide)
  refine ⟨zero, ?_, ?_⟩
  · rw [accurate.quote, zero, mulMoney_zero, ite_self]
  · rw [accurate.base, zero, ite_self]

theorem replace (accounts : Accounts users orders) {id : Nat} {o o' : LiveOrder}
    (found : orders[id]? = some o) (moves : Moves users users' delta) (accurate : o'.Accurate)
    (owned : o'.active = true → o'.user < users.length)
    (quote : ∀ v, (delta v).lockedQuote + o.quoteOf v = o'.quoteOf v)
    (base : ∀ v, (delta v).lockedBase + o.baseOf v = o'.baseOf v) :
    Accounts users' (orders.set id o') where
  accurate o'' member := by
    rcases List.mem_or_eq_of_mem_set member with old | rfl
    · exact accounts.accurate o'' old
    · exact accurate
  owned o'' member active := by
    rw [moves.length]
    rcases List.mem_or_eq_of_mem_set member with old | rfl
    · exact accounts.owned o'' old active
    · exact owned active
  quote v u' at_v := by
    obtain ⟨u, before, rfl⟩ := moves.source at_v
    have sum := tally_set (LiveOrder.quoteOf v) found o'
    rw [← quote v, ← accounts.quote v u before] at sum
    rw [plus_lockedQuote]
    exact (add_right_cancel (sum.trans (by ac_rfl))).symm
  base v u' at_v := by
    obtain ⟨u, before, rfl⟩ := moves.source at_v
    have sum := tally_set (LiveOrder.baseOf v) found o'
    rw [← base v, ← accounts.base v u before] at sum
    rw [plus_lockedBase]
    exact (add_right_cancel (sum.trans (by ac_rfl))).symm

theorem balances (accounts : Accounts users orders) (moves : Moves users users' delta)
    (quote : ∀ v, (delta v).lockedQuote = 0) (base : ∀ v, (delta v).lockedBase = 0) :
    Accounts users' orders where
  accurate := accounts.accurate
  owned o member active := by
    rw [moves.length]
    exact accounts.owned o member active
  quote v u' at_v := by
    obtain ⟨u, before, rfl⟩ := moves.source at_v
    rw [plus_lockedQuote, quote, add_zero, accounts.quote v u before]
  base v u' at_v := by
    obtain ⟨u, before, rfl⟩ := moves.source at_v
    rw [plus_lockedBase, base, add_zero, accounts.base v u before]

theorem append (accounts : Accounts users orders) {o : LiveOrder}
    (moves : Moves users users' delta) (accurate : o.Accurate)
    (owned : o.active = true → o.user < users.length)
    (quote : ∀ v, (delta v).lockedQuote = o.quoteOf v)
    (base : ∀ v, (delta v).lockedBase = o.baseOf v) : Accounts users' (orders ++ [o]) where
  accurate o' member := by
    rcases List.mem_append.mp member with old | new
    · exact accounts.accurate o' old
    · obtain rfl := List.mem_singleton.mp new
      exact accurate
  owned o' member active := by
    rw [moves.length]
    rcases List.mem_append.mp member with old | new
    · exact accounts.owned o' old active
    · obtain rfl := List.mem_singleton.mp new
      exact owned active
  quote v u' at_v := by
    obtain ⟨u, before, rfl⟩ := moves.source at_v
    simp [accounts.quote v u before, quote]
  base v u' at_v := by
    obtain ⟨u, before, rfl⟩ := moves.source at_v
    simp [accounts.base v u before, base]

theorem newUser (accounts : Accounts users orders) (name : String) :
    Accounts (users ++ [{ name := name }]) orders := by
  have idle (o : LiveOrder) (member : o ∈ orders) (mine : o.user = users.length) :
      o.lockedQuote = 0 ∧ o.lockedBase = 0 := by
    refine (lockedQuote_inactive (accounts.accurate o member) ?_).2
    by_contra active
    have := accounts.owned o member (by simpa using active)
    omega
  refine ⟨accounts.accurate, fun o member active => ?_, fun v u at_v => ?_, fun v u at_v => ?_⟩
  · rw [List.length_append]
    exact Nat.lt_add_right _ (accounts.owned o member active)
  · rcases snoc_eq_some at_v with old | ⟨rfl, rfl⟩
    · exact accounts.quote v u old
    · refine (Tally.tally_zero fun o member => ?_).symm
      unfold LiveOrder.quoteOf
      split
      · rename_i mine
        exact (idle o member mine).1
      · rfl
  · rcases snoc_eq_some at_v with old | ⟨rfl, rfl⟩
    · exact accounts.base v u old
    · refine (Tally.tally_zero fun o member => ?_).symm
      unfold LiveOrder.baseOf
      split
      · rename_i mine
        exact (idle o member mine).2
      · rfl

end Accounts

end CppPractice.OrderBook
