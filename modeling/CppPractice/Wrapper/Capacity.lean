import CppPractice.Wrapper.Steps

set_option autoImplicit false

namespace CppPractice.OrderBook

open LimitOrderBook (Accepts)

def Impl.activeOrders (s : Impl) : Nat := s.orders.countP (·.active)

def User.Funds (u : User) (side : Side) (price : Price) (qty : Qty) : Prop :=
  match side with
  | .Buy => mulMoney price qty ≤ u.bal.quote - u.lockedQuote
  | .Sell => u.lockedBase.toNat + qty.toNat ≤ u.bal.base.toNat

instance (u : User) (side : Side) (price : Price) (qty : Qty) :
    Decidable (u.Funds side price qty) := by
  unfold User.Funds
  cases side <;> infer_instance

/-- An order that only a lack of capacity can keep out of the book. -/
structure Impl.Funded (s : Impl) (side : Side) (user : Nat) (price : Price) (qty : Qty) : Prop where
  funds : ∃ u ∈ s.users[user]?, u.Funds side price qty
  positive : 0 < qty
  inRange : 10000 ≤ price ∧ price ≤ 30000

section

variable {s : Impl} {side : Side} {user : Nat} {price : Price} {qty : Qty}

theorem User.Funds.covers {u : User} (funds : u.Funds side price qty) :
    u.covers side price qty = true := by
  cases side with
  | Buy =>
    have enough : mulMoney price qty ≤ u.bal.quote - u.lockedQuote := funds
    simpa [User.covers] using enough
  | Sell =>
    have enough : u.lockedBase.toNat + qty.toNat ≤ u.bal.base.toNat := funds
    have le : u.lockedBase ≤ u.bal.base := by
      rw [BitVec.le_def]
      omega
    rw [User.covers, Bool.not_eq_true', decide_eq_false_iff_not, BitVec.lt_def,
      BitVec.toNat_sub_of_le le]
    omega

theorem Impl.Funded.admits (funded : s.Funded side user price qty) :
    s.Admits side user price qty := by
  obtain ⟨u, found, funds⟩ := funded.funds
  exact ⟨u, found, fun zero => absurd funded.positive (by simp [zero]), funds.covers⟩

theorem Impl.Funded.accepts (funded : s.Funded side user price qty) {id : Nat} :
    Accepts Engine price qty id ↔ id < 1000000 := by
  obtain ⟨-, -, positive, -⟩ := funded.admits
  have inRange : Engine.inRange price = true := LimitOrderBook.inRange_iff.mpr funded.inRange
  have valid : Engine.validId id = true ↔ id < 1000000 := by
    simp [LimitOrderBook.validId_iff]
  rw [Accepts, valid]
  exact ⟨fun accepts => accepts.2.2, fun small => ⟨positive, inRange, small⟩⟩

theorem submit_accepts_iff (synced : Synced s) (funded : s.Funded side user price qty)
    (discard : Bool) :
    (∃ s' id, s.submit side user price qty discard = some (s', some id)) ↔
      s.nextOrderId < 1000000 := by
  constructor
  · rintro ⟨s', id, submitted⟩
    rcases submit_cases synced submitted with ⟨-, none, -⟩ | ⟨-, -, ⟨-, none, -⟩ | ⟨accepts, -⟩⟩
    · exact absurd none (by simp)
    · exact absurd none (by simp)
    · exact funded.accepts.mp accepts
  · intro small
    obtain ⟨⟨s', reply⟩, submitted⟩ :=
      submit_defined synced (by omega) side user price qty discard
    refine ⟨s', s.nextOrderId, ?_⟩
    rcases submit_cases synced submitted with ⟨refused, -⟩ | ⟨-, -, ⟨rejects, -⟩ | ⟨-, -, id, -⟩⟩
    · exact absurd funded.admits refused
    · rw [toInt_small (by omega)] at rejects
      exact absurd (funded.accepts.mpr small) rejects
    · rw [submitted, id]

-- Record 0 is unused and records from 1,000,000 on were rejected, so the pool is never full.
theorem Synced.activeOrders_lt (synced : Synced s) : s.activeOrders < 1000000 := by
  have beyond : (s.orders.drop 1000000).countP (·.active) = 0 := by
    refine List.countP_eq_zero.mpr fun o member active => ?_
    obtain ⟨i, found⟩ := List.mem_iff_getElem?.mp member
    rw [List.getElem?_drop] at found
    have := (synced.activeId found active).2.1
    omega
  have within : (s.orders.take 1000000).countP (·.active) < 1000000 := by
    cases orders : s.orders with
    | nil => simp
    | cons first rest =>
      have unused : first.active = false := synced.unused first (by rw [orders]; rfl)
      rw [List.take_succ_cons, List.countP_cons_of_neg (by rw [unused]; decide)]
      have := List.countP_le_length (p := (·.active)) (l := rest.take 999999)
      rw [List.length_take] at this
      omega
  rw [Impl.activeOrders, ← List.take_append_drop 1000000 s.orders, List.countP_append]
  omega

end

/--
In every reached state, the order of a user who can pay for it is accepted exactly
when the next id is one that the engine takes.
-/
theorem capacity_reusable_iff {ops : List Op} {s : Impl} {log : List (Op × Reply)}
    (ran : Runs.run step new ops = some (s, log)) (user : Nat) (price : Price) (qty : Qty) :
    s.activeOrders < 1000000 ∧
      (s.Funded .Buy user price qty →
        ((∃ s' id, s.addBid user price qty = some (s', some id)) ↔ s.nextOrderId < 1000000)) ∧
      (s.Funded .Sell user price qty →
        ((∃ s' id, s.addAsk user price qty = some (s', some id)) ↔ s.nextOrderId < 1000000)) := by
  have synced := run_synced ran
  exact ⟨synced.activeOrders_lt, fun funded => submit_accepts_iff synced funded false,
    fun funded => submit_accepts_iff synced funded false⟩

theorem capacity_reusable_iff_new :
    new.activeOrders < 1000000 ∧
      ((∃ s' id, new.addBid 0 14000 10 = some (s', some id)) ↔ new.nextOrderId < 1000000) ∧
      ((∃ s' id, new.addAsk 1 16000 10 = some (s', some id)) ↔ new.nextOrderId < 1000000) := by
  have ran : Runs.run step new [] = some (new, []) := rfl
  obtain ⟨active, bid, -⟩ := capacity_reusable_iff ran 0 14000 10
  obtain ⟨-, -, ask⟩ := capacity_reusable_iff ran 1 16000 10
  exact ⟨active, bid ⟨by decide +kernel, by decide, by decide⟩,
    ask ⟨by decide +kernel, by decide, by decide⟩⟩

-- Bids below the price range: each is rejected and uses up an id.
def outOfRange (n : Nat) : List Op := List.replicate n (.addBid 0 9999 1)

theorem run_outOfRange {n : Nat} (few : n + 5 < 2 ^ 32) :
    ∃ s log, Runs.run step new (outOfRange n) = some (s, log) ∧ s.nextOrderId = n + 5 ∧
      s.users = new.users ∧ s.activeOrders = 4 := by
  induction n with
  | zero => exact ⟨new, [], rfl, by decide +kernel, rfl, by decide +kernel⟩
  | succ n ih =>
    obtain ⟨s, log, ran, next, users, active⟩ := ih (by omega)
    have synced := run_synced ran
    obtain ⟨⟨s', reply⟩, submitted⟩ :=
      submit_defined synced (by omega) .Buy 0 9999 1 false
    have stepped : step s (.addBid 0 9999 1) = some (s', .order reply) := by
      rw [step, Impl.addBid, submitted]
      rfl
    refine ⟨s', log ++ [(.addBid 0 9999 1, .order reply)], ?_, ?_⟩
    · rw [outOfRange, List.replicate_succ']
      exact Runs.run_snoc_iff.mpr ⟨s, log, .order reply, ran, stepped, rfl⟩
    · rcases submit_cases synced submitted with ⟨refused, -⟩ | ⟨-, -, ⟨-, -, rfl⟩ | ⟨accepts, -⟩⟩
      · have admits : new.Admits .Buy 0 9999 1 := by decide +kernel
        rw [Impl.Admits, ← users] at admits
        exact absurd admits refused
      · refine ⟨congrArg (· + 1) next, users, ?_⟩
        rw [Impl.activeOrders, Impl.rejected, List.countP_append]
        exact active
      · exact absurd accepts.2.1 (by decide)

theorem capacity_exhausted :
    ∃ s log, Runs.run step new (outOfRange 999995) = some (s, log) ∧ s.activeOrders = 4 ∧
      s.Funded .Buy 0 10000 1 ∧ ∃ s', s.addBid 0 10000 1 = some (s', none) := by
  obtain ⟨s, log, ran, next, users, active⟩ := run_outOfRange (n := 999995) (by decide)
  have synced := run_synced ran
  have funded : s.Funded .Buy 0 10000 1 := by
    refine ⟨?_, by decide, by decide⟩
    rw [users]
    decide +kernel
  obtain ⟨⟨s', reply⟩, submitted⟩ := submit_defined synced (by omega) .Buy 0 10000 1 false
  refine ⟨s, log, ran, active, funded, s', ?_⟩
  cases reply with
  | none => exact submitted
  | some id =>
    have := (submit_accepts_iff synced funded false).mp ⟨s', id, submitted⟩
    omega

end CppPractice.OrderBook
