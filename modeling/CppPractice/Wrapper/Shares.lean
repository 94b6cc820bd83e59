import CppPractice.Wrapper.Consistency
import CppPractice.Wrapper.Exchange

set_option autoImplicit false

namespace CppPractice.OrderBook

open Tally (tally)
open LiveOrder (offered)

def Covered (s : Impl) : Prop :=
  ∀ v u, s.users[v]? = some u → tally (offered v) s.orders ≤ u.bal.base.toNat

def Impl.owner (s : Impl) (id : Int) : Option Nat := (s.orders[toOrderId id]?).map (·.user)

def Impl.bought (s : Impl) (side : Side) (user v : Nat) (e : Execution Qty) : Nat :=
  match side with
  | .Buy => if v = user ∧ s.owner e.makerOrderId ≠ some v then e.qty.toNat else 0
  | .Sell => if s.owner e.makerOrderId = some v ∧ v ≠ user then e.qty.toNat else 0

structure Deposit where
  user : Nat
  quoteDelta : Money
  baseDelta : Qty

def Op.deposit : Op → Option Deposit
  | .addBalance user quoteDelta baseDelta => some ⟨user, quoteDelta, baseDelta⟩
  | _ => none

-- An accepted deposit that takes a user's shares past 32 bits.
def DepositCarries (s : Impl) (d : Deposit) : Prop :=
  ∃ u ∈ s.users[d.user]?, s.Deposits d.user d.quoteDelta u ∧
    2 ^ 32 ≤ u.bal.base.toNat + d.baseDelta.toNat

-- The trades of a submission take some user's shares past 32 bits.
def PurchaseCarries (s : Impl) (sub : Submission) : Prop :=
  s.Admits sub.side sub.user sub.price sub.qty ∧
    ∃ outcome ∈ s.engine.processOrder sub.side sub.price sub.qty (toInt s.nextOrderId),
      ∃ v < s.users.length, ∃ u ∈ s.users[v]?,
        2 ^ 32 ≤ u.bal.base.toNat + tally (s.bought sub.side sub.user v) outcome.executions

def Carries (s : Impl) (op : Op) : Prop :=
  (∃ d ∈ op.deposit, DepositCarries s d) ∨ ∃ sub ∈ op.submission, PurchaseCarries s sub

section

variable {o : LiveOrder} {traded : Qty}

theorem offered_fill (active : o.active = true) (enough : traded ≤ o.remaining) (v : Nat) :
    offered v (o.fill traded) + (if o.isBid = false ∧ v = o.user then traded.toNat else 0) =
      offered v o := by
  have le := BitVec.le_def.mp enough
  unfold offered
  rw [LiveOrder.fill_user, LiveOrder.fill_isBid, LiveOrder.fill_active, LiveOrder.fill_remaining,
    active, BitVec.toNat_sub_of_le enough]
  by_cases mine : o.user = v
  · cases o.isBid
    · by_cases whole : o.remaining = traded
      · simp [mine, whole]
      · simp [mine, whole]
        omega
    · simp
  · simp [mine, Ne.symm mine]

theorem offered_close (v : Nat) : offered v o.close = 0 := by
  simp [offered, LiveOrder.close]

end

theorem Settles.offered {s s' : Impl} {takerId : Nat} {e : Execution Qty}
    {maker taker bid ask : LiveOrder} (settles : Settles s s' takerId e maker taker)
    (exchange : Exchange maker taker bid ask e) (v : Nat) :
    tally (LiveOrder.offered v) s'.orders + (if v = ask.user then e.qty.toNat else 0) =
      tally (LiveOrder.offered v) s.orders := by
  have made := Tally.tally_set (LiveOrder.offered v) settles.makerAt (maker.fill e.qty)
  have takerAt : (s.orders.set (toOrderId e.makerOrderId) (maker.fill e.qty))[takerId]? =
      some taker := by
    rw [List.getElem?_set_ne settles.apart]
    exact settles.takerAt
  have taken := Tally.tally_set (LiveOrder.offered v) takerAt (taker.fill e.qty)
  have makerFill := offered_fill settles.makerActive settles.leMaker v
  have takerFill := offered_fill settles.takerActive settles.leTaker v
  rw [settles.orders]
  have isBid := exchange.isBid
  have isAsk := exchange.isAsk
  rcases exchange.roles with ⟨rfl, rfl⟩ | ⟨rfl, rfl, -⟩
  · simp only [isBid, isAsk, true_and, Bool.true_eq_false, false_and, if_false] at makerFill takerFill
    omega
  · simp only [isBid, isAsk, true_and, Bool.true_eq_false, false_and, if_false] at makerFill takerFill
    omega

theorem Settles.owns {s s' : Impl} {takerId : Nat} {e : Execution Qty}
    {maker taker bid ask : LiveOrder} (settles : Settles s s' takerId e maker taker)
    (exchange : Exchange maker taker bid ask e) :
    e.qty.toNat ≤ tally (LiveOrder.offered ask.user) s.orders := by
  have isAsk := exchange.isAsk
  rcases exchange.roles with ⟨-, rfl⟩ | ⟨-, rfl, -⟩
  · have part := Tally.le_tally (f := LiveOrder.offered ask.user) (List.mem_of_getElem? settles.makerAt)
    have le := BitVec.le_def.mp settles.leMaker
    simp only [LiveOrder.offered, settles.makerActive, isAsk, and_self, if_true] at part
    exact le_trans le part
  · have part := Tally.le_tally (f := LiveOrder.offered ask.user) (List.mem_of_getElem? settles.takerAt)
    have le := BitVec.le_def.mp settles.leTaker
    simp only [LiveOrder.offered, settles.takerActive, isAsk, and_self, if_true] at part
    exact le_trans le part

theorem exchange_base {base qty : Qty} {buys sells : Prop} [Decidable buys] [Decidable sells]
    (owns : sells → qty.toNat ≤ base.toNat)
    (fits : base.toNat + (if buys ∧ ¬sells then qty.toNat else 0) < 2 ^ 32) :
    (base + ((if buys then qty else 0) - (if sells then qty else 0))).toNat +
        (if sells ∧ ¬buys then qty.toNat else 0) =
      base.toNat + if buys ∧ ¬sells then qty.toNat else 0 := by
  by_cases bought : buys <;> by_cases sold : sells
  · simp [bought, sold]
  · simp only [bought, sold, not_false_eq_true, and_self, if_true, if_false, sub_zero,
      BitVec.toNat_add, not_true_eq_false] at fits ⊢
    rw [Nat.mod_eq_of_lt fits, Nat.add_zero]
  · have enough := owns sold
    simp only [bought, sold, if_true, if_false, zero_sub, ← sub_eq_add_neg, not_false_eq_true,
      and_self, false_and, Nat.add_zero, BitVec.toNat_sub_of_le (BitVec.le_def.mpr enough)]
    omega
  · simp [bought, sold]

theorem Settles.base {t t' : Impl} {takerId : Nat} {e : Execution Qty}
    {maker taker bid ask : LiveOrder} (settles : Settles t t' takerId e maker taker)
    (exchange : Exchange maker taker bid ask e) (covered : Covered t)
    (room : ∀ v w, t.users[v]? = some w →
      w.bal.base.toNat + (if v = bid.user ∧ ¬v = ask.user then e.qty.toNat else 0) < 2 ^ 32)
    {v : Nat} {w : User} (before : t.users[v]? = some w) :
    (w.plus (tradeDelta maker taker e v)).bal.base.toNat +
        (if v = ask.user ∧ ¬v = bid.user then e.qty.toNat else 0) =
      w.bal.base.toNat + if v = bid.user ∧ ¬v = ask.user then e.qty.toNat else 0 := by
  rw [plus_base, exchange.base]
  refine exchange_base (fun sold => ?_) (room v w before)
  have owns := settles.owns exchange
  rw [← sold] at owns
  exact le_trans owns (covered v w before)

theorem Settles.covered {t t' : Impl} {takerId : Nat} {e : Execution Qty}
    {maker taker bid ask : LiveOrder} (settles : Settles t t' takerId e maker taker)
    (exchange : Exchange maker taker bid ask e) (covered : Covered t)
    (room : ∀ v w, t.users[v]? = some w →
      w.bal.base.toNat + (if v = bid.user ∧ ¬v = ask.user then e.qty.toNat else 0) < 2 ^ 32) :
    Covered t' := by
  intro v u' at_v
  obtain ⟨w, before, rfl⟩ := settles.moves.source at_v
  have base := settles.base exchange covered room before
  have offer := settles.offered exchange v
  have earlier := covered v w before
  split_ifs at base offer <;> omega

/-- Between two executions: what is on offer is owned, and shares grew by purchases only. -/
structure Supplied (s t : Impl) (side : Side) (user : Nat) (execs : List (Execution Qty)) :
    Prop where
  covered : Covered t
  grown : ∀ v u', t.users[v]? = some u' → ∃ u, s.users[v]? = some u ∧
    u'.bal.base.toNat ≤ u.bal.base.toNat + tally (s.bought side user v) execs

def PurchasesFit (s : Impl) (side : Side) (user : Nat) (execs : List (Execution Qty)) : Prop :=
  ∀ v u, s.users[v]? = some u →
    u.bal.base.toNat + tally (s.bought side user v) execs < 2 ^ 32

theorem PurchasesFit.front {s : Impl} {side : Side} {user : Nat} {execs : List (Execution Qty)}
    {e : Execution Qty} (fit : PurchasesFit s side user (execs ++ [e])) :
    PurchasesFit s side user execs := by
  intro v u found
  have whole := fit v u found
  rw [Tally.tally_append] at whole
  omega

def SameOwners (s t : Impl) (id : Nat) : Prop :=
  ∀ other, other ≠ id → (t.orders[other]?).map (·.user) = (s.orders[other]?).map (·.user)

theorem Settles.map_orders {t t' : Impl} {id : Nat} {e : Execution Qty} {maker taker : LiveOrder}
    (settles : Settles t t' id e maker taker) {A : Type} (f : LiveOrder → A)
    (kept : ∀ (o : LiveOrder) traded, f (o.fill traded) = f o) {other : Nat} (different : other ≠ id) :
    (t'.orders[other]?).map f = (t.orders[other]?).map f := by
  rw [settles.orders, List.getElem?_set_ne (Ne.symm different)]
  by_cases here : toOrderId e.makerOrderId = other
  · subst here
    have inside := (List.getElem?_eq_some_iff.mp settles.makerAt).1
    rw [List.getElem?_set_self inside, settles.makerAt, Option.map_some, Option.map_some, kept]
  · rw [List.getElem?_set_ne here]

theorem Settles.sameOwners {s t t' : Impl} {id : Nat} {e : Execution Qty} {maker taker : LiveOrder}
    (same : SameOwners s t id) (settles : Settles t t' id e maker taker) : SameOwners s t' id :=
  fun other different =>
    (settles.map_orders (·.user) LiveOrder.fill_user different).trans (same other different)

-- `bought` is the buyer's side of the exchange, unless the buyer is the seller too.
theorem Settles.bought {s t t' : Impl} {id : Nat} {e : Execution Qty}
    {maker taker bid ask : LiveOrder} (same : SameOwners s t id)
    (settles : Settles t t' id e maker taker) (exchange : Exchange maker taker bid ask e) (v : Nat) :
    s.bought taker.side taker.user v e =
      if v = bid.user ∧ ¬v = ask.user then e.qty.toNat else 0 := by
  have owner : s.owner e.makerOrderId = some maker.user := by
    rw [Impl.owner, ← same _ settles.apart, settles.makerAt, Option.map_some]
  have isBid := exchange.isBid
  have isAsk := exchange.isAsk
  rcases exchange.roles with ⟨rfl, rfl⟩ | ⟨rfl, rfl, -⟩
  · rw [LiveOrder.side, isBid, if_pos rfl, Impl.bought, owner]
    simp only [ne_eq, Option.some.injEq, eq_comm]
  · rw [LiveOrder.side, isAsk, if_neg (by decide), Impl.bought, owner]
    simp only [ne_eq, Option.some.injEq, eq_comm]

theorem Supplied.settle {s t t' : Impl} {id : Nat} {side : Side} {user : Nat}
    {execs : List (Execution Qty)} {e : Execution Qty} {maker taker : LiveOrder}
    (supplied : Supplied s t side user execs) (same : SameOwners s t id)
    (settles : Settles t t' id e maker taker) (sides : taker.side = side) (owner : taker.user = user)
    (fit : PurchasesFit s side user (execs ++ [e])) : Supplied s t' side user (execs ++ [e]) := by
  subst sides owner
  obtain ⟨bid, ask, exchange⟩ := settles.exchange
  have purchases (v : Nat) : tally (s.bought taker.side taker.user v) (execs ++ [e]) =
      tally (s.bought taker.side taker.user v) execs +
        if v = bid.user ∧ ¬v = ask.user then e.qty.toNat else 0 := by
    rw [Tally.tally_append, Tally.tally_cons, Tally.tally_nil, Nat.add_zero,
      settles.bought same exchange]
  have room (v : Nat) (w : User) (before : t.users[v]? = some w) :
      w.bal.base.toNat + (if v = bid.user ∧ ¬v = ask.user then e.qty.toNat else 0) < 2 ^ 32 := by
    obtain ⟨u, start, grown⟩ := supplied.grown v w before
    have whole := fit v u start
    rw [purchases] at whole
    omega
  refine ⟨settles.covered exchange supplied.covered room, fun v u' at_v => ?_⟩
  obtain ⟨w, before, rfl⟩ := settles.moves.source at_v
  obtain ⟨u, start, grown⟩ := supplied.grown v w before
  have base := settles.base exchange supplied.covered room before
  refine ⟨u, start, ?_⟩
  rw [purchases]
  omega

theorem Synced.lockedBase_eq {s : Impl} (synced : Synced s) (covered : Covered s) {v : Nat}
    {u : User} (found : s.users[v]? = some u) :
    u.lockedBase.toNat = tally (offered v) s.orders := by
  rw [synced.accounts.locked_base found]
  exact Nat.mod_eq_of_lt (lt_of_le_of_lt (covered v u found) u.bal.base.isLt)

theorem opened_covered {s : Impl} (synced : Synced s) (covered : Covered s) {side : Side}
    {user : Nat} {price : Price} {qty : Qty} (admits : s.Admits side user price qty) :
    Covered (s.opened side user price qty) := by
  obtain ⟨u, found, -, covers⟩ := admits
  intro v u' at_v
  obtain ⟨w, before, rfl⟩ := opened_moves.source at_v
  have base : ((Delta.lock side price qty).only user v).base = 0 := by
    rw [only_base, (Delta.lock_balances side price qty).2, ite_self]
  have earlier := covered v w before
  rw [plus_base, base, add_zero, Impl.opened, Tally.tally_append, Tally.tally_cons,
    Tally.tally_nil, Nat.add_zero]
  by_cases mine : v = user
  · subst mine
    obtain rfl : u = w := by simpa [found] using before
    cases side with
    | Buy => simpa [LiveOrder.fresh, offered] using earlier
    | Sell =>
      simp only [User.covers, Bool.not_eq_true', decide_eq_false_iff_not, BitVec.not_lt] at covers
      have locked := synced.lockedBase_eq covered found
      have enough : u.lockedBase ≤ u.bal.base := BitVec.le_def.mpr (by rw [locked]; exact earlier)
      have room := BitVec.le_def.mp covers
      rw [BitVec.toNat_sub_of_le enough, locked] at room
      have own : offered v (.fresh .Sell v price qty) = qty.toNat := by
        simp [LiveOrder.fresh, offered]
      rw [own]
      omega
  · have other : offered v (.fresh side user price qty) = 0 := by
      cases side <;> simp [LiveOrder.fresh, offered, Ne.symm mine]
    rw [other]
    exact earlier

theorem opened_supplied {s : Impl} (synced : Synced s) (covered : Covered s) {side : Side}
    {user : Nat} {price : Price} {qty : Qty} (admits : s.Admits side user price qty) :
    Supplied s (s.opened side user price qty) side user [] where
  covered := opened_covered synced covered admits
  grown v u' at_v := by
    obtain ⟨u, before, rfl⟩ := opened_moves.source at_v
    refine ⟨u, before, ?_⟩
    rw [plus_base, only_base, (Delta.lock_balances _ _ _).2, ite_self, add_zero]
    exact le_refl _

theorem cancelled_covered {s : Impl} (covered : Covered s) {user id : Nat} {isBid : Bool}
    {o : LiveOrder} (cancels : s.Cancels user id isBid o) : Covered (s.cancelled user id o) := by
  intro v u' at_v
  obtain ⟨w, before, rfl⟩ := (Moves.modify s.users user (release_eq · o)).source at_v
  have base : ((Delta.release o).only user v).base = 0 := by
    rw [only_base, (Delta.release_balances o).2, ite_self]
  have closed := Tally.tally_set (offered v) cancels.1 o.close
  rw [offered_close] at closed
  have earlier := covered v w before
  rw [plus_base, base, add_zero]
  have offer : tally (offered v) (s.cancelled user id o).orders ≤ tally (offered v) s.orders :=
    Nat.le.intro closed
  exact le_trans offer earlier

theorem submit_covered {s s' : Impl} (synced : Synced s) (covered : Covered s) {sub : Submission}
    {reply : Option Nat} (submitted : s.submits sub = some (s', reply))
    (fits : ¬PurchaseCarries s sub) : Covered s' := by
  rcases submit_cases synced submitted with ⟨-, -, rfl⟩ | ⟨admits, room, ⟨-, -, rfl⟩ |
    ⟨-, sameId, -, outcome, after, remaining, answered, processed, rfl⟩⟩
  · exact covered
  · intro v u found
    have earlier := covered v u found
    rw [Impl.rejected, Tally.tally_append, Tally.tally_cons, offered_close, Tally.tally_nil]
    exact earlier
  · have fit : PurchasesFit s sub.side sub.user outcome.executions := by
      intro v u found
      by_contra carries
      exact fits ⟨admits, outcome, by rw [sameId]; exact answered, v,
        (List.getElem?_eq_some_iff.mp found).1, u, found, not_lt.mp carries⟩
    -- A list that fits has only beginnings that fit, so the induction may assume it.
    refine acceptOrder_rule synced admits room sameId processed sub.discardUnfilled
      (J := fun execs t => SameOwners s t s.nextOrderId ∧
        (PurchasesFit s sub.side sub.user execs → Supplied s t sub.side sub.user execs))
      (P := Covered) ?_ ?_ ?_ ?_
    · intro book stats
      refine ⟨fun other different => congrArg _ (opened_others synced different), fun _ => ?_⟩
      have supplied := opened_supplied synced covered admits
      exact ⟨supplied.covered, supplied.grown⟩
    · rintro execs t e maker taker ⟨same, supplied⟩ settles ⟨owner, sides, -⟩
      refine ⟨settles.sameOwners same, fun whole => ?_⟩
      exact (supplied whole.front).settle same settles sides owner whole
    · exact fun t holds _ _ => (holds.2 fit).covered
    · exact fun t o holds _ _ cancels => cancelled_covered (holds.2 fit).covered cancels

end CppPractice.OrderBook
