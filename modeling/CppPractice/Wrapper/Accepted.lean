import CppPractice.Wrapper.Submit

set_option autoImplicit false

namespace CppPractice.OrderBook

open Lists (snoc_eq_some)
open LimitOrderBook (Accepts Processed)

theorem Settling.congr {s t : Impl} {takerId user : Nat} {side : Side} {price : Price}
    {resting : Nat → Option (Resting Qty)} {remaining : Qty}
    (settling : Settling s takerId user side price resting remaining)
    (users : t.users = s.users) (orders : t.orders = s.orders) :
    Settling t takerId user side price resting remaining where
  accounts := by rw [users, orders]; exact settling.accounts
  unused := by rw [orders]; exact settling.unused
  others id different := by
    rw [Impl.table, orders]
    exact settling.others id different
  taker := by rw [orders]; exact settling.taker

section

variable {s : Impl} {side : Side} {user : Nat} {price : Price} {qty : Qty}

theorem fresh_lock (side : Side) (user : Nat) (price : Price) (qty : Qty) (v : Nat) :
    ((Delta.lock side price qty).only user v).lockedQuote =
        (LiveOrder.fresh side user price qty).quoteOf v ∧
      ((Delta.lock side price qty).only user v).lockedBase =
        (LiveOrder.fresh side user price qty).baseOf v := by
  by_cases mine : v = user
  · cases side <;>
      simp [Delta.only, Delta.lock, LiveOrder.quoteOf, LiveOrder.baseOf, LiveOrder.fresh, mine]
  · cases side <;>
      simp [Delta.only, LiveOrder.quoteOf, LiveOrder.baseOf, LiveOrder.fresh, mine, Ne.symm mine]

theorem fresh_fields (side : Side) (user : Nat) (price : Price) (qty : Qty) :
    (LiveOrder.fresh side user price qty).user = user ∧
      (LiveOrder.fresh side user price qty).side = side ∧
      (LiveOrder.fresh side user price qty).limitPrice = price ∧
      (LiveOrder.fresh side user price qty).remaining = qty := by
  cases side <;> exact ⟨rfl, rfl, rfl, rfl⟩

theorem opened_moves : Moves s.users (s.opened side user price qty).users
    ((Delta.lock side price qty).only user) :=
  Moves.modify _ _ (lock_eq · side price qty)

theorem opened_others (synced : Synced s) {id : Nat} (different : id ≠ s.nextOrderId) :
    (s.opened side user price qty).orders[id]? = s.orders[id]? := by
  rw [Impl.opened, List.getElem?_append]
  split
  · rfl
  · rename_i outside
    have beyond : s.orders.length < id := by
      have := synced.length
      omega
    rw [List.getElem?_eq_none (by simp; omega), List.getElem?_eq_none (by omega)]

theorem opened_settling (synced : Synced s) (admits : s.Admits side user price qty) :
    Settling (s.opened side user price qty) s.nextOrderId user side price s.engine.resting qty := by
  obtain ⟨u, found, positive, -⟩ := admits
  have owned := (List.getElem?_eq_some_iff.mp found).1
  obtain ⟨freshUser, freshSide, freshPrice, freshQty⟩ := fresh_fields side user price qty
  refine ⟨?_, ?_, ?_, ?_⟩
  · exact synced.accounts.append opened_moves (LiveOrder.fresh_accurate side user price positive)
      (fun _ => by rw [freshUser]; exact owned) (fun v => (fresh_lock side user price qty v).1)
      (fun v => (fresh_lock side user price qty v).2)
  · intro o first
    have inside : 0 < s.orders.length := by
      rw [synced.length]
      exact synced.positive
    rw [Impl.opened, List.getElem?_append_left inside] at first
    exact synced.unused o first
  · intro id different
    rw [← synced.table, Impl.table, Impl.table, opened_others synced different]
  · exact ⟨_, opened_fresh synced, freshUser, freshSide, freshPrice, freshQty⟩

theorem Fills.settle {takerId : Nat} {orderId : Int}
    {before after : Nat → Option (Resting Engine.Qty)} {remaining : Engine.Qty}
    {execs : List (Execution Engine.Qty)}
    (fills : Fills Engine side price orderId before qty execs after remaining)
    (absent : before takerId = none) {J : List (Execution Qty) → Impl → Prop} {t : Impl}
    (settling : Settling t takerId user side price before qty) (start : J [] t)
    (settles : ∀ execs t e maker taker, J execs t →
      Settles t (t.applyExecution takerId e) takerId e maker taker →
      taker.user = user ∧ taker.side = side ∧ taker.limitPrice = price →
      J (execs ++ [e]) (t.applyExecution takerId e)) :
    Settling (execs.foldl (fun s e => s.applyExecution takerId e) t) takerId user side price after
        remaining ∧
      SameEngine t (execs.foldl (fun s e => s.applyExecution takerId e) t) ∧
      (execs.foldl (fun s e => s.applyExecution takerId e) t).orders.length = t.orders.length ∧
      J execs (execs.foldl (fun s e => s.applyExecution takerId e) t) := by
  induction fills with
  | start => exact ⟨settling, ⟨rfl, rfl⟩, rfl, start⟩
  | @trade execs resting remaining e maker earlier fill ih =>
    obtain ⟨settling', same, length, holds⟩ := ih
    obtain ⟨maker, taker, step, ⟨takerUser, takerSide, takerPrice, -⟩, next⟩ :=
      settling'.applyExecution (earlier.absent absent) fill
    simp only [List.foldl_append, List.foldl_cons, List.foldl_nil]
    refine ⟨next, same.trans (applyExecution_sameEngine _ _ _), ?_,
      settles _ _ _ _ _ holds step ⟨takerUser, takerSide, takerPrice⟩⟩
    rw [step.orders, List.length_set, List.length_set, length]

theorem Settling.takerTable {takerId : Nat} {resting : Nat → Option (Resting Qty)} {remaining : Qty}
    (settling : Settling s takerId user side price resting remaining) :
    s.table takerId = if remaining = 0 then none else some ⟨side, price, remaining⟩ := by
  obtain ⟨o, found, rfl, rfl, rfl, rfl⟩ := settling.taker
  have accurate := settling.accounts.accurate o (List.mem_of_getElem? found)
  rw [Impl.table, found, Option.bind_some, LiveOrder.resting]
  by_cases zero : o.remaining = 0
  · rw [if_pos zero, if_neg fun active => accurate.active.mp active zero]
  · rw [if_neg zero, if_pos (accurate.active.mpr zero)]

def Impl.countAccepted (s : Impl) : Impl :=
  { s with stats.ordersAccepted := s.stats.ordersAccepted + 1 }

theorem applyExecutions_eq {id : Nat} {o : LiveOrder} (found : s.orders[id]? = some o)
    (active : o.active = true) (nonzero : id ≠ 0) (sameId : toInt id = id)
    (execs : List (Execution Qty)) :
    s.applyExecutions (toInt id) execs =
      execs.foldl (fun s e => s.applyExecution id e)
        { s with
          stats.tradesExecuted := s.stats.tradesExecuted + UInt64.ofNat execs.length } := by
  have inside := (List.getElem?_eq_some_iff.mp found).1
  unfold Impl.applyExecutions
  rw [sameId, Int.toNat_natCast, if_neg (by omega), found]
  dsimp only
  rw [active, Bool.not_true, if_neg (by decide)]

theorem Settling.synced {takerId : Nat} {after : Nat → Option (Resting Qty)}
    {remaining : Qty} {outcome : LimitOrderBook.Outcome Engine} {engine : LimitOrderBook Engine}
    (settling : Settling s takerId user side price after remaining)
    (processed : Processed engine side price qty takerId outcome after remaining)
    (absent : engine.resting takerId = none) (book : s.engine = outcome.book)
    (length : s.orders.length = s.nextOrderId) (bounded : s.nextOrderId < 2 ^ 32) : Synced s where
  represents := by rw [book]; exact processed.represents
  length := length
  positive := by
    obtain ⟨o, found, -⟩ := settling.taker
    have := (List.getElem?_eq_some_iff.mp found).1
    omega
  bounded := bounded
  unused := settling.unused
  table id := by
    have gone := processed.fills.absent absent
    rw [book, processed.rests]
    by_cases here : id = takerId
    · subst here
      rw [settling.takerTable]
      split
      · exact gone.symm
      · rw [Int.toNat_natCast, Function.update_self]
    · rw [settling.others id here]
      split
      · rfl
      · rw [Int.toNat_natCast, Function.update_of_ne here]
  accounts := settling.accounts

theorem Settling.accepted {t : Impl} {id : Nat} {after : Nat → Option (Resting Qty)}
    {remaining : Qty} (settling : Settling t id user side price after remaining)
    (synced : Synced t) {execs : List (Execution Qty)}
    (applied : s.applyExecutions (toInt id) execs = t) (discard : Bool) :
    (¬(discard = true ∧ remaining ≠ 0) ∧
        s.acceptOrder side user id discard execs = t.countAccepted) ∨
      (discard = true ∧ remaining ≠ 0 ∧ ∃ o, t.Cancels user id (decide (side = .Buy)) o ∧
        s.acceptOrder side user id discard execs = (t.cancelled user id o).countAccepted) := by
  obtain ⟨o, found, owner, sideEq, -, left⟩ := settling.taker
  have accurate := settling.accounts.accurate o (List.mem_of_getElem? found)
  have ends : s.acceptOrder side user id discard execs =
      (if discard && o.active then (t.cancel user id (decide (side = .Buy))).1
        else t).countAccepted := by
    unfold Impl.acceptOrder
    rw [applied]
    dsimp only
    rw [found]
    rfl
  by_cases rests : discard = true ∧ remaining ≠ 0
  · refine Or.inr ⟨rests.1, rests.2, ?_⟩
    have active : o.active = true := accurate.active.mpr (by rw [left]; exact rests.2)
    have mine : t.Cancels user id (decide (side = .Buy)) o :=
      ⟨found, active, owner, by rw [o.isBid_eq, sideEq]⟩
    rcases cancel_cases synced user id (decide (side = .Buy)) with ⟨none, -⟩ |
      ⟨o', cancels, done⟩
    · exact absurd mine (none o)
    · refine ⟨o', cancels, ?_⟩
      rw [ends, rests.1, active, done]
      rfl
  · refine Or.inl ⟨rests, ?_⟩
    have inactive : ¬((discard && o.active) = true) := by
      rw [Bool.and_eq_true, accurate.active, left]
      exact rests
    rw [ends, if_neg inactive]

theorem opened_settles (synced : Synced s) (admits : s.Admits side user price qty)
    (sameId : toInt s.nextOrderId = s.nextOrderId) {execs : List (Execution Qty)}
    {after : Nat → Option (Resting Qty)} {remaining : Qty}
    (fills : Fills Engine side price s.nextOrderId s.engine.resting qty execs after remaining)
    {J : List (Execution Qty) → Impl → Prop} {book : LimitOrderBook Engine}
    (start : ∀ stats, J [] { s.opened side user price qty with engine := book, stats := stats })
    (settles : ∀ execs t e maker taker, J execs t →
      Settles t (t.applyExecution s.nextOrderId e) s.nextOrderId e maker taker →
      taker.user = user ∧ taker.side = side ∧ taker.limitPrice = price →
      J (execs ++ [e]) (t.applyExecution s.nextOrderId e))
    {t : Impl} (applied : { s.opened side user price qty with engine := book }.applyExecutions
      (toInt s.nextOrderId) execs = t) :
    Settling t s.nextOrderId user side price after remaining ∧ t.engine = book ∧
      t.nextOrderId = s.nextOrderId + 1 ∧ t.orders.length = t.nextOrderId ∧ J execs t := by
  let opened : Impl := { s.opened side user price qty with engine := book }
  let counted : Impl := { opened with
    stats.tradesExecuted := opened.stats.tradesExecuted + UInt64.ofNat execs.length }
  have begins : Settling counted s.nextOrderId user side price s.engine.resting qty :=
    (opened_settling synced admits).congr rfl rfl
  obtain ⟨settling, same, length, holds⟩ := Fills.settle fills synced.fresh begins (start _) settles
  have freshAt : opened.orders[s.nextOrderId]? = some (.fresh side user price qty) :=
    opened_fresh synced
  have freshActive : (LiveOrder.fresh side user price qty).active = true := by
    cases side <;> rfl
  have folded := applyExecutions_eq freshAt freshActive (Nat.ne_of_gt synced.positive) sameId execs
  obtain rfl : execs.foldl (fun s' e => s'.applyExecution s.nextOrderId e) counted = t :=
    folded.symm.trans applied
  have next : counted.nextOrderId = s.nextOrderId + 1 := rfl
  refine ⟨settling, same.1, same.2, ?_, holds⟩
  rw [length, same.2, next, ← synced.length]
  exact List.length_append

theorem accepted_rule (synced : Synced s) (admits : s.Admits side user price qty)
    (room : s.nextOrderId + 1 < 2 ^ 32) (sameId : toInt s.nextOrderId = s.nextOrderId)
    {outcome : LimitOrderBook.Outcome Engine} {after : Nat → Option (Resting Qty)}
    {remaining : Qty}
    (processed : Processed s.engine side price qty s.nextOrderId outcome after remaining)
    (discard : Bool) {J : List (Execution Qty) → Impl → Prop}
    (start : ∀ book stats, J [] { s.opened side user price qty with engine := book, stats := stats })
    (settles : ∀ execs t e maker taker, J execs t →
      Settles t (t.applyExecution s.nextOrderId e) s.nextOrderId e maker taker →
      taker.user = user ∧ taker.side = side ∧ taker.limitPrice = price →
      J (execs ++ [e]) (t.applyExecution s.nextOrderId e)) :
    ∃ t, J outcome.executions t ∧ Synced t ∧ t.engine = outcome.book ∧
      t.nextOrderId = s.nextOrderId + 1 ∧
      ((¬(discard = true ∧ remaining ≠ 0) ∧
          { s.opened side user price qty with engine := outcome.book }.acceptOrder side user
            s.nextOrderId discard outcome.executions = t.countAccepted) ∨
        (discard = true ∧ remaining ≠ 0 ∧
          ∃ o, t.Cancels user s.nextOrderId (decide (side = .Buy)) o ∧
            { s.opened side user price qty with engine := outcome.book }.acceptOrder side user
              s.nextOrderId discard outcome.executions =
                (t.cancelled user s.nextOrderId o).countAccepted)) := by
  obtain ⟨settling, book, next, lengths, holds⟩ := opened_settles synced admits sameId
    processed.fills (start outcome.book) settles rfl
  have bounded := room
  rw [← next] at bounded
  have syncedT := settling.synced processed synced.fresh book lengths bounded
  exact ⟨_, holds, syncedT, book, next, settling.accepted syncedT rfl discard⟩

theorem acceptOrder_rule (synced : Synced s) (admits : s.Admits side user price qty)
    (room : s.nextOrderId + 1 < 2 ^ 32) (sameId : toInt s.nextOrderId = s.nextOrderId)
    {outcome : LimitOrderBook.Outcome Engine} {after : Nat → Option (Resting Qty)}
    {remaining : Qty}
    (processed : Processed s.engine side price qty s.nextOrderId outcome after remaining)
    (discard : Bool) {J : List (Execution Qty) → Impl → Prop} {P : Impl → Prop}
    (start : ∀ book stats, J [] { s.opened side user price qty with engine := book, stats := stats })
    (settles : ∀ execs t e maker taker, J execs t →
      Settles t (t.applyExecution s.nextOrderId e) s.nextOrderId e maker taker →
      taker.user = user ∧ taker.side = side ∧ taker.limitPrice = price →
      J (execs ++ [e]) (t.applyExecution s.nextOrderId e))
    (kept : ∀ t, J outcome.executions t → Synced t → t.nextOrderId = s.nextOrderId + 1 →
      P t.countAccepted)
    (discarded : ∀ t o, J outcome.executions t → Synced t → t.nextOrderId = s.nextOrderId + 1 →
      t.Cancels user s.nextOrderId (decide (side = .Buy)) o →
      P (t.cancelled user s.nextOrderId o).countAccepted) :
    P ({ s.opened side user price qty with engine := outcome.book }.acceptOrder side user
      s.nextOrderId discard outcome.executions) := by
  obtain ⟨t, holds, syncedT, -, next, ⟨-, ends⟩ | ⟨-, -, o, cancels, ends⟩⟩ :=
    accepted_rule synced admits room sameId processed discard start settles
  · rw [ends]
    exact kept t holds syncedT next
  · rw [ends]
    exact discarded t o holds syncedT next cancels

theorem Synced.countAccepted (synced : Synced s) : Synced s.countAccepted := synced.stats _

theorem submit_synced {s' : Impl} {discard : Bool} {reply : Option Nat} (synced : Synced s)
    (submitted : s.submit side user price qty discard = some (s', reply)) : Synced s' := by
  rcases submit_cases synced submitted with ⟨-, -, rfl⟩ | ⟨admits, room, ⟨-, -, rfl⟩ |
    ⟨-, sameId, -, outcome, after, remaining, -, processed, rfl⟩⟩
  · exact synced.stats _
  · have length : (s.rejected side user price qty).orders.length = s.nextOrderId + 1 := by
      rw [Impl.rejected, List.length_append, synced.length, List.length_singleton]
    refine ⟨synced.represents, length, Nat.succ_pos _, room, ?_, ?_, ?_⟩
    · intro o first
      rcases snoc_eq_some first with old | ⟨-, rfl⟩
      · exact synced.unused o old
      · rfl
    · intro id
      refine Eq.trans ?_ (synced.table id)
      rw [Impl.table, Impl.table, Impl.rejected, List.getElem?_append]
      split
      · rfl
      · rename_i outside
        rw [List.getElem?_eq_none (by omega : s.orders.length ≤ id), Option.bind_none,
          Option.bind_eq_none_iff]
        intro o here
        obtain rfl := List.mem_singleton.mp (List.mem_of_getElem? here)
        rfl
    · exact synced.accounts.append (Moves.refl _) (LiveOrder.close_accurate _)
        (by simp [LiveOrder.close]) (fun v => (LiveOrder.close_quoteOf _ v).symm)
        (fun v => (LiveOrder.close_baseOf _ v).symm)
  · refine acceptOrder_rule synced admits room sameId processed discard (J := fun _ _ => True)
      (P := Synced) (fun _ _ => trivial) (fun _ _ _ _ _ _ _ _ => trivial) ?_ ?_
    · exact fun t _ syncedT _ => syncedT.countAccepted
    · exact fun t o _ syncedT _ cancels => (cancelled_synced syncedT cancels).countAccepted

end

end CppPractice.OrderBook
