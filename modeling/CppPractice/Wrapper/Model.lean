import CppPractice.Engine.Model
import CppPractice.Shared.Runs

set_option autoImplicit false

namespace CppPractice.OrderBook

-- `LimitOrderBook<std::uint32_t, 10000, 30000, 1'000'000>`.
abbrev Engine : Config where
  qtyBits := 32
  priceMin := 10000
  priceMax := 30000
  maxOrders := 1000000
  priceMin_lt := by decide
  maxOrders_pos := by decide
  maxOrders_lt := by decide

abbrev Money := Int

abbrev Price := Int

abbrev Qty := BitVec 32

def mulMoney (price : Price) (qty : Qty) : Money := price * (qty.toNat : Int)

-- `static_cast<int>` of an order id.
def toInt (id : Nat) : Int := (BitVec.ofNat 32 id).toInt

-- `static_cast<OrderId>` of an engine id.
def toOrderId (id : Int) : Nat := (BitVec.ofInt 32 id).toNat

structure Balance where
  quote : Money := 0
  base : Qty := 0
  deriving DecidableEq

structure User where
  name : String
  bal : Balance := {}
  lockedQuote : Money := 0
  lockedBase : Qty := 0
  deriving DecidableEq

structure LiveOrder where
  active : Bool := false
  user : Nat := 0
  isBid : Bool := false
  limitPrice : Price := 0
  remaining : Qty := 0
  lockedQuote : Money := 0
  lockedBase : Qty := 0
  deriving DecidableEq

structure Trade where
  takerOrderId : Nat := 0
  makerOrderId : Nat := 0
  price : Price := 0
  qty : Qty := 0
  takerIsBid : Bool := false
  makerIsBid : Bool := false
  deriving DecidableEq

structure Stats where
  ordersSubmitted : UInt64 := 0
  ordersAccepted : UInt64 := 0
  tradesExecuted : UInt64 := 0
  cancelsAttempted : UInt64 := 0
  cancelsSucceeded : UInt64 := 0
  deriving DecidableEq

def kTradeLogCap : Nat := 4096

-- `Money` and `Price` are exact integers. A step that indexes the order table out of bounds
-- is `none`.
structure Impl where
  engine : LimitOrderBook Engine
  nameToId : String → Option Nat
  users : List User
  orders : List LiveOrder
  nextOrderId : Nat
  tradeLogEnabled : Bool
  tradeLog : Nat → Trade
  tradeLogSize : Nat
  tradeLogHead : Nat
  stats : Stats

-- The members before the constructor's body; index 0 of the order table is unused.
def Impl.empty : Impl where
  engine := LimitOrderBook.new Engine
  nameToId := fun _ => none
  users := []
  orders := [{}]
  nextOrderId := 1
  tradeLogEnabled := false
  tradeLog := fun _ => {}
  tradeLogSize := 0
  tradeLogHead := 0
  stats := {}

-- `std::vector::resize`.
def resize (orders : List LiveOrder) (size : Nat) : List LiveOrder :=
  orders.take size ++ List.replicate (size - orders.length) ({} : LiveOrder)

section

variable (u : User)

-- `bal.quote - locked_quote < need` and `bal.base - locked_base < qty`, negated.
def User.covers (side : Side) (price : Price) (qty : Qty) : Bool :=
  match side with
  | .Buy => !decide (u.bal.quote - u.lockedQuote < mulMoney price qty)
  | .Sell => !decide (u.bal.base - u.lockedBase < qty)

def User.lock (side : Side) (price : Price) (qty : Qty) : User :=
  match side with
  | .Buy => { u with lockedQuote := u.lockedQuote + mulMoney price qty }
  | .Sell => { u with lockedBase := u.lockedBase + qty }

-- Give a lock back: at a fill, and when the engine rejects the order.
def User.unlock (side : Side) (price : Price) (qty : Qty) : User :=
  match side with
  | .Buy => { u with lockedQuote := u.lockedQuote - mulMoney price qty }
  | .Sell => { u with lockedBase := u.lockedBase - qty }

def User.buys (traded : Qty) (notional : Money) : User :=
  { u with bal := ⟨u.bal.quote - notional, u.bal.base + traded⟩ }

def User.sells (traded : Qty) (notional : Money) : User :=
  { u with bal := ⟨u.bal.quote + notional, u.bal.base - traded⟩ }

def User.credit (refund : Money) : User :=
  { u with bal.quote := u.bal.quote + refund }

-- The lock a cancelled order gives back is the one kept in its record.
def User.release (o : LiveOrder) : User :=
  if o.isBid then { u with lockedQuote := u.lockedQuote - o.lockedQuote }
  else { u with lockedBase := u.lockedBase - o.lockedBase }

end

def LiveOrder.side (o : LiveOrder) : Side := if o.isBid then .Buy else .Sell

def LiveOrder.fresh (side : Side) (user : Nat) (price : Price) (qty : Qty) : LiveOrder :=
  match side with
  | .Buy => ⟨true, user, true, price, qty, mulMoney price qty, 0⟩
  | .Sell => ⟨true, user, false, price, qty, 0, qty⟩

def LiveOrder.fill (o : LiveOrder) (traded : Qty) : LiveOrder :=
  let o := { o with remaining := o.remaining - traded }
  let o :=
    if o.isBid then { o with lockedQuote := o.lockedQuote - mulMoney o.limitPrice traded }
    else { o with lockedBase := o.lockedBase - traded }
  if o.remaining = 0 then { o with active := false } else o

-- A rejected order clears the lock of its own side only.
def LiveOrder.reject (side : Side) (o : LiveOrder) : LiveOrder :=
  match side with
  | .Buy => { o with active := false, remaining := 0, lockedQuote := 0 }
  | .Sell => { o with active := false, remaining := 0, lockedBase := 0 }

def LiveOrder.close (o : LiveOrder) : LiveOrder :=
  { o with active := false, remaining := 0, lockedQuote := 0, lockedBase := 0 }

namespace Impl

variable (s : Impl)

def makeUser (name : String) : Impl × Nat :=
  match s.nameToId name with
  | some id => (s, id)
  | none =>
    let id := s.users.length % 2 ^ 32
    ({ s with
       users := s.users ++ [{ name := name }]
       nameToId := Function.update s.nameToId name (some id) }, id)

def addBalance (user : Nat) (quoteDelta : Money) (baseDelta : Qty) : Impl × Bool :=
  match s.users[user]? with
  | none => (s, false)
  | some u =>
    if quoteDelta < 0 ∧ u.bal.quote + quoteDelta < 0 then (s, false)
    else
      let u := if baseDelta > 0 then { u with bal.base := u.bal.base + baseDelta } else u
      let u := if quoteDelta ≠ 0 then { u with bal.quote := u.bal.quote + quoteDelta } else u
      ({ s with users := s.users.set user u }, true)

def pushTrade (e : Execution Qty) : Impl :=
  if !s.tradeLogEnabled then s
  else
    { s with
      tradeLog := Function.update s.tradeLog s.tradeLogHead
        { takerOrderId := toOrderId e.takerOrderId
          makerOrderId := toOrderId e.makerOrderId
          price := e.price
          qty := e.qty
          takerIsBid := decide (e.takerSide = .Buy)
          makerIsBid := decide (e.makerSide = .Buy) }
      tradeLogHead := (s.tradeLogHead + 1) % kTradeLogCap
      tradeLogSize := min (s.tradeLogSize + 1) kTradeLogCap }

def fillOrder (id : Nat) (traded : Qty) : Impl :=
  match s.orders[id]? with
  | none => s
  | some o =>
    { s with
      orders := s.orders.set id (o.fill traded)
      users := s.users.modify o.user (·.unlock o.side o.limitPrice traded) }

def settle (maker taker : LiveOrder) (traded : Qty) (notional : Money) : Impl :=
  if maker.isBid then
    let users := s.users.modify maker.user (·.buys traded notional)
    { s with users := users.modify taker.user (·.sells traded notional) }
  else
    let users := s.users.modify maker.user (·.sells traded notional)
    { s with users := users.modify taker.user (·.buys traded notional) }

-- Refund of a bid's price improvement.
def refund (o : LiveOrder) (traded : Qty) (notional : Money) : Impl :=
  let refund := mulMoney o.limitPrice traded - notional
  if o.isBid ∧ refund > 0 then
    { s with users := s.users.modify o.user (·.credit refund) }
  else s

-- One turn of the loop of `apply_executions`.
def applyExecution (takerId : Nat) (e : Execution Qty) : Impl :=
  let makerId := toOrderId e.makerOrderId
  if makerId = 0 ∨ makerId ≥ s.orders.length then s
  else
    match s.orders[makerId]?, s.orders[takerId]? with
    | some maker, some taker =>
      if !maker.active then s
      else
        let notional := mulMoney e.price e.qty
        let s := ((s.pushTrade e).fillOrder makerId e.qty).fillOrder takerId e.qty
        let s := s.settle maker taker e.qty notional
        (s.refund taker e.qty notional).refund maker e.qty notional
    | _, _ => s

def applyExecutions (takerId : Int) (execs : List (Execution Qty)) : Impl :=
  if takerId ≤ 0 ∨ takerId.toNat ≥ s.orders.length then s
  else
    match s.orders[takerId.toNat]? with
    | none => s
    | some taker =>
      if !taker.active then s
      else
        let s := { s with
          stats.tradesExecuted := s.stats.tradesExecuted + UInt64.ofNat execs.length }
        execs.foldl (fun s e => s.applyExecution takerId.toNat e) s

def cancel (user id : Nat) (expectBid : Bool) : Impl × Bool :=
  let s := { s with stats.cancelsAttempted := s.stats.cancelsAttempted + 1 }
  if user ≥ s.users.length then (s, false)
  else if id = 0 then (s, false)
  else
    match s.orders[id]? with
    | none => (s, false)
    | some o =>
      if !o.active then (s, false)
      else if o.user ≠ user then (s, false)
      else if o.isBid ≠ expectBid then (s, false)
      else
        let result := s.engine.cancel (toInt id)
        if !result.2 then ({ s with engine := result.1 }, false)
        else
          ({ s with
             engine := result.1
             users := s.users.modify user (·.release o)
             orders := s.orders.set id o.close
             stats.cancelsSucceeded := s.stats.cancelsSucceeded + 1 }, true)

def openOrder (side : Side) (user : Nat) (price : Price) (qty : Qty) : Option (Impl × Nat) :=
  let id := s.nextOrderId
  -- `id + 1` is computed in 32 bits.
  let orders := if id ≥ s.orders.length then resize s.orders ((id + 1) % 2 ^ 32) else s.orders
  if id < orders.length then
    some ({ s with
      nextOrderId := (id + 1) % 2 ^ 32
      orders := orders.set id (.fresh side user price qty)
      users := s.users.modify user (·.lock side price qty) }, id)
  else none

def rejectOrder (side : Side) (user id : Nat) (price : Price) (qty : Qty) : Impl :=
  { s with
    users := s.users.modify user (·.unlock side price qty)
    orders := s.orders.modify id (·.reject side) }

-- Settle the executions, and drop the remainder of an order that must not rest.
def acceptOrder (side : Side) (user id : Nat) (discardUnfilled : Bool)
    (execs : List (Execution Qty)) : Impl :=
  let s := s.applyExecutions (toInt id) execs
  let rests := (s.orders[id]?).any (·.active)
  let s := if discardUnfilled && rests then (s.cancel user id (decide (side = .Buy))).1 else s
  { s with stats.ordersAccepted := s.stats.ordersAccepted + 1 }

def submit (side : Side) (user : Nat) (price : Price) (qty : Qty) (discardUnfilled : Bool) :
    Option (Impl × Option Nat) :=
  let s := { s with stats.ordersSubmitted := s.stats.ordersSubmitted + 1 }
  match s.users[user]? with
  | none => some (s, none)
  | some u =>
    if qty = 0 then some (s, none)
    else if !u.covers side price qty then some (s, none)
    else
      (s.openOrder side user price qty).bind fun (s, id) =>
        (s.engine.processOrder side price qty (toInt id)).map fun outcome =>
          let s := { s with engine := outcome.book }
          if !outcome.ok then (s.rejectOrder side user id price qty, none)
          else (s.acceptOrder side user id discardUnfilled outcome.executions, some id)

def addBid (user : Nat) (price : Price) (qty : Qty) : Option (Impl × Option Nat) :=
  s.submit .Buy user price qty false

def addAsk (user : Nat) (price : Price) (qty : Qty) : Option (Impl × Option Nat) :=
  s.submit .Sell user price qty false

def addBidIoc (user : Nat) (price : Price) (qty : Qty) : Option (Impl × Option Nat) :=
  s.submit .Buy user price qty true

def addAskIoc (user : Nat) (price : Price) (qty : Qty) : Option (Impl × Option Nat) :=
  s.submit .Sell user price qty true

def addMarketBid (user : Nat) (qty : Qty) : Option (Impl × Option Nat) :=
  s.submit .Buy user 30000 qty true

def addMarketAsk (user : Nat) (qty : Qty) : Option (Impl × Option Nat) :=
  s.submit .Sell user 10000 qty true

def cancelBid (user id : Nat) : Impl × Bool := s.cancel user id true

def cancelAsk (user id : Nat) : Impl × Bool := s.cancel user id false

def setTradeLogEnabled (enabled : Bool) : Impl := { s with tradeLogEnabled := enabled }

def clearTradeLog : Impl := { s with tradeLogSize := 0, tradeLogHead := 0 }

def resetStats : Impl := { s with stats := {} }

end Impl

-- The constructor's body, which seeds two market makers.
def seeded : Option Impl := do
  let (s, mm1) := Impl.empty.makeUser "mm_alpha"
  let (s, mm2) := s.makeUser "mm_beta"
  let (s, _) := s.addBalance mm1 10000000 10000
  let (s, _) := s.addBalance mm2 10000000 10000
  let (s, _) ← s.addBid mm1 14950 50
  let (s, _) ← s.addBid mm2 14900 75
  let (s, _) ← s.addAsk mm1 15050 60
  let (s, _) ← s.addAsk mm2 15100 80
  some s

theorem seeded_isSome : seeded.isSome = true := by
  decide +kernel

-- `OrderBook::OrderBook`.
def new : Impl := seeded.get seeded_isSome

inductive Op where
  | makeUser (name : String)
  | addBalance (user : Nat) (quoteDelta : Money) (baseDelta : Qty)
  | addBid (user : Nat) (price : Price) (qty : Qty)
  | addAsk (user : Nat) (price : Price) (qty : Qty)
  | addBidIoc (user : Nat) (price : Price) (qty : Qty)
  | addAskIoc (user : Nat) (price : Price) (qty : Qty)
  | addMarketBid (user : Nat) (qty : Qty)
  | addMarketAsk (user : Nat) (qty : Qty)
  | cancelBid (user id : Nat)
  | cancelAsk (user id : Nat)
  | setTradeLogEnabled (enabled : Bool)
  | clearTradeLog
  | resetStats
  deriving DecidableEq

inductive Reply where
  | user (id : Nat)
  | flag (ok : Bool)
  | order (id : Option Nat)
  | unit
  deriving DecidableEq

def Reply.ofSubmit (result : Impl × Option Nat) : Impl × Reply := (result.1, .order result.2)

def Reply.ofFlag (result : Impl × Bool) : Impl × Reply := (result.1, .flag result.2)

def step (s : Impl) : Op → Option (Impl × Reply)
  | .makeUser name =>
    let result := s.makeUser name
    some (result.1, .user result.2)
  | .addBalance user quoteDelta baseDelta =>
    some (Reply.ofFlag (s.addBalance user quoteDelta baseDelta))
  | .addBid user price qty => (s.addBid user price qty).map Reply.ofSubmit
  | .addAsk user price qty => (s.addAsk user price qty).map Reply.ofSubmit
  | .addBidIoc user price qty => (s.addBidIoc user price qty).map Reply.ofSubmit
  | .addAskIoc user price qty => (s.addAskIoc user price qty).map Reply.ofSubmit
  | .addMarketBid user qty => (s.addMarketBid user qty).map Reply.ofSubmit
  | .addMarketAsk user qty => (s.addMarketAsk user qty).map Reply.ofSubmit
  | .cancelBid user id => some (Reply.ofFlag (s.cancelBid user id))
  | .cancelAsk user id => some (Reply.ofFlag (s.cancelAsk user id))
  | .setTradeLogEnabled enabled => some (s.setTradeLogEnabled enabled, .unit)
  | .clearTradeLog => some (s.clearTradeLog, .unit)
  | .resetStats => some (s.resetStats, .unit)

end CppPractice.OrderBook
