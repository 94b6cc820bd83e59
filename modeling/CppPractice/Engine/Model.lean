import Mathlib.Data.BitVec
import CppPractice.Shared.Bitset
import CppPractice.Shared.Links

set_option autoImplicit false

namespace CppPractice

-- The template parameters, with what the `static_assert`s demand of them.
structure Config where
  qtyBits : Nat
  priceMin : Int
  priceMax : Int
  maxOrders : Nat
  priceMin_lt : priceMin < priceMax
  maxOrders_pos : 0 < maxOrders
  -- Pool indices are stored as 32-bit signed integers.
  maxOrders_lt : maxOrders < 2 ^ 31

inductive Side where
  | Buy
  | Sell
  deriving DecidableEq, Repr

def Side.opposite : Side → Side
  | .Buy => .Sell
  | .Sell => .Buy

structure Execution (Qty : Type) where
  takerSide : Side
  takerOrderId : Int
  makerSide : Side
  makerOrderId : Int
  price : Int
  qty : Qty
  deriving DecidableEq, Repr

def kBuy : UInt8 := 1

def kSell : UInt8 := 2

def Side.code : Side → UInt8
  | .Buy => kBuy
  | .Sell => kSell

abbrev Config.Qty (c : Config) : Type := BitVec c.qtyBits

def Config.kLevels (c : Config) : Nat := (c.priceMax - c.priceMin + 1).toNat

def Config.kWords (c : Config) : Nat := (c.kLevels + 63) / 64

structure BookSide (c : Config) where
  head : Links.Link
  tail : Links.Link
  levelQty : Nat → c.Qty
  occ : Bitset.Words

def BookSide.reset (c : Config) : BookSide c where
  head := fun _ => none
  tail := fun _ => none
  levelQty := fun _ => 0
  occ := fun _ => 0

-- Arrays are functions of the index and `kNil` is `none`. What the source writes once for bids and
-- once for asks is indexed by `Side` here.
structure LimitOrderBook (c : Config) where
  -- `bids_` and `asks_`, `best_bid_` and `best_ask_`.
  book : Side → BookSide c
  best : Side → Option Nat
  next : Links.Link
  prev : Links.Link
  orderId : Nat → Int
  orderPrice : Nat → Int
  orderQty : Nat → c.Qty
  orderSide : Nat → UInt8
  freeHead : Option Nat
  nextFree : Links.Link
  idToIdx : Links.Link

variable {c : Config}

def Config.priceToLevel (c : Config) (price : Int) : Nat := (price - c.priceMin).toNat

def Config.levelToPrice (c : Config) (level : Nat) : Int := level + c.priceMin

def Config.inRange (c : Config) (price : Int) : Bool :=
  decide (price ≥ c.priceMin) && decide (price ≤ c.priceMax)

-- The up-front id check of `process_order`, `alloc_order`, `free_order` and `cancel`.
def Config.validId (c : Config) (orderId : Int) : Bool :=
  !(decide (orderId < 0) || decide (orderId.toNat ≥ c.maxOrders))

namespace LimitOrderBook

def setBook (s : LimitOrderBook c) (side : Side) (book : BookSide c) : LimitOrderBook c :=
  { s with book := Function.update s.book side book }

def setOccupied (s : LimitOrderBook c) (side : Side) (level : Nat) (occupied : Bool) :
    LimitOrderBook c :=
  s.setBook side { s.book side with occ := Bitset.assign (s.book side).occ level occupied }

def isOccupied (s : LimitOrderBook c) (side : Side) (level : Nat) : Bool :=
  Bitset.test (s.book side).occ level

def findBestBid (s : LimitOrderBook c) : Option Nat :=
  let occ := (s.book .Buy).occ
  if c.kLevels ≤ 64 then
    if occ 0 = 0 then none else some (63 - (occ 0).clz.toNat)
  else Bitset.scanDown c.kLevels occ c.kWords

def findBestAsk (s : LimitOrderBook c) : Option Nat :=
  let occ := (s.book .Sell).occ
  if c.kLevels ≤ 64 then
    if occ 0 = 0 then none else some (occ 0).ctz.toNat
  else Bitset.scanUp c.kLevels occ 0 c.kWords

def findBest (s : LimitOrderBook c) : Side → Option Nat
  | .Buy => s.findBestBid
  | .Sell => s.findBestAsk

def setBest (s : LimitOrderBook c) (side : Side) (level : Option Nat) : LimitOrderBook c :=
  { s with best := Function.update s.best side level }

def allocOrder (s : LimitOrderBook c) (orderId : Int) : Option (LimitOrderBook c × Nat) :=
  if !c.validId orderId then none
  -- Active duplicate id.
  else if s.idToIdx orderId.toNat ≠ none then none
  else
    match s.freeHead with
    -- Out of pool.
    | none => none
    | some idx =>
      some ({ s with
        freeHead := s.nextFree idx
        idToIdx := Function.update s.idToIdx orderId.toNat (some idx) }, idx)

def freeOrder (s : LimitOrderBook c) (orderId : Int) : LimitOrderBook c :=
  if !c.validId orderId then s
  else
    match s.idToIdx orderId.toNat with
    | none => s
    | some idx =>
      { s with
        idToIdx := Function.update s.idToIdx orderId.toNat none
        nextFree := Function.update s.nextFree idx s.freeHead
        freeHead := some idx }

end LimitOrderBook

-- `level > best_bid_` for bids, `level < best_ask_` for asks.
def Side.beats : Side → Nat → Nat → Bool
  | .Buy, level, best => decide (level > best)
  | .Sell, level, best => decide (level < best)

namespace LimitOrderBook

-- The queue and level total part of `link_new_order`.
def linkNode (s : LimitOrderBook c) (side : Side) (level idx : Nat) : LimitOrderBook c :=
  let b := s.book side
  let s :=
    match b.tail level with
    | none =>
      { s.setBook side
          { b with
            head := Function.update b.head level (some idx)
            tail := Function.update b.tail level (some idx) } with
        prev := Function.update s.prev idx none
        next := Function.update s.next idx none }
    | some tail =>
      { s.setBook side { b with tail := Function.update b.tail level (some idx) } with
        next := Function.update (Function.update s.next tail (some idx)) idx none
        prev := Function.update s.prev idx (some tail) }
  let b := s.book side
  s.setBook side
    { b with levelQty := Function.update b.levelQty level (b.levelQty level + s.orderQty idx) }

def markOccupied (s : LimitOrderBook c) (side : Side) (level : Nat) : LimitOrderBook c :=
  let s := s.setOccupied side level true
  match s.best side with
  | none => s.setBest side (some level)
  | some best => if side.beats level best then s.setBest side (some level) else s

def linkNewOrder (s : LimitOrderBook c) (side : Side) (level idx : Nat) : LimitOrderBook c :=
  (s.linkNode side level idx).markOccupied side level

-- The queue and level total part of `unlink_order`.
def unlinkNode (s : LimitOrderBook c) (side : Side) (level idx : Nat) : LimitOrderBook c :=
  let p := s.prev idx
  let n := s.next idx
  let b := s.book side
  { s.setBook side
      { b with
        head := if p = none then Function.update b.head level n else b.head
        tail := if n = none then Function.update b.tail level p else b.tail
        levelQty := Function.update b.levelQty level (b.levelQty level - s.orderQty idx) } with
    next := Links.setAt s.next p n
    prev := Links.setAt s.prev n p
    orderQty := Function.update s.orderQty idx 0 }

def dropEmptyLevel (s : LimitOrderBook c) (side : Side) (level : Nat) : LimitOrderBook c :=
  if (s.book side).levelQty level = 0 then
    let s := s.setOccupied side level false
    if s.best side = some level then s.setBest side (s.findBest side) else s
  else s

def unlinkOrder (s : LimitOrderBook c) (side : Side) (level idx : Nat) : LimitOrderBook c :=
  (s.unlinkNode side level idx).dropEmptyLevel side level

-- `reset` leaves `order_id_`, `order_price_` and `order_side_` as they are.
def reset (s : LimitOrderBook c) : LimitOrderBook c :=
  { s with
    book := fun _ => BookSide.reset c
    best := fun _ => none
    freeHead := some 0
    nextFree := fun i => if i + 1 < c.maxOrders then some (i + 1) else none
    idToIdx := fun _ => none
    next := fun _ => none
    prev := fun _ => none
    orderQty := fun _ => 0 }

-- The constructor: value-initialised members, then `reset`.
def new (c : Config) : LimitOrderBook c :=
  reset {
    book := fun _ => ⟨fun _ => some 0, fun _ => some 0, fun _ => 0, fun _ => 0⟩
    best := fun _ => none
    next := fun _ => some 0
    prev := fun _ => some 0
    orderId := fun _ => 0
    orderPrice := fun _ => 0
    orderQty := fun _ => 0
    orderSide := fun _ => 0
    freeHead := some 0
    nextFree := fun _ => some 0
    idToIdx := fun _ => some 0 }

def bestPrice (s : LimitOrderBook c) (side : Side) : Option Int :=
  (s.best side).map c.levelToPrice

def levelQuantity (s : LimitOrderBook c) (side : Side) (price : Int) : c.Qty :=
  if !c.inRange price then 0 else (s.book side).levelQty (c.priceToLevel price)

end LimitOrderBook

-- The break test of the matching loop: `ask_price > price` or `bid_price < price`.
def Side.beyond : Side → Int → Int → Bool
  | .Sell, askPrice, price => decide (askPrice > price)
  | .Buy, bidPrice, price => decide (bidPrice < price)

namespace LimitOrderBook

def reduceMaker (s : LimitOrderBook c) (maker : Side) (level makerIdx : Nat) (trade : c.Qty) :
    LimitOrderBook c :=
  let b := s.book maker
  let s := s.setBook maker
    { b with levelQty := Function.update b.levelQty level (b.levelQty level - trade) }
  { s with orderQty := Function.update s.orderQty makerIdx (s.orderQty makerIdx - trade) }

-- The trade against the maker at the head of `level`: once used up it is unlinked and freed.
def fillMaker (s : LimitOrderBook c) (maker : Side) (level makerIdx : Nat) (trade : c.Qty) :
    LimitOrderBook c :=
  let s := s.reduceMaker maker level makerIdx trade
  if s.orderQty makerIdx = 0 then
    let makerId := s.orderId makerIdx
    (s.unlinkOrder maker level makerIdx).freeOrder makerId
  else s

structure Matching (c : Config) where
  book : LimitOrderBook c
  remaining : c.Qty
  executions : List (Execution c.Qty)

def Matching.trade (m : Matching c) (side : Side) (orderId : Int) (best makerIdx : Nat) :
    Matching c :=
  let maker := side.opposite
  let makerQty := m.book.orderQty makerIdx
  -- `std::min`
  let tradeQty := if makerQty < m.remaining then makerQty else m.remaining
  { book := m.book.fillMaker maker best makerIdx tradeQty
    remaining := m.remaining - tradeQty
    executions := m.executions ++
      [{ takerSide := side
         takerOrderId := orderId
         makerSide := maker
         makerOrderId := m.book.orderId makerIdx
         price := c.levelToPrice best
         qty := tradeQty }] }

-- An entry into the body of the matching loop, for the best opposite level.
structure Iteration (c : Config) where
  state : Matching c
  best : Nat

-- The matching loop for a taker on `side` against `maker`, the opposite side: what it ends in, and
-- the entries into its body. `none` means that `fuel` iterations did not reach the end of the loop.
def matchTrace (side : Side) (price : Int) (orderId : Int) :
    Nat → Matching c → Option (Matching c) × List (Iteration c)
  | 0, _ => (none, [])
  | fuel + 1, m =>
    let maker := side.opposite
    if m.remaining = 0 then (some m, [])
    else
      match m.book.best maker with
      | none => (some m, [])
      | some best =>
        let makerPrice := c.levelToPrice best
        if maker.beyond makerPrice price then (some m, [⟨m, best⟩])
        else
          let next :=
            match (m.book.book maker).head best with
            | none =>
              -- A best level without a queue: clear it and look again.
              let book := m.book.setOccupied maker best false
              { m with book := book.setBest maker (book.findBest maker) }
            | some makerIdx => m.trade side orderId best makerIdx
          let later := matchTrace side price orderId fuel next
          (later.1, ⟨m, best⟩ :: later.2)

def matchLoop (side : Side) (price : Int) (orderId : Int) (fuel : Nat) (m : Matching c) :
    Option (Matching c) :=
  (matchTrace side price orderId fuel m).1

structure Outcome (c : Config) where
  book : LimitOrderBook c
  executions : List (Execution c.Qty)
  ok : Bool

-- Fill in the pool node and queue it: the remainder of an order comes to rest.
def restOrder (s : LimitOrderBook c) (side : Side) (price : Int) (remaining : c.Qty)
    (orderId : Int) (idx : Nat) : LimitOrderBook c :=
  linkNewOrder
    { s with
      orderId := Function.update s.orderId idx orderId
      orderSide := Function.update s.orderSide idx side.code
      orderPrice := Function.update s.orderPrice idx price
      orderQty := Function.update s.orderQty idx remaining }
    side (c.priceToLevel price) idx

def processOrder (s : LimitOrderBook c) (side : Side) (price : Int) (qty : c.Qty)
    (orderId : Int) : Option (Outcome c) :=
  if qty = 0 then some ⟨s, [], false⟩
  else if !c.inRange price then some ⟨s, [], false⟩
  else if !c.validId orderId then some ⟨s, [], false⟩
  else
    -- One iteration can end the loop; every other one uses up a pool node.
    (matchLoop side price orderId (c.maxOrders + 1) ⟨s, qty, []⟩).map fun m =>
      if m.remaining = 0 then ⟨m.book, m.executions, true⟩
      else
        match m.book.allocOrder orderId with
        | none => ⟨m.book, m.executions, false⟩
        | some (book, idx) =>
          ⟨book.restOrder side price m.remaining orderId idx, m.executions, true⟩

def cancel (s : LimitOrderBook c) (orderId : Int) : LimitOrderBook c × Bool :=
  if !c.validId orderId then (s, false)
  else
    match s.idToIdx orderId.toNat with
    | none => (s, false)
    | some idx =>
      let level := c.priceToLevel (s.orderPrice idx)
      let side := if s.orderSide idx = kBuy then Side.Buy else Side.Sell
      ((s.unlinkOrder side level idx).freeOrder orderId, true)

inductive Call (c : Config) where
  | processOrder (side : Side) (price : Int) (qty : c.Qty) (orderId : Int)
  | cancel (orderId : Int)
  | reset

structure Reply (Qty : Type) where
  ok : Bool
  executions : List (Execution Qty)
  deriving DecidableEq, Repr

def step (s : LimitOrderBook c) : Call c → Option (LimitOrderBook c × Reply c.Qty)
  | .processOrder side price qty orderId =>
    (s.processOrder side price qty orderId).map fun o => (o.book, ⟨o.ok, o.executions⟩)
  | .cancel orderId =>
    let result := s.cancel orderId
    some (result.1, ⟨result.2, []⟩)
  | .reset => some (s.reset, ⟨true, []⟩)

end LimitOrderBook

end CppPractice
