import CppPractice.Wrapper.Registry

set_option autoImplicit false

namespace CppPractice.OrderBook

open Tally (tally)

-- What the order book is for, without the engine, the order table and the locks: what an order
-- may still cost is read off the open orders. The rules for money are not simplified: `handOver`
-- settles an execution as the order book does, with its refund to a buyer and its 32-bit shares,
-- and `affords` and `addBalance` make the tests that it makes.
structure Account where
  name : String
  quote : Money := 0
  base : Qty := 0
  deriving DecidableEq

def Account.gain (quote : Money) (base : Qty) (a : Account) : Account :=
  { a with quote := a.quote + quote, base := a.base + base }

structure Market where
  accounts : List Account := []
  book : List Reference.Order := []
  owner : Int → Nat := fun _ => 0
  nextId : Nat := 1

def handOver (buyer seller : Nat) (limit : Price) (e : Execution Nat) (accounts : List Account) :
    List Account :=
  let cost := e.price * (e.qty : Int)
  let shares := BitVec.ofNat 32 e.qty
  let accounts := accounts.modify seller (·.gain cost (-shares))
  accounts.modify buyer (·.gain (limit * (e.qty : Int) - cost - cost) shares)

namespace Market

variable (m : Market)

def pledgedQuote (user : Nat) : Money :=
  tally (fun o => if o.side = .Buy ∧ m.owner o.id = user then o.price * (o.qty : Int) else 0)
    m.book

def pledgedBase (user : Nat) : Nat :=
  tally (fun o => if o.side = .Sell ∧ m.owner o.id = user then o.qty else 0) m.book

def affords (user : Nat) (side : Side) (price : Price) (qty : Qty) : Bool :=
  match m.accounts[user]? with
  | none => false
  | some a =>
    match side with
    | .Buy => decide (mulMoney price qty ≤ a.quote - m.pledgedQuote user)
    | .Sell => decide (qty ≤ a.base - BitVec.ofNat 32 (m.pledgedBase user))

def trade (side : Side) (user : Nat) (limit : Price) (e : Execution Nat) : Market :=
  let maker := m.owner e.makerOrderId
  match side with
  | .Buy => { m with accounts := handOver user maker limit e m.accounts }
  | .Sell => { m with accounts := handOver maker user e.price e m.accounts }

def trades (side : Side) (user : Nat) (limit : Price) (execs : List (Execution Nat)) : Market :=
  execs.foldl (fun m e => m.trade side user limit e) m

def place (user : Nat) (book : List Reference.Order) : Market :=
  { m with
    book := book
    owner := Function.update m.owner m.nextId user
    nextId := m.nextId + 1 }

def withdraw (id : Nat) : Market := { m with book := (Reference.cancel m.book id).1 }

def submit (side : Side) (user : Nat) (price : Price) (qty : Qty) (discardUnfilled : Bool) :
    Market × Option Nat :=
  if qty = 0 ∨ ¬m.affords user side price qty then (m, none)
  else
    let result := Reference.process Engine m.book side price qty.toNat m.nextId
    let placed := m.place user result.1
    if !result.2.ok then (placed, none)
    else
      let traded := placed.trades side user price result.2.executions
      (if discardUnfilled then traded.withdraw m.nextId else traded, some m.nextId)

def cancel (user id : Nat) (side : Side) : Market × Bool :=
  if m.book.any fun o => decide (o.id = id ∧ o.side = side ∧ m.owner id = user) then
    (m.withdraw id, true)
  else (m, false)

def makeUser (name : String) : Market × Nat :=
  match (m.accounts.map Account.name).idxOf? name with
  | some i => (m, i % 2 ^ 32)
  | none => ({ m with accounts := m.accounts ++ [{ name := name }] }, m.accounts.length % 2 ^ 32)

def addBalance (user : Nat) (quote : Money) (base : Qty) : Market × Bool :=
  match m.accounts[user]? with
  | none => (m, false)
  | some a =>
    if quote < 0 ∧ a.quote + quote < 0 then (m, false)
    else ({ m with accounts := m.accounts.modify user (·.gain quote base) }, true)

def step (m : Market) (op : Op) : Market × Reply :=
  match op.submission, op with
  | some sub, _ =>
    let result := m.submit sub.side sub.user sub.price sub.qty sub.discardUnfilled
    (result.1, .order result.2)
  | none, .makeUser name => ((m.makeUser name).1, .user (m.makeUser name).2)
  | none, .addBalance user quote base =>
    ((m.addBalance user quote base).1, .flag (m.addBalance user quote base).2)
  | none, .cancelBid user id => ((m.cancel user id .Buy).1, .flag (m.cancel user id .Buy).2)
  | none, .cancelAsk user id => ((m.cancel user id .Sell).1, .flag (m.cancel user id .Sell).2)
  | none, _ => (m, .unit)

def run (m : Market) (ops : List Op) : Option (Market × List (Op × Reply)) :=
  Runs.run (fun m op => some (m.step op)) m ops

end Market

def Market.opening : Market := openingOps.foldl (fun m op => (m.step op).1) {}

end CppPractice.OrderBook
