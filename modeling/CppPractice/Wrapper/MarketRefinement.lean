import CppPractice.Engine.RunRefinement
import CppPractice.Engine.Sweep
import CppPractice.Wrapper.CashFlow
import CppPractice.Wrapper.Consistency
import CppPractice.Wrapper.Market

set_option autoImplicit false

namespace CppPractice.OrderBook

open LimitOrderBook (Refines Represents Tidy Small Processed)
open Reference (Order)
open Tally (tally)

def User.account (u : User) : Account := ⟨u.name, u.bal.quote, u.bal.base⟩

/-- The exchange that a state of the order book stands for. -/
structure Mirrors (s : Impl) (m : Market) : Prop where
  accounts : m.accounts = s.users.map User.account
  book : Refines s.engine m.book
  ids : (m.book.map Order.id).Nodup
  owner : ∀ (id : Nat) o, s.orders[id]? = some o → m.owner id = o.user
  nextId : m.nextId = s.nextOrderId

structure LiveOrder.Open (r : LiveOrder) (o : Order) : Prop where
  active : r.active = true
  side : r.side = o.side
  price : r.limitPrice = o.price
  qty : r.remaining.toNat = o.qty

section

variable {s s' : Impl} {m : Market}

theorem Mirrors.record (mirrors : Mirrors s m) (synced : Synced s) {o : Order}
    (member : o ∈ m.book) : (o.id.toNat : Int) = o.id ∧
      ∃ r, s.orders[o.id.toNat]? = some r ∧ r.Open o ∧ m.owner o.id = r.user := by
  obtain ⟨free, queue, rep⟩ := synced.represents
  obtain ⟨sameId, qty, rests, same⟩ := rep.mem_resting (mirrors.book.queued member)
  obtain ⟨r, found, active, equal⟩ := table_eq_some.mp ((synced.table _).trans rests)
  obtain ⟨side, price, remaining⟩ := Resting.mk.inj equal
  refine ⟨sameId, r, found, ⟨active, side, price, ?_⟩, ?_⟩
  · rw [remaining]
    exact same
  · rw [← sameId]
    exact mirrors.owner _ r found

theorem Mirrors.listed (mirrors : Mirrors s m) (synced : Synced s) {id : Nat} {r : LiveOrder}
    (found : s.orders[id]? = some r) (active : r.active = true) :
    ⟨id, r.side, r.limitPrice, r.remaining.toNat⟩ ∈ m.book := by
  obtain ⟨free, queue, rep⟩ := synced.represents
  exact mirrors.book.mem (rep.resting_iff.mp (synced.resting found active))

theorem Mirrors.tally_orders {M : Type} [AddCommMonoid M] (mirrors : Mirrors s m)
    (synced : Synced s) {f : LiveOrder → M} {g : Order → M}
    (closed : ∀ r, r.active = false → f r = 0)
    (same : ∀ o r, r.Open o → m.owner o.id = r.user → f r = g o) :
    tally f s.orders = tally g m.book := by
  have apart : (m.book.map fun o => o.id.toNat).Nodup := by
    refine List.Nodup.map_on (fun o left o' right same => ?_) (List.Nodup.of_map _ mirrors.ids)
    refine List.inj_on_of_nodup_map mirrors.ids left right ?_
    rw [← (mirrors.record synced left).1, ← (mirrors.record synced right).1, same]
  rw [Tally.tally_listed (g := fun id => (s.orders[id]?).elim 0 f) apart, List.map_map, tally]
  · refine congrArg List.sum (List.map_congr_left fun o member => ?_)
    obtain ⟨-, r, found, opens, owner⟩ := mirrors.record synced member
    rw [Function.comp_apply, found, Option.elim_some, same o r opens owner]
  · intro id member
    obtain ⟨o, inside, rfl⟩ := List.mem_map.mp member
    obtain ⟨-, r, found, -⟩ := mirrors.record synced inside
    exact ⟨r, found, by rw [found, Option.elim_some]⟩
  · intro id r absent found
    refine closed r (Bool.eq_false_iff.mpr fun active => absent ?_)
    exact List.mem_map.mpr ⟨_, mirrors.listed synced found active, Int.toNat_natCast id⟩

theorem Mirrors.pledged (mirrors : Mirrors s m) (synced : Synced s) {v : Nat} {u : User}
    (found : s.users[v]? = some u) : u.lockedQuote = m.pledgedQuote v ∧
      u.lockedBase = BitVec.ofNat 32 (m.pledgedBase v) := by
  constructor
  · rw [synced.accounts.locked_quote found, Market.pledgedQuote]
    refine mirrors.tally_orders synced (fun r closed => ?_) fun o r opens owner => ?_
    · rw [LiveOrder.bidLock, closed]
      simp
    · rw [LiveOrder.bidLock, opens.active, r.isBid_eq, opens.side, opens.price, owner,
        mulMoney, opens.qty]
      simp [and_comm]
  · refine BitVec.eq_of_toNat_eq ?_
    rw [synced.accounts.locked_base found, BitVec.toNat_ofNat, Market.pledgedBase]
    refine congrArg (· % 2 ^ 32) (mirrors.tally_orders synced (fun r closed => ?_)
      fun o r opens owner => ?_)
    · rw [LiveOrder.offered, closed]
      simp
    · rw [LiveOrder.offered, opens.active, r.isBid_eq, opens.side, owner, opens.qty]
      cases o.side <;> simp

theorem Mirrors.admits (mirrors : Mirrors s m) (synced : Synced s) (side : Side) (user : Nat)
    (price : Price) (qty : Qty) : s.Admits side user price qty ↔
      ¬(qty = 0 ∨ ¬m.affords user side price qty) := by
  rw [Impl.Admits, Market.affords, mirrors.accounts, List.getElem?_map]
  cases found : s.users[user]? with
  | none => simp
  | some u =>
    obtain ⟨quote, base⟩ := mirrors.pledged synced found
    cases side with
    | Buy => simp [User.covers, User.account, quote]
    | Sell => simp [User.covers, User.account, base]

theorem gain_gain (quote quote' : Money) (base base' : Qty) (a : Account) :
    (a.gain quote base).gain quote' base' = a.gain (quote + quote') (base + base') := by
  simp only [Account.gain, add_assoc]

theorem gain_zero (a : Account) : a.gain 0 0 = a := by
  simp only [Account.gain, add_zero]

theorem handOver_getElem? (buyer seller : Nat) (limit : Price) (e : Execution Qty)
    (accounts : List Account) (v : Nat) :
    (handOver buyer seller limit e.toNat accounts)[v]? = (accounts[v]?).map fun a => a.gain
      ((if v = seller then mulMoney e.price e.qty else 0) +
        (if v = buyer then
          mulMoney limit e.qty - mulMoney e.price e.qty - mulMoney e.price e.qty else 0))
      ((if v = buyer then e.qty else 0) - (if v = seller then e.qty else 0)) := by
  have shares : BitVec.ofNat 32 e.toNat.qty = e.qty := by simp [Execution.toNat]
  rw [handOver, shares, List.getElem?_modify, List.getElem?_modify]
  cases accounts[v]? with
  | none => rfl
  | some a =>
    refine congrArg some ?_
    dsimp only
    rcases eq_or_ne v seller with rfl | sells <;> rcases eq_or_ne v buyer with rfl | buys
    · simp only [if_true, gain_gain, neg_add_eq_sub]
      rfl
    · simp only [if_true, if_neg buys, if_neg buys.symm, add_zero, zero_sub]
      rfl
    · simp only [if_true, if_neg sells, if_neg sells.symm, zero_add, sub_zero]
      rfl
    · simp only [if_neg sells, if_neg sells.symm, if_neg buys, if_neg buys.symm, add_zero, sub_zero,
        gain_zero]

theorem Settles.accounts {t t' : Impl} {takerId : Nat} {e : Execution Qty} {maker taker : LiveOrder}
    (settles : Settles t t' takerId e maker taker) (accounts : m.accounts = t.users.map User.account)
    (owner : m.owner e.makerOrderId = maker.user) :
    (m.trade taker.side taker.user taker.limitPrice e.toNat).accounts =
      t'.users.map User.account := by
  obtain ⟨bid, ask, sale⟩ := settles.exchange
  have traded : (m.trade taker.side taker.user taker.limitPrice e.toNat).accounts =
      handOver bid.user ask.user bid.limitPrice e.toNat m.accounts := by
    rcases sale.roles with ⟨rfl, rfl⟩ | ⟨rfl, rfl, same⟩
    · rw [LiveOrder.side, sale.isBid, if_pos rfl, ← owner]
      rfl
    · rw [LiveOrder.side, sale.isAsk, if_neg Bool.false_ne_true, same, ← owner]
      rfl
  refine List.ext_getElem? fun v => ?_
  rw [traded, handOver_getElem?, accounts, List.getElem?_map, List.getElem?_map, settles.moves]
  cases t.users[v]? with
  | none => rfl
  | some u =>
    have quote := sale.quote v
    have base := sale.base v
    simp only [Option.map_some, Account.gain, User.account, plus_quote, plus_base, quote, base,
      Option.some.injEq, Account.mk.injEq, and_true]
    refine ⟨rfl, ?_⟩
    split_ifs <;> ring

theorem trades_frame (m : Market) (side : Side) (user : Nat) (limit : Price)
    (execs : List (Execution Nat)) : (m.trades side user limit execs).book = m.book ∧
      (m.trades side user limit execs).owner = m.owner ∧
      (m.trades side user limit execs).nextId = m.nextId := by
  induction execs generalizing m with
  | nil => exact ⟨rfl, rfl, rfl⟩
  | cons e rest ih =>
    have first : (m.trade side user limit e).book = m.book ∧
        (m.trade side user limit e).owner = m.owner ∧
        (m.trade side user limit e).nextId = m.nextId := by
      cases side <;> exact ⟨rfl, rfl, rfl⟩
    obtain ⟨book, owner, nextId⟩ := ih (m.trade side user limit e)
    exact ⟨book.trans first.1, owner.trans first.2.1, nextId.trans first.2.2⟩

theorem Moves.accounts {users users' : List User} {delta : Nat → Delta}
    (moves : Moves users users' delta) (still : ∀ v, (delta v).quote = 0 ∧ (delta v).base = 0) :
    users'.map User.account = users.map User.account := by
  refine List.ext_getElem? fun v => ?_
  rw [List.getElem?_map, List.getElem?_map, moves]
  cases users[v]? with
  | none => rfl
  | some u => simp [User.account, User.plus, still v]

theorem only_still {d : Delta} (still : d.quote = 0 ∧ d.base = 0) (user v : Nat) :
    (d.only user v).quote = 0 ∧ (d.only user v).base = 0 := by
  rw [only_quote, only_base, still.1, still.2, ite_self, ite_self]
  exact ⟨rfl, rfl⟩

theorem Mirrors.cancelled (mirrors : Mirrors s m) (synced : Synced s) {user id : Nat}
    {isBid : Bool} {r : LiveOrder} (cancels : s.Cancels user id isBid r) :
    Mirrors (s.cancelled user id r) (m.withdraw id) := by
  obtain ⟨free, queue, rep⟩ := synced.represents
  obtain ⟨found, active, -⟩ := cancels
  refine ⟨?_, ?_, Reference.cancel_ids m.book id mirrors.ids, fun other o at_ => ?_, mirrors.nextId⟩
  · rw [Market.withdraw, mirrors.accounts]
    exact ((Moves.modify s.users user (release_eq · r)).accounts
      (only_still (Delta.release_balances r) user)).symm
  · have kept := (mirrors.book.cancel rep (toInt id)).1
    rw [(synced.activeId found active).2.2] at kept
    rw [Impl.cancelled, (synced.activeId found active).2.2]
    exact kept
  · have inside := (List.getElem?_eq_some_iff.mp found).1
    by_cases here : other = id
    · subst here
      rw [Impl.cancelled, List.getElem?_set_self inside] at at_
      obtain rfl := Option.some.inj at_
      exact mirrors.owner other r found
    · rw [Impl.cancelled, List.getElem?_set_ne (Ne.symm here)] at at_
      exact mirrors.owner other o at_

theorem accepts_toInt {price : Price} {qty : Qty} {id : Nat} (bounded : id < 2 ^ 32) :
    LimitOrderBook.Accepts Engine price qty (toInt id) ↔
      LimitOrderBook.Accepts Engine price qty id := by
  refine and_congr_right fun _ => and_congr_right fun _ => ⟨fun valid => ?_, fun valid => ?_⟩
  · rw [← (toInt_valid bounded valid).1]
    exact valid
  · have small : id < 1000000 := (LimitOrderBook.validId_iff.mp valid).2
    rw [toInt_small (by omega)]
    exact valid

theorem Mirrors.place_owner (mirrors : Mirrors s m) (synced : Synced s) {user : Nat}
    {r : LiveOrder} (owned : r.user = user) (book : List Order) (id : Nat) (o : LiveOrder)
    (found : (s.orders ++ [r])[id]? = some o) : (m.place user book).owner id = o.user := by
  rw [Market.place, mirrors.nextId]
  dsimp only
  rcases Nat.lt_trichotomy id s.nextOrderId with older | rfl | beyond
  · rw [Function.update_of_ne (by omega)]
    rw [List.getElem?_append_left (by rwa [synced.length])] at found
    exact mirrors.owner id o found
  · rw [Function.update_self]
    rw [← synced.length, List.getElem?_concat_length] at found
    rw [← owned, Option.some.inj found]
  · rw [List.getElem?_eq_none (by rw [List.length_append, synced.length]; exact beyond)] at found
    exact absurd found (by simp)

def Tracks (m : Market) (side : Side) (user : Nat) (price : Price) (execs : List (Execution Qty))
    (t : Impl) : Prop :=
  (∀ e ∈ execs, (toOrderId e.makerOrderId : Int) = e.makerOrderId) →
    (m.trades side user price (execs.map Execution.toNat)).accounts = t.users.map User.account

theorem Tracks.settle {opened t t' : Impl} {takerId : Nat} {side : Side} {user : Nat}
    {price : Price} {execs : List (Execution Qty)} {e : Execution Qty} {maker taker : LiveOrder}
    (tracks : Tracks m side user price execs t) (paid : Paid opened t takerId execs)
    (owner : ∀ (id : Nat) o, opened.orders[id]? = some o → m.owner id = o.user)
    (settles : Settles t t' takerId e maker taker)
    (ours : taker.user = user ∧ taker.side = side ∧ taker.limitPrice = price) :
    Tracks m side user price (execs ++ [e]) t' := by
  intro valid
  have sameId := valid e (by simp)
  obtain ⟨-, sameOwner, -⟩ := trades_frame m side user price (execs.map Execution.toNat)
  -- Settlement keeps the owners, so the record of the maker still names the one it had.
  have maker_owner : m.owner e.makerOrderId = maker.user := by
    have label := congrFun paid.labels (toOrderId e.makerOrderId)
    rw [Impl.label, Impl.label, settles.makerAt] at label
    obtain ⟨o, found, same⟩ := Option.map_eq_some_iff.mp label.symm
    rw [← sameId, owner _ o found]
    exact (Prod.mk.inj same).1
  obtain ⟨rfl, rfl, rfl⟩ := ours
  rw [List.map_append, Market.trades, List.foldl_append]
  refine settles.accounts (tracks fun e' member => valid e' (by simp [member])) ?_
  exact (congrFun sameOwner _).trans maker_owner

theorem withdraw_absent {id : Nat} (absent : ∀ o ∈ m.book, o.id ≠ id) : m.withdraw id = m := by
  have same : (Reference.cancel m.book id).1 = m.book :=
    List.filter_eq_self.mpr fun o member => decide_eq_true (absent o member)
  rw [Market.withdraw, same]

theorem Mirrors.countAccepted (mirrors : Mirrors s m) : Mirrors s.countAccepted m :=
  ⟨mirrors.accounts, mirrors.book, mirrors.ids, mirrors.owner, mirrors.nextId⟩

theorem makers_valid {after : Nat → Option (Resting Qty)} {remaining : Qty} {side : Side}
    {price orderId : Int} {qty : Qty} {before : Nat → Option (Resting Qty)}
    {execs : List (Execution Qty)} (fills : Fills Engine side price orderId before qty execs after
      remaining) : ∀ e ∈ execs, (toOrderId e.makerOrderId : Int) = e.makerOrderId := by
  intro e member
  obtain ⟨_, _, _, _, -, fill⟩ := fills.member member
  rw [(toOrderId_valid fill.valid).1,
    Int.toNat_of_nonneg (LimitOrderBook.validId_iff.mp fill.valid).1]

-- The exchange after the executions of a new order, before a remainder is discarded.
theorem Mirrors.traded {side : Side} {user : Nat} {price : Price} {opened t : Impl} {takerId : Nat}
    {execs : List (Execution Qty)} {book : List Order} (mirrors : Mirrors s m)
    (refines : Refines t.engine book) (ids : (book.map Order.id).Nodup)
    (owner : ∀ (id : Nat) o, opened.orders[id]? = some o → (m.place user book).owner id = o.user)
    (paid : Paid opened t takerId execs) (next : t.nextOrderId = s.nextOrderId + 1)
    (accounts : ((m.place user book).trades side user price (execs.map Execution.toNat)).accounts =
      t.users.map User.account) :
    Mirrors t ((m.place user book).trades side user price (execs.map Execution.toNat)) := by
  obtain ⟨sameBook, sameOwner, sameNext⟩ :=
    trades_frame (m.place user book) side user price (execs.map Execution.toNat)
  refine ⟨accounts, ?_, ?_, fun id o found => ?_, ?_⟩
  · rw [sameBook]
    exact refines
  · rw [sameBook]
    exact ids
  · rw [sameOwner]
    have label := congrFun paid.labels id
    rw [Impl.label, Impl.label, found] at label
    obtain ⟨o', found', same⟩ := Option.map_eq_some_iff.mp label.symm
    rw [owner id o' found']
    exact (Prod.mk.inj same).1
  · rw [sameNext, next, Market.place, mirrors.nextId]

theorem Mirrors.submit_accepted {side : Side} {user : Nat} {price : Price} {qty : Qty}
    (mirrors : Mirrors s m) (synced : Synced s) (admits : s.Admits side user price qty)
    (discard : Bool) {result : List Order × LimitOrderBook.Reply Nat}
    (swept : Reference.process Engine m.book side price qty.toNat s.nextOrderId = result)
    (ok : result.2.ok = true) :
    m.submit side user price qty discard =
      (let traded := (m.place user result.1).trades side user price result.2.executions
       (if discard then traded.withdraw s.nextOrderId else traded, some s.nextOrderId)) := by
  rw [Market.submit, if_neg ((mirrors.admits synced side user price qty).mp admits),
    mirrors.nextId]
  dsimp only
  rw [swept, ok]
  rfl

-- Nothing is left to discard of an order that is not in the book.
theorem Mirrors.withdraw_closed {id : Nat} (mirrors : Mirrors s m) (synced : Synced s)
    (gone : s.engine.resting id = none) : m.withdraw id = m := by
  obtain ⟨free, queue, rep⟩ := synced.represents
  exact withdraw_absent (mirrors.book.absent_id rep (.inr (LimitOrderBook.resting_eq_none.mp gone)))

theorem Mirrors.accepted {side : Side} {user : Nat} {price : Price} {qty : Qty}
    (mirrors : Mirrors s m) (synced : Synced s) (tidy : Tidy s.engine)
    (admits : s.Admits side user price qty) (room : s.nextOrderId + 1 < 2 ^ 32)
    (sameId : toInt s.nextOrderId = s.nextOrderId)
    {outcome : LimitOrderBook.Outcome Engine} {after : Nat → Option (Resting Qty)} {remaining : Qty}
    (answered : s.engine.processOrder side price qty s.nextOrderId = some outcome)
    (processed : Processed s.engine side price qty s.nextOrderId outcome after remaining)
    (discard : Bool) :
    ∃ m', m.submit side user price qty discard = (m', some s.nextOrderId) ∧
      Mirrors ({ s.opened side user price qty with engine := outcome.book }.acceptOrder side user
        s.nextOrderId discard outcome.executions) m' := by
  obtain ⟨refines, reply⟩ := mirrors.book.processOrder tidy answered
  have ids := Reference.process_ids (c := Engine) m.book side price qty.toNat s.nextOrderId
    mirrors.ids
  have owner := mirrors.place_owner synced (fresh_fields side user price qty).1
    (Reference.process Engine m.book side price qty.toNat s.nextOrderId).1
  generalize swept : Reference.process Engine m.book side price qty.toNat s.nextOrderId = result
    at refines reply ids owner
  have executions : outcome.executions.map Execution.toNat = result.2.executions :=
    congrArg LimitOrderBook.Reply.executions reply
  have ok : result.2.ok = true := (congrArg LimitOrderBook.Reply.ok reply).symm.trans processed.ok
  have start : (m.place user result.1).accounts =
      (s.opened side user price qty).users.map User.account :=
    mirrors.accounts.trans (opened_moves.accounts
      (only_still (Delta.lock_balances side price qty) user)).symm
  obtain ⟨t, ⟨paid, tracks⟩, syncedT, book, next, ends⟩ :=
    accepted_rule synced admits room sameId processed discard
      (J := fun execs t => Paid (s.opened side user price qty) t s.nextOrderId execs ∧
        Tracks (m.place user result.1) side user price execs t)
      (fun book stats => ⟨⟨rfl, fun v => (add_zero _).symm, fun v => (add_zero _).symm⟩,
        fun _ => start⟩)
      fun execs t e maker taker ⟨paid, tracks⟩ settles ours =>
        ⟨paid.settle settles, tracks.settle paid owner settles ours⟩
  have traded := mirrors.traded (book.symm ▸ refines) ids owner paid next
    (tracks (makers_valid processed.fills))
  rw [executions] at traded
  refine ⟨_, mirrors.submit_accepted synced admits discard swept ok, ?_⟩
  rcases ends with ⟨kept, ends⟩ | ⟨rfl, left, r, cancels, ends⟩
  · rw [ends]
    split
    · rename_i discards
      have filled : remaining = 0 := by
        by_contra left
        exact kept ⟨discards, left⟩
      rw [traded.withdraw_closed syncedT ?_]
      · exact traded.countAccepted
      · rw [book, processed.rests, if_pos filled]
        exact processed.fills.absent synced.fresh
    · exact traded.countAccepted
  · rw [ends, if_pos rfl]
    exact (traded.cancelled syncedT cancels).countAccepted

theorem Mirrors.submit {sub : Submission} {result : Option Nat} (mirrors : Mirrors s m)
    (synced : Synced s) (tidy : Tidy s.engine) (submitted : s.submits sub = some (s', result)) :
    ∃ m', m.submit sub.side sub.user sub.price sub.qty sub.discardUnfilled = (m', result) ∧
      Mirrors s' m' := by
  have admission := mirrors.admits synced sub.side sub.user sub.price sub.qty
  rcases submit_cases synced submitted with ⟨refused, rfl, rfl⟩ | ⟨admits, room,
    ⟨rejects, rfl, rfl⟩ | ⟨accepts, sameId, rfl, outcome, after, remaining, answered, processed,
      rfl⟩⟩
  · refine ⟨m, if_pos (not_not.mp (admission.not.mp refused)), ?_⟩
    exact ⟨mirrors.accounts, mirrors.book, mirrors.ids, mirrors.owner, mirrors.nextId⟩
  · rw [accepts_toInt synced.bounded, ← mirrors.nextId] at rejects
    have owned : (LiveOrder.fresh sub.side sub.user sub.price sub.qty).close.user = sub.user :=
      (fresh_fields sub.side sub.user sub.price sub.qty).1
    refine ⟨m.place sub.user m.book, ?_, mirrors.accounts, mirrors.book, mirrors.ids,
      mirrors.place_owner synced owned m.book, congrArg (· + 1) mirrors.nextId⟩
    rw [Market.submit, if_neg (admission.mp admits), LimitOrderBook.process_rejects rejects]
    rfl
  · exact mirrors.accepted synced tidy admits room sameId answered processed sub.discardUnfilled

theorem Mirrors.makeUser (mirrors : Mirrors s m) (registered : Registered s) (name : String) :
    (m.makeUser name).2 = (s.makeUser name).2 ∧
      Mirrors (s.makeUser name).1 (m.makeUser name).1 := by
  have names : m.accounts.map Account.name = s.names := by
    rw [mirrors.accounts, List.map_map]
    rfl
  have index := registered.index name
  rw [Market.makeUser, names]
  rcases makeUser_cases s name with ⟨id, known, same⟩ | ⟨unknown, added⟩
  · rw [known] at index
    obtain ⟨place, found, cut⟩ := Option.map_eq_some_iff.mp index.symm
    rw [same, found]
    exact ⟨cut, mirrors⟩
  · rw [unknown, eq_comm, Option.map_eq_none_iff] at index
    rw [added, index]
    have count : m.accounts.length = s.users.length := by rw [mirrors.accounts, List.length_map]
    refine ⟨congrArg (· % 2 ^ 32) count, ?_, mirrors.book, mirrors.ids, mirrors.owner,
      mirrors.nextId⟩
    dsimp only
    rw [mirrors.accounts, List.map_append]
    rfl

theorem Mirrors.addBalance (mirrors : Mirrors s m) (user : Nat) (quote : Money) (base : Qty) :
    (m.addBalance user quote base).2 = (s.addBalance user quote base).2 ∧
      Mirrors (s.addBalance user quote base).1 (m.addBalance user quote base).1 := by
  have here : m.accounts[user]? = (s.users[user]?).map User.account := by
    rw [mirrors.accounts, List.getElem?_map]
  rw [Market.addBalance, here]
  rcases addBalance_cases s user quote base with ⟨refused, same⟩ | ⟨u, users, ⟨found, allowed⟩, done,
    moves⟩
  · rw [same]
    cases found : s.users[user]? with
    | none => exact ⟨rfl, mirrors⟩
    | some u =>
      have forbidden : quote < 0 ∧ u.account.quote + quote < 0 :=
        not_not.mp fun allowed => refused u ⟨found, allowed⟩
      rw [Option.map_some]
      dsimp only
      rw [if_pos forbidden]
      exact ⟨rfl, mirrors⟩
  · have permitted : ¬(quote < 0 ∧ u.account.quote + quote < 0) := allowed
    rw [done, found, Option.map_some]
    dsimp only
    rw [if_neg permitted]
    refine ⟨rfl, ?_, mirrors.book, mirrors.ids, mirrors.owner, mirrors.nextId⟩
    refine List.ext_getElem? fun v => ?_
    dsimp only
    rw [List.getElem?_modify, mirrors.accounts, List.getElem?_map, List.getElem?_map, moves]
    cases s.users[v]? with
    | none => rfl
    | some u =>
      rcases eq_or_ne user v with rfl | apart
      · simp [Delta.only, Delta.deposit, Account.gain, User.account, User.plus]
      · simp [Delta.only, User.account, apart, apart.symm]

theorem Mirrors.cancel (mirrors : Mirrors s m) (synced : Synced s) (user id : Nat) (isBid : Bool) :
    (m.cancel user id (if isBid then .Buy else .Sell)).2 = (s.cancel user id isBid).2 ∧
      Mirrors (s.cancel user id isBid).1 (m.cancel user id (if isBid then .Buy else .Sell)).1 := by
  have cancelable : (m.book.any fun o => decide (o.id = id ∧
      o.side = (if isBid then .Buy else .Sell) ∧ m.owner id = user)) = true ↔
      ∃ r, s.Cancels user id isBid r := by
    rw [List.any_eq_true]
    constructor
    · rintro ⟨o, member, matching⟩
      obtain ⟨sameId, side, owner⟩ := decide_eq_true_iff.mp matching
      obtain ⟨-, r, found, opens, owned⟩ := mirrors.record synced member
      rw [sameId, Int.toNat_natCast] at found
      rw [sameId] at owned
      refine ⟨r, found, opens.active, owned.symm.trans owner, ?_⟩
      rw [r.isBid_eq, opens.side, side]
      cases isBid <;> rfl
    · rintro ⟨r, found, active, rfl, rfl⟩
      exact ⟨_, mirrors.listed synced found active,
        decide_eq_true ⟨rfl, rfl, mirrors.owner id r found⟩⟩
  rw [Market.cancel]
  rcases cancel_cases synced user id isBid with ⟨none, same⟩ | ⟨r, cancels, done⟩
  · rw [if_neg fun some => absurd (cancelable.mp some) (not_exists.mpr none), same]
    exact ⟨rfl, mirrors.accounts, mirrors.book, mirrors.ids, mirrors.owner, mirrors.nextId⟩
  · rw [if_pos (cancelable.mpr ⟨r, cancels⟩), done]
    exact ⟨rfl, mirrors.cancelled synced cancels⟩

theorem Mirrors.step {op : Op} {reply : Reply} (mirrors : Mirrors s m) (synced : Synced s)
    (registered : Registered s) (tidy : Tidy s.engine) (stepped : step s op = some (s', reply)) :
    ∃ m', m.step op = (m', reply) ∧ Mirrors s' m' := by
  rcases step_cases stepped with ⟨name, rfl, rfl, rfl⟩ | ⟨user, quote, base, rfl, rfl, rfl⟩ |
    ⟨sub, result, submission, submitted, rfl⟩ | ⟨user, id, isBid, rfl, rfl, rfl⟩ |
    ⟨same, none, rfl, -⟩
  · obtain ⟨answer, kept⟩ := mirrors.makeUser registered name
    exact ⟨_, Prod.ext rfl (congrArg Reply.user answer), kept⟩
  · obtain ⟨answer, kept⟩ := mirrors.addBalance user quote base
    exact ⟨_, Prod.ext rfl (congrArg Reply.flag answer), kept⟩
  · obtain ⟨m', submits, kept⟩ := mirrors.submit synced tidy submitted
    refine ⟨m', ?_, kept⟩
    simp only [Market.step, submission]
    rw [submits]
  · obtain ⟨answer, kept⟩ := mirrors.cancel synced user id isBid
    cases isBid with
    | true => exact ⟨_, Prod.ext rfl (congrArg Reply.flag answer), kept⟩
    | false => exact ⟨_, Prod.ext rfl (congrArg Reply.flag answer), kept⟩
  · rcases step_unit stepped with ⟨enabled, rfl⟩ | rfl | rfl <;>
      obtain ⟨rfl, -⟩ := Prod.mk.inj (Option.some.inj stepped) <;>
      exact ⟨m, rfl, mirrors.accounts, mirrors.book, mirrors.ids, mirrors.owner, mirrors.nextId⟩

end

structure Follows (s : Impl) (m : Market) : Prop where
  mirrors : Mirrors s m
  synced : Synced s
  registered : Registered s
  tidy : Tidy s.engine

def Market.NoWrap (m : Market) (ops : List Op) : Prop :=
  ∀ front m' log, front <+: ops → m.run front = some (m', log) →
    ∀ side price, Reference.total m'.book side price < 2 ^ 32

section

variable {s s' : Impl} {m : Market}

theorem Follows.step {op : Op} {reply : Reply} (follows : Follows s m)
    (stepped : step s op = some (s', reply)) :
    ∃ m', m.step op = (m', reply) ∧ Mirrors s' m' ∧ (Small s'.engine → Follows s' m') := by
  obtain ⟨mirrors, synced, registered, tidy⟩ := follows
  obtain ⟨m', answered, mirrors'⟩ := mirrors.step synced registered tidy stepped
  exact ⟨m', answered, mirrors', fun small => ⟨mirrors', step_synced synced stepped,
    step_registered synced registered stepped, step_tidy synced tidy stepped small⟩⟩

theorem Mirrors.restingQty (mirrors : Mirrors s m) (side : Side) (level : Nat) :
    s.engine.restingQty side level =
      Reference.total m.book side (Engine.levelToPrice level) :=
  mirrors.book.restingQty side level

theorem run_follows {start : Impl} {ops : List Op} {log : List (Op × Reply)}
    (follows : Follows start m) (noWrap : m.NoWrap ops)
    (ran : Runs.run step start ops = some (s, log)) :
    ∃ m', m.run ops = some (m', log) ∧ Follows s m' := by
  refine Runs.run_lockstep (J := Follows)
    (C := fun _ m' => ∀ side price, Reference.total m'.book side price < 2 ^ 32) ?_ follows
    (fun front _ m' log isPrefix _ ran => noWrap front m' log isPrefix ran) ran
  intro s m op s' reply follows stepped
  obtain ⟨m', answered, mirrors', next⟩ := follows.step stepped
  refine ⟨m', congrArg some answered, fun total => next fun side level => ?_⟩
  rw [mirrors'.restingQty]
  exact total side _

theorem market_noWrap {start : Impl} {ops : List Op} (follows : Follows start m)
    (noWrap : NoWrap start ops) (defined : (Runs.run step start ops).isSome = true) :
    m.NoWrap ops := by
  rintro front m' log ⟨rest, rfl⟩ reached side price
  obtain ⟨⟨s, log'⟩, early, -⟩ : ∃ early, Runs.run step start front = some early ∧ True := by
    obtain ⟨final, ran⟩ := Option.isSome_iff_exists.mp defined
    rw [Runs.run_append, Option.bind_eq_some_iff] at ran
    obtain ⟨early, ran, -⟩ := ran
    exact ⟨early, ran, trivial⟩
  obtain ⟨m'', goes, same⟩ := Runs.run_lockstep (J := Follows) (t := m)
    (g := fun m op => some (m.step op))
    (C := fun s _ => ∀ side, ∀ level < Engine.kLevels, s.engine.restingQty side level < 2 ^ 32)
    (fun s m op s' reply follows stepped => by
      obtain ⟨m', answered, -, next⟩ := follows.step stepped
      refine ⟨m', congrArg some answered, fun bounded => next ?_⟩
      obtain ⟨free, queue, rep⟩ := (step_synced follows.synced stepped).represents
      exact rep.small bounded) follows
    (fun front' s _ log isPrefix ran _ => noWrap front' s log
      (isPrefix.trans (List.prefix_append front rest)) ran) early
  obtain ⟨rfl, -⟩ := Prod.mk.inj (Option.some.inj (goes.symm.trans reached))
  rw [← same.mirrors.book.level_quantity same.tidy]
  exact BitVec.isLt _

theorem run_eq_foldl {ops : List Op} {m' : Market} {log : List (Op × Reply)}
    (ran : m.run ops = some (m', log)) : m' = ops.foldl (fun m op => (m.step op).1) m := by
  induction ops generalizing m log with
  | nil => exact (Prod.mk.inj (Option.some.inj ran)).1.symm
  | cons op rest ih =>
    obtain ⟨⟨last, later⟩, late, same⟩ := Option.map_eq_some_iff.mp ran
    obtain ⟨rfl, -⟩ := Prod.mk.inj same
    exact ih late

theorem empty_follows : Follows Impl.empty {} where
  mirrors := ⟨rfl, ⟨LimitOrderBook.reset_ordersAt _, by simp⟩, List.nodup_nil, by
    intro id o found
    rw [Impl.empty, List.getElem?_singleton] at found
    split at found
    · rw [← Option.some.inj found]
    · exact absurd found (by simp), rfl⟩
  synced := empty_synced
  registered := empty_registered
  tidy := LimitOrderBook.reset_tidy _

theorem opening_follows : Follows new Market.opening := by
  obtain ⟨log, ran⟩ := run_openingOps
  have noWrap : NoWrap Impl.empty openingOps :=
    noWrap_of_total empty_synced (by decide +kernel)
  obtain ⟨m, opened, follows⟩ :=
    run_follows empty_follows (market_noWrap empty_follows noWrap (by rw [ran]; rfl)) ran
  rwa [run_eq_foldl opened] at follows

end

theorem order_book_refines_market (ops : List Op) (few : submissions ops < 2 ^ 31)
    (noWrap : Market.opening.NoWrap ops) :
    ∃ s m log, Runs.run step new ops = some (s, log) ∧ Market.opening.run ops = some (m, log) ∧
      Mirrors s m := by
  obtain ⟨s, log, ran, -⟩ := run_defined few
  obtain ⟨m, follows, same⟩ := run_follows opening_follows noWrap ran
  exact ⟨s, m, log, ran, follows, same.mirrors⟩

theorem order_book_refines_market_mixedOps :
    ∃ s m log, Runs.run step new mixedOps = some (s, log) ∧
      Market.opening.run mixedOps = some (m, log) ∧ Mirrors s m :=
  order_book_refines_market mixedOps (by decide)
    (market_noWrap opening_follows (noWrap_of_total new_synced (by decide +kernel))
      (by decide +kernel))

end CppPractice.OrderBook
