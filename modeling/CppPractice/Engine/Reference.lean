import CppPractice.Engine.Model

set_option autoImplicit false

namespace CppPractice.Reference

structure Order where
  id : Int
  side : Side
  price : Int
  qty : Nat
  deriving DecidableEq, Repr

def better : Side → Int → Int → Bool
  | .Buy, p, q => decide (p > q)
  | .Sell, p, q => decide (p < q)

-- The earliest order among the best priced ones of a side.
def bestMaker (side : Side) : List Order → Option Order
  | [] => none
  | o :: rest =>
    if o.side = side then
      match bestMaker side rest with
      | none => some o
      | some b => if better side b.price o.price then some b else some o
    else bestMaker side rest

def reduceOne (id : Int) (trade : Nat) (o : Order) : Option Order :=
  if o.id = id then
    if o.qty = trade then none else some { o with qty := o.qty - trade }
  else some o

-- Take `trade` off order `id`; an order without a remainder leaves the book.
def reduce (id : Int) (trade : Nat) (book : List Order) : List Order :=
  book.filterMap (reduceOne id trade)

theorem reduceOne_some {id : Int} {trade : Nat} {o o' : Order}
    (kept : reduceOne id trade o = some o') :
    o'.id = o.id ∧ o'.side = o.side ∧ o'.price = o.price ∧ o'.qty ≤ o.qty := by
  unfold reduceOne at kept
  split at kept
  · split at kept
    · exact absurd kept (by simp)
    · obtain rfl := Option.some.inj kept
      exact ⟨rfl, rfl, rfl, Nat.sub_le _ _⟩
  · obtain rfl := Option.some.inj kept
    exact ⟨rfl, rfl, rfl, le_rfl⟩

theorem bestMaker_mem {side : Side} {book : List Order} {m : Order}
    (found : bestMaker side book = some m) : m ∈ book ∧ m.side = side := by
  induction book with
  | nil => simp [bestMaker] at found
  | cons o rest ih =>
    rw [bestMaker] at found
    by_cases mine : o.side = side
    · rw [if_pos mine] at found
      cases later : bestMaker side rest with
      | none =>
        rw [later] at found
        obtain rfl : o = m := by simpa using found
        exact ⟨by simp, mine⟩
      | some b =>
        rw [later] at found
        dsimp only at found
        split at found
        · have := ih (later.trans found)
          exact ⟨by simp [this.1], this.2⟩
        · obtain rfl : o = m := by simpa using found
          exact ⟨by simp, mine⟩
    · rw [if_neg mine] at found
      have := ih found
      exact ⟨by simp [this.1], this.2⟩

theorem length_reduce_lt {m : Order} {book : List Order} (member : m ∈ book) :
    (reduce m.id m.qty book).length < book.length := by
  induction book with
  | nil => simp at member
  | cons o rest ih =>
    have shrinks := List.length_filterMap_le (reduceOne m.id m.qty) rest
    rcases List.mem_cons.mp member with rfl | later
    · simp only [reduce, List.filterMap_cons, reduceOne, if_true, List.length_cons]
      exact Nat.lt_succ_of_le shrinks
    · have := ih later
      simp only [reduce, List.filterMap_cons, List.length_cons] at this ⊢
      split
      · omega
      · rw [List.length_cons]
        omega

theorem length_reduce_le (id : Int) (trade : Nat) (book : List Order) :
    (reduce id trade book).length ≤ book.length :=
  List.length_filterMap_le _ _

structure Swept where
  book : List Order
  remaining : Nat
  executions : List (Execution Nat)

def sweep (side : Side) (limit takerId : Int) (book : List Order) (remaining : Nat) : Swept :=
  if _positive : remaining = 0 then ⟨book, 0, []⟩
  else
    match _found : bestMaker side.opposite book with
    | none => ⟨book, remaining, []⟩
    | some m =>
      if side.opposite.beyond m.price limit then ⟨book, remaining, []⟩
      else
        let trade := min remaining m.qty
        let rest := sweep side limit takerId (reduce m.id trade book) (remaining - trade)
        { rest with
          executions :=
            { takerSide := side
              takerOrderId := takerId
              makerSide := side.opposite
              makerOrderId := m.id
              price := m.price
              qty := trade } :: rest.executions }
termination_by book.length + remaining
decreasing_by
  have member := (bestMaker_mem _found).1
  by_cases whole : m.qty ≤ remaining
  · have := length_reduce_lt member
    rw [Nat.min_eq_right whole]
    omega
  · have := length_reduce_le m.id (min remaining m.qty) book
    omega

def resting (book : List Order) (id : Int) : Bool := book.any fun o => decide (o.id = id)

variable {c : Config}

/-- Buy and sell orders; the bounds are the template parameters. -/
def process (c : Config) (book : List Order) (side : Side) (price : Int) (qty : Nat) (id : Int) :
    List Order × LimitOrderBook.Reply Nat :=
  if qty = 0 ∨ price < c.priceMin ∨ c.priceMax < price ∨ id < 0 ∨ (c.maxOrders : Int) ≤ id then
    (book, ⟨false, []⟩)
  else
    let swept := sweep side price id book qty
    if swept.remaining = 0 then (swept.book, ⟨true, swept.executions⟩)
    else if resting swept.book id ∨ c.maxOrders ≤ swept.book.length then
      (swept.book, ⟨false, swept.executions⟩)
    else (swept.book ++ [⟨id, side, price, swept.remaining⟩], ⟨true, swept.executions⟩)

def cancel (book : List Order) (id : Int) : List Order × Bool :=
  (book.filter fun o => decide (o.id ≠ id), resting book id)

def step (book : List Order) : LimitOrderBook.Call c → List Order × LimitOrderBook.Reply Nat
  | .processOrder side price qty id => process c book side price qty.toNat id
  | .cancel id => ((cancel book id).1, ⟨(cancel book id).2, []⟩)
  | .reset => ([], ⟨true, []⟩)

def run (calls : List (LimitOrderBook.Call c)) : List Order × List (LimitOrderBook.Reply Nat) :=
  calls.foldl (fun done call =>
    ((step done.1 call).1, done.2 ++ [(step done.1 call).2])) ([], [])

theorem run_snoc (calls : List (LimitOrderBook.Call c)) (call : LimitOrderBook.Call c) :
    run (calls ++ [call]) =
      ((step (run calls).1 call).1, (run calls).2 ++ [(step (run calls).1 call).2]) := by
  rw [run, List.foldl_append]
  rfl

def Order.isAt (side : Side) (price : Int) (o : Order) : Bool :=
  decide (o.side = side ∧ o.price = price)

def ordersAt (book : List Order) (side : Side) (price : Int) : List Order :=
  book.filter (Order.isAt side price)

section

variable {side : Side} {book : List Order}

theorem bestMaker_none (absent : ∀ o ∈ book, o.side ≠ side) : bestMaker side book = none := by
  induction book with
  | nil => rfl
  | cons o rest ih =>
    rw [bestMaker, if_neg (absent o (by simp))]
    exact ih fun o member => absent o (by simp [member])

theorem bestMaker_first (price : Int) {m : Order}
    (first : (ordersAt book side price).head? = some m)
    (best : ∀ o ∈ book, o.side = side → better side o.price price = false) :
    bestMaker side book = some m := by
  simp only [ordersAt] at first
  induction book with
  | nil => simp at first
  | cons o rest ih =>
    have restBest : ∀ o ∈ rest, o.side = side → better side o.price price = false :=
      fun o member => best o (by simp [member])
    rw [bestMaker]
    by_cases mine : o.side = side
    · rw [if_pos mine]
      by_cases here : o.price = price
      · obtain rfl : o = m := by simpa [Order.isAt, mine, here] using first
        cases later : bestMaker side rest with
        | none => rfl
        | some b =>
          obtain ⟨inside, sameSide⟩ := bestMaker_mem later
          simp [here, restBest b inside sameSide]
      · have later := ih (by simpa [Order.isAt, here] using first) restBest
        have atPrice : m.price = price := by
          have := List.mem_of_mem_head? (Option.mem_def.mpr first)
          simpa using (decide_eq_true_iff.mp (List.mem_filter.mp this).2).2
        have notBetter := best o (by simp) mine
        have improves : better side m.price o.price = true := by
          rw [atPrice]
          cases side <;> simp only [better, decide_eq_true_eq, decide_eq_false_iff_not] at * <;> omega
        simp [later, improves]
    · rw [if_neg mine]
      exact ih (by simpa [Order.isAt, mine] using first) restBest

end

theorem ordersAt_reduce (id : Int) (trade : Nat) (book : List Order) (side : Side) (price : Int) :
    ordersAt (reduce id trade book) side price = reduce id trade (ordersAt book side price) := by
  induction book with
  | nil => rfl
  | cons o rest ih =>
    simp only [reduce, ordersAt] at ih
    simp only [reduce, ordersAt, List.filterMap_cons, List.filter_cons]
    cases reduced : reduceOne id trade o with
    | none =>
      rw [ih]
      split
      · rw [List.filterMap_cons, reduced]
      · rfl
    | some o' =>
      obtain ⟨-, sameSide, samePrice, -⟩ := reduceOne_some reduced
      have same : Order.isAt side price o' = Order.isAt side price o := by
        simp [Order.isAt, sameSide, samePrice]
      simp only [List.filter_cons, same, ih]
      split
      · rw [List.filterMap_cons, reduced]
      · rfl

theorem mem_reduce {id : Int} {trade : Nat} {book : List Order} {o : Order}
    (member : o ∈ reduce id trade book) :
    ∃ old ∈ book, o.id = old.id ∧ o.side = old.side ∧ o.price = old.price := by
  obtain ⟨old, inside, kept⟩ := List.mem_filterMap.mp member
  obtain ⟨sameId, sameSide, samePrice, -⟩ := reduceOne_some kept
  exact ⟨old, inside, sameId, sameSide, samePrice⟩

theorem sum_reduce_le (id : Int) (trade : Nat) (book : List Order) :
    ((reduce id trade book).map Order.qty).sum ≤ (book.map Order.qty).sum := by
  induction book with
  | nil => simp [reduce]
  | cons o rest ih =>
    simp only [reduce, List.filterMap_cons] at ih ⊢
    split
    · simp only [List.map_cons, List.sum_cons]
      omega
    · rename_i kept some
      have := (reduceOne_some some).2.2.2
      simp only [List.map_cons, List.sum_cons]
      omega

theorem reduce_absent {id : Int} {trade : Nat} {book : List Order}
    (absent : ∀ o ∈ book, o.id ≠ id) : reduce id trade book = book := by
  rw [reduce, List.filterMap_congr (g := some) fun o member => by
    rw [reduceOne, if_neg (absent o member)], List.filterMap_some]

theorem sum_reduce {trade : Nat} {book : List Order} {m : Order}
    (nodup : (book.map Order.id).Nodup) (member : m ∈ book) (enough : trade ≤ m.qty) :
    ((reduce m.id trade book).map Order.qty).sum + trade = (book.map Order.qty).sum := by
  induction book with
  | nil => simp at member
  | cons o rest ih =>
    rw [List.map_cons, List.nodup_cons] at nodup
    rcases List.mem_cons.mp member with rfl | later
    · have others : reduce m.id trade rest = rest :=
        reduce_absent fun o inside same => nodup.1 (List.mem_map.mpr ⟨o, inside, same⟩)
      rw [reduce] at others
      rw [reduce, List.filterMap_cons, reduceOne, if_pos rfl, others]
      by_cases whole : m.qty = trade
      · simp only [whole, if_true, List.map_cons, List.sum_cons]
        omega
      · simp only [whole, if_false, List.map_cons, List.sum_cons]
        omega
    · have apart : o.id ≠ m.id := fun same => nodup.1 (List.mem_map.mpr ⟨m, later, same.symm⟩)
      have rest := ih nodup.2 later
      rw [reduce] at rest
      rw [reduce, List.filterMap_cons, reduceOne, if_neg apart]
      simp only [List.map_cons, List.sum_cons]
      omega

end CppPractice.Reference
