import CppPractice.Wrapper.Synced

set_option autoImplicit false

namespace CppPractice.OrderBook

open LimitOrderBook (Accepts Processed)

def Impl.Admits (s : Impl) (side : Side) (user : Nat) (price : Price) (qty : Qty) : Prop :=
  ∃ u, s.users[user]? = some u ∧ qty ≠ 0 ∧ u.covers side price qty = true

instance (s : Impl) (side : Side) (user : Nat) (price : Price) (qty : Qty) :
    Decidable (s.Admits side user price qty) :=
  decidable_of_iff (∃ u ∈ s.users[user]?, qty ≠ 0 ∧ u.covers side price qty = true) Iff.rfl

def Impl.counted (s : Impl) : Impl :=
  { s with stats.ordersSubmitted := s.stats.ordersSubmitted + 1 }

def Impl.opened (s : Impl) (side : Side) (user : Nat) (price : Price) (qty : Qty) : Impl :=
  { s.counted with
    nextOrderId := s.nextOrderId + 1
    orders := s.orders ++ [.fresh side user price qty]
    users := s.users.modify user (·.lock side price qty) }

-- A rejected order leaves an inactive record and a used id behind.
def Impl.rejected (s : Impl) (side : Side) (user : Nat) (price : Price) (qty : Qty) : Impl :=
  { s.counted with
    nextOrderId := s.nextOrderId + 1
    orders := s.orders ++ [(LiveOrder.fresh side user price qty).close] }

section

variable {s : Impl} {side : Side} {user : Nat} {price : Price} {qty : Qty}

theorem opened_older {id : Nat} {o : LiveOrder} (found : s.orders[id]? = some o) :
    (s.opened side user price qty).orders[id]? = some o :=
  (List.getElem?_append_left (List.getElem?_eq_some_iff.mp found).1).trans found

theorem opened_fresh (synced : Synced s) :
    (s.opened side user price qty).orders[s.nextOrderId]? = some (.fresh side user price qty) := by
  rw [← synced.length]
  exact List.getElem?_concat_length

theorem rejected_older {id : Nat} {o : LiveOrder} (found : s.orders[id]? = some o) :
    (s.rejected side user price qty).orders[id]? = some o :=
  (List.getElem?_append_left (List.getElem?_eq_some_iff.mp found).1).trans found

theorem openOrder_eq (synced : Synced s) :
    s.counted.openOrder side user price qty =
      if s.nextOrderId + 1 < 2 ^ 32 then
        some (s.opened side user price qty, s.nextOrderId) else none := by
  have length : s.counted.orders.length = s.nextOrderId := synced.length
  have next : s.counted.nextOrderId = s.nextOrderId := rfl
  have reached : s.nextOrderId ≥ s.counted.orders.length := Nat.le_of_eq length
  unfold Impl.openOrder
  dsimp only
  rw [next, if_pos reached]
  split
  · rename_i inside
    have room : s.nextOrderId + 1 < 2 ^ 32 := by
      by_contra full
      have wrapped : (s.nextOrderId + 1) % 2 ^ 32 = 0 := by
        have := synced.bounded
        omega
      rw [wrapped, resize] at inside
      simp at inside
    have grown : resize s.counted.orders ((s.nextOrderId + 1) % 2 ^ 32) = s.orders ++ [({} : LiveOrder)] := by
      rw [Nat.mod_eq_of_lt room, resize, length, Nat.add_sub_cancel_left,
        List.take_of_length_le (by omega)]
      rfl
    rw [if_pos room, grown, Nat.mod_eq_of_lt room,
      List.set_append_right _ _ (Nat.le_of_eq synced.length), synced.length, Nat.sub_self]
    rfl
  · rename_i outside
    rw [if_neg]
    intro room
    apply outside
    rw [Nat.mod_eq_of_lt room, resize, List.length_append, List.length_replicate, length,
      List.length_take, length]
    omega

theorem rejectOrder_opened (synced : Synced s) :
    (s.opened side user price qty).rejectOrder side user s.nextOrderId price qty =
      s.rejected side user price qty := by
  have users : (s.users.modify user (·.lock side price qty)).modify user
      (·.unlock side price qty) = s.users := by
    rw [List.modify_modify_eq]
    conv_rhs => rw [← List.modify_id user s.users]
    congr 1
    funext u
    cases side <;> simp [User.lock, User.unlock]
  have orders : (s.orders ++ [LiveOrder.fresh side user price qty]).modify s.nextOrderId
      (·.reject side) = s.orders ++ [(LiveOrder.fresh side user price qty).close] := by
    rw [List.modify_eq_set_getElem?, ← synced.length, List.getElem?_concat_length]
    simp [LiveOrder.reject_fresh]
  simp only [Impl.rejectOrder, Impl.opened, Impl.rejected, users, orders]
  rfl

theorem submit_refused (discard : Bool) (refused : ¬s.Admits side user price qty) :
    s.submit side user price qty discard = some (s.counted, none) := by
  unfold Impl.submit
  dsimp only
  cases found : s.users[user]? with
  | none => rfl
  | some u =>
    dsimp only
    split
    · rfl
    · rename_i positive
      split
      · rfl
      · rename_i covers
        exact absurd ⟨u, found, positive, by simpa using covers⟩ refused

theorem submit_admitted (synced : Synced s) (discard : Bool)
    (admits : s.Admits side user price qty) :
    s.submit side user price qty discard =
      if s.nextOrderId + 1 < 2 ^ 32 then
        (s.engine.processOrder side price qty (toInt s.nextOrderId)).map fun outcome =>
          let t := { s.opened side user price qty with engine := outcome.book }
          if !outcome.ok then (t.rejectOrder side user s.nextOrderId price qty, none)
          else (t.acceptOrder side user s.nextOrderId discard outcome.executions,
            some s.nextOrderId)
      else none := by
  obtain ⟨u, found, positive, covers⟩ := admits
  unfold Impl.submit
  dsimp only
  rw [found]
  dsimp only
  rw [if_neg positive, covers, Bool.not_true, if_neg (by decide), ← Impl.counted,
    openOrder_eq synced]
  split
  · rfl
  · rfl

theorem submit_cases {s' : Impl} {discard : Bool} {reply : Option Nat} (synced : Synced s)
    (submitted : s.submit side user price qty discard = some (s', reply)) :
    (¬s.Admits side user price qty ∧ reply = none ∧ s' = s.counted) ∨
      (s.Admits side user price qty ∧ s.nextOrderId + 1 < 2 ^ 32 ∧
        ((¬Accepts Engine price qty (toInt s.nextOrderId) ∧ reply = none ∧
            s' = s.rejected side user price qty) ∨
          (Accepts Engine price qty s.nextOrderId ∧ toInt s.nextOrderId = s.nextOrderId ∧
            reply = some s.nextOrderId ∧
            ∃ outcome after remaining,
              s.engine.processOrder side price qty s.nextOrderId = some outcome ∧
              Processed s.engine side price qty s.nextOrderId outcome after remaining ∧
              s' = { s.opened side user price qty with engine := outcome.book }.acceptOrder side
                user s.nextOrderId discard outcome.executions))) := by
  by_cases admits : s.Admits side user price qty
  · rw [submit_admitted synced discard admits, Option.ite_none_right_eq_some] at submitted
    obtain ⟨room, submitted⟩ := submitted
    refine Or.inr ⟨admits, room, ?_⟩
    obtain ⟨free, queue, rep⟩ := synced.represents
    by_cases accepts : Accepts Engine price qty (toInt s.nextOrderId)
    · obtain ⟨sameId, small⟩ := toInt_valid synced.bounded accepts.2.2
      rw [sameId] at accepts
      obtain ⟨outcome, after, remaining, processed, spec⟩ :=
        LimitOrderBook.processOrder_processed rep side accepts synced.fresh
      rw [sameId, processed, Option.map_some, spec.ok] at submitted
      obtain ⟨accepted, answer⟩ := Prod.mk.inj (Option.some.inj submitted)
      exact Or.inr ⟨accepts, sameId, answer.symm, outcome, after, remaining, processed, spec,
        accepted.symm⟩
    · rw [LimitOrderBook.processOrder_rejects accepts, Option.map_some] at submitted
      obtain ⟨rejected, answer⟩ := Prod.mk.inj (Option.some.inj submitted)
      refine Or.inl ⟨accepts, answer.symm, ?_⟩
      rw [← rejectOrder_opened synced]
      exact rejected.symm
  · rw [submit_refused discard admits] at submitted
    obtain ⟨rfl, rfl⟩ := Prod.mk.inj (Option.some.inj submitted)
    exact Or.inl ⟨admits, rfl, rfl⟩

-- Only the last usable id is out of reach: `orders.resize(id + 1)` would wrap.
theorem submit_defined (synced : Synced s) (room : s.nextOrderId + 1 < 2 ^ 32) (side : Side)
    (user : Nat) (price : Price) (qty : Qty) (discard : Bool) :
    ∃ result, s.submit side user price qty discard = some result := by
  by_cases admits : s.Admits side user price qty
  · obtain ⟨free, queue, rep⟩ := synced.represents
    obtain ⟨outcome, processed, -⟩ := LimitOrderBook.processOrder_represents rep side price qty
      (toInt s.nextOrderId)
    exact ⟨_, by rw [submit_admitted synced discard admits, if_pos room, processed, Option.map_some]⟩
  · exact ⟨_, submit_refused discard admits⟩

end

end CppPractice.OrderBook
