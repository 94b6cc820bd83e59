import CppPractice.Engine.Submission
import CppPractice.Wrapper.Settlement

set_option autoImplicit false

namespace CppPractice.OrderBook

structure Synced (s : Impl) : Prop where
  represents : ∃ free queue, s.engine.Represents free queue
  length : s.orders.length = s.nextOrderId
  positive : 0 < s.nextOrderId
  bounded : s.nextOrderId < 2 ^ 32
  unused : ∀ o, s.orders[0]? = some o → o.active = false
  table : ∀ id, s.table id = s.engine.resting id
  accounts : Accounts s.users s.orders

theorem empty_synced : Synced Impl.empty where
  represents := ⟨_, _, LimitOrderBook.reset_represents _⟩
  length := rfl
  positive := by decide
  bounded := by decide
  unused o first := by
    obtain rfl : {} = o := by simpa [Impl.empty] using first
    rfl
  table id := by
    rw [Impl.empty, LimitOrderBook.new, LimitOrderBook.reset_resting, Impl.table]
    cases id <;> simp [LiveOrder.resting]
  accounts :=
    { accurate := by
        intro o member
        obtain rfl : o = {} := by simpa [Impl.empty] using member
        exact ⟨by simp, by simp, by simp⟩
      owned := by
        intro o member active
        obtain rfl : o = {} := by simpa [Impl.empty] using member
        exact absurd active (by decide)
      quote := by simp [Impl.empty]
      base := by simp [Impl.empty] }

theorem toInt_small {id : Nat} (small : id < 2 ^ 31) : toInt id = id := by
  rw [toInt, BitVec.toInt_eq_toNat_cond, BitVec.toNat_ofNat]
  split <;> omega

-- The engine takes an id only if the conversion to `int` kept it.
theorem toInt_valid {id : Nat} (bounded : id < 2 ^ 32) (valid : Engine.validId (toInt id) = true) :
    toInt id = id ∧ id < 1000000 := by
  obtain ⟨nonneg, below⟩ := LimitOrderBook.validId_iff.mp valid
  have below : (toInt id).toNat < 1000000 := below
  have value : toInt id = id := by
    rw [toInt, BitVec.toInt_eq_toNat_cond, BitVec.toNat_ofNat] at nonneg ⊢
    split at nonneg
    · rename_i low
      rw [if_pos low]
      omega
    · omega
  rw [value] at below
  exact ⟨value, by omega⟩

namespace Synced

variable {s : Impl}

theorem resting (synced : Synced s) {id : Nat} {o : LiveOrder} (found : s.orders[id]? = some o)
    (active : o.active = true) :
    s.engine.resting id = some ⟨o.side, o.limitPrice, o.remaining⟩ := by
  rw [← synced.table]
  exact table_eq_some.mpr ⟨o, found, active, rfl⟩

theorem activeId (synced : Synced s) {id : Nat} {o : LiveOrder} (found : s.orders[id]? = some o)
    (active : o.active = true) : id ≠ 0 ∧ id < 1000000 ∧ toInt id = id := by
  obtain ⟨free, queue, rep⟩ := synced.represents
  have valid := rep.resting_valid (by rw [synced.resting found active]; simp)
  have below : id < 1000000 := by
    have := (LimitOrderBook.validId_iff.mp valid).2
    simpa using this
  refine ⟨?_, below, toInt_small (by omega)⟩
  rintro rfl
  rw [synced.unused o found] at active
  exact absurd active (by decide)

theorem fresh (synced : Synced s) : s.engine.resting s.nextOrderId = none := by
  rw [← synced.table, Impl.table, List.getElem?_eq_none (Nat.le_of_eq synced.length),
    Option.bind_none]

theorem stats (synced : Synced s) (stats : Stats) : Synced { s with stats := stats } :=
  ⟨synced.represents, synced.length, synced.positive, synced.bounded, synced.unused, synced.table,
    synced.accounts⟩

end Synced

def Impl.Cancels (s : Impl) (user id : Nat) (expectBid : Bool) (o : LiveOrder) : Prop :=
  s.orders[id]? = some o ∧ o.active = true ∧ o.user = user ∧ o.isBid = expectBid

def Impl.cancelled (s : Impl) (user id : Nat) (o : LiveOrder) : Impl :=
  { s with
    engine := (s.engine.cancel (toInt id)).1
    users := s.users.modify user (·.release o)
    orders := s.orders.set id o.close
    stats.cancelsAttempted := s.stats.cancelsAttempted + 1
    stats.cancelsSucceeded := s.stats.cancelsSucceeded + 1 }

theorem engine_cancel {s : Impl} (synced : Synced s) {id : Nat} {o : LiveOrder}
    (found : s.orders[id]? = some o) (active : o.active = true) :
    (s.engine.cancel (toInt id)).2 = true ∧
      (∃ free queue, (s.engine.cancel (toInt id)).1.Represents free queue) ∧
      (s.engine.cancel (toInt id)).1.resting = Function.update s.engine.resting id none := by
  obtain ⟨free, queue, rep⟩ := synced.represents
  obtain ⟨-, -, sameId⟩ := synced.activeId found active
  have rests := synced.resting found active
  have valid := rep.resting_valid (by rw [rests]; simp)
  rcases LimitOrderBook.cancel_resting rep (toInt id) with ⟨-, absent⟩ | ⟨ok, -, rep', after⟩
  · rw [sameId, Int.toNat_natCast, valid, rests] at absent
    simp at absent
  · rw [sameId, Int.toNat_natCast] at after
    rw [sameId]
    rw [sameId] at ok rep'
    exact ⟨ok, rep', after⟩

-- A cancel succeeds on exactly the caller's open orders; the engine never objects.
theorem cancel_cases {s : Impl} (synced : Synced s) (user id : Nat) (expectBid : Bool) :
    ((∀ o, ¬s.Cancels user id expectBid o) ∧ s.cancel user id expectBid =
        ({ s with stats.cancelsAttempted := s.stats.cancelsAttempted + 1 }, false)) ∨
      ∃ o, s.Cancels user id expectBid o ∧
        s.cancel user id expectBid = (s.cancelled user id o, true) := by
  by_cases some : ∃ o, s.Cancels user id expectBid o
  · obtain ⟨o, cancels⟩ := some
    obtain ⟨found, active, rfl, rfl⟩ := cancels
    refine Or.inr ⟨o, ⟨found, active, rfl, rfl⟩, ?_⟩
    have owned := synced.accounts.owned o (List.mem_of_getElem? found) active
    have nonzero := (synced.activeId found active).1
    have ok := (engine_cancel synced found active).1
    unfold Impl.cancel
    dsimp only
    rw [if_neg (by omega), if_neg nonzero, found]
    simp [active, ok, Impl.cancelled]
  · refine Or.inl ⟨fun o cancels => some ⟨o, cancels⟩, ?_⟩
    unfold Impl.cancel
    dsimp only
    split
    · rfl
    · split
      · rfl
      · cases found : s.orders[id]? with
        | none => rfl
        | some o =>
          dsimp only
          split
          · rfl
          · rename_i active
            split
            · rfl
            · rename_i owner
              split
              · rfl
              · rename_i kind
                exact absurd ⟨o, found, by simpa using active, by simpa using owner,
                  by simpa using kind⟩ some

theorem release_lock {o : LiveOrder} (accurate : o.Accurate) (v : Nat) :
    ((Delta.release o).only o.user v).lockedQuote + o.quoteOf v = o.close.quoteOf v ∧
      ((Delta.release o).only o.user v).lockedBase + o.baseOf v = o.close.baseOf v := by
  have quote := accurate.quote
  have base := accurate.base
  rw [LiveOrder.close_quoteOf, LiveOrder.close_baseOf]
  by_cases mine : v = o.user
  · cases isBid : o.isBid <;> rw [isBid] at quote base <;>
      simp_all [Delta.only, Delta.release, LiveOrder.quoteOf, LiveOrder.baseOf]
  · simp [Delta.only, LiveOrder.quoteOf, LiveOrder.baseOf, mine, Ne.symm mine]

theorem cancelled_synced {s : Impl} (synced : Synced s) {user id : Nat} {expectBid : Bool}
    {o : LiveOrder} (cancels : s.Cancels user id expectBid o) :
    Synced (s.cancelled user id o) := by
  obtain ⟨found, active, rfl, rfl⟩ := cancels
  have inside := (List.getElem?_eq_some_iff.mp found).1
  have accurate := synced.accounts.accurate o (List.mem_of_getElem? found)
  obtain ⟨-, represents, after⟩ := engine_cancel synced found active
  obtain ⟨nonzero, -, -⟩ := synced.activeId found active
  refine ⟨represents, ?_, synced.positive, synced.bounded, ?_, ?_, ?_⟩
  · rw [Impl.cancelled, List.length_set, synced.length]
  · intro first at_zero
    rw [Impl.cancelled, List.getElem?_set_ne nonzero] at at_zero
    exact synced.unused first at_zero
  · intro other
    rw [Impl.table, Impl.cancelled, after, Function.update_apply]
    by_cases here : other = id
    · subst here
      rw [if_pos rfl, List.getElem?_set_self inside]
      rfl
    · rw [if_neg here, List.getElem?_set_ne (Ne.symm here)]
      exact synced.table other
  · refine synced.accounts.replace found (Moves.modify _ _ (release_eq · o))
      (LiveOrder.close_accurate o) (by simp [LiveOrder.close]) ?_ ?_
    · exact fun v => (release_lock accurate v).1
    · exact fun v => (release_lock accurate v).2

theorem cancel_rule {s : Impl} (synced : Synced s) {user id : Nat} {expectBid : Bool}
    {P : Impl → Prop}
    (refused : P { s with stats.cancelsAttempted := s.stats.cancelsAttempted + 1 })
    (cancelled : ∀ o, s.Cancels user id expectBid o → P (s.cancelled user id o)) :
    P (s.cancel user id expectBid).1 := by
  rcases cancel_cases synced user id expectBid with ⟨-, same⟩ | ⟨o, cancels, done⟩
  · rw [same]
    exact refused
  · rw [done]
    exact cancelled o cancels

theorem cancel_synced {s : Impl} (synced : Synced s) (user id : Nat) (expectBid : Bool) :
    Synced (s.cancel user id expectBid).1 :=
  cancel_rule synced (synced.stats _) fun _ cancels => cancelled_synced synced cancels

theorem makeUser_synced {s : Impl} (synced : Synced s) (name : String) :
    Synced (s.makeUser name).1 := by
  unfold Impl.makeUser
  split
  · exact synced
  · exact ⟨synced.represents, synced.length, synced.positive, synced.bounded, synced.unused,
      synced.table, synced.accounts.newUser name⟩

def Delta.deposit (quoteDelta : Money) (baseDelta : Qty) : Delta :=
  { quote := quoteDelta, base := baseDelta }

def Impl.Deposits (s : Impl) (user : Nat) (quoteDelta : Money) (u : User) : Prop :=
  s.users[user]? = some u ∧ ¬(quoteDelta < 0 ∧ u.bal.quote + quoteDelta < 0)

theorem addBalance_cases (s : Impl) (user : Nat) (quoteDelta : Money) (baseDelta : Qty) :
    ((∀ u, ¬s.Deposits user quoteDelta u) ∧ s.addBalance user quoteDelta baseDelta = (s, false)) ∨
      ∃ u users, s.Deposits user quoteDelta u ∧
        s.addBalance user quoteDelta baseDelta = ({ s with users := users }, true) ∧
        Moves s.users users ((Delta.deposit quoteDelta baseDelta).only user) := by
  unfold Impl.addBalance Impl.Deposits
  cases found : s.users[user]? with
  | none => simp
  | some u =>
    dsimp only
    split
    · rename_i overdrawn
      exact Or.inl ⟨fun other same => same.2 (by simpa [← Option.some.inj same.1] using overdrawn), rfl⟩
    · rename_i covered
      refine Or.inr ⟨u, _, ⟨rfl, covered⟩, rfl, ?_⟩
      have inside := (List.getElem?_eq_some_iff.mp found).1
      intro v
      by_cases here : v = user
      · subst here
        rw [List.getElem?_set_self inside, found, Option.map_some, Delta.only, if_pos rfl]
        by_cases base : baseDelta > 0
        · rw [if_pos base]
          by_cases quote : quoteDelta = 0 <;> simp [quote, User.plus, Delta.deposit]
        · rw [if_neg base, BitVec.le_zero_iff.mp (BitVec.not_lt.mp base)]
          by_cases quote : quoteDelta = 0 <;> simp [quote, User.plus, Delta.deposit]
      · rw [List.getElem?_set_ne (Ne.symm here), Delta.only, if_neg here]
        simp

theorem addBalance_synced {s : Impl} (synced : Synced s) (user : Nat) (quoteDelta : Money)
    (baseDelta : Qty) : Synced (s.addBalance user quoteDelta baseDelta).1 := by
  rcases addBalance_cases s user quoteDelta baseDelta with ⟨-, same⟩ | ⟨u, users, -, done, moves⟩
  · rw [same]
    exact synced
  · rw [done]
    refine ⟨synced.represents, synced.length, synced.positive, synced.bounded, synced.unused,
      synced.table, synced.accounts.balances moves ?_ ?_⟩
    · intro v
      unfold Delta.only
      split <;> rfl
    · intro v
      unfold Delta.only
      split <;> rfl

end CppPractice.OrderBook
