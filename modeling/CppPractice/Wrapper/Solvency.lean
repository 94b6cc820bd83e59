import CppPractice.Wrapper.Consistency
import CppPractice.Wrapper.Exchange

set_option autoImplicit false

namespace CppPractice.OrderBook

open LimitOrderBook (Accepts)

def Solvent (s : Impl) : Prop :=
  ∀ u ∈ s.users, 0 ≤ u.lockedQuote ∧ u.lockedQuote ≤ u.bal.quote

instance (s : Impl) : Decidable (Solvent s) :=
  inferInstanceAs (Decidable (∀ u ∈ s.users, 0 ≤ u.lockedQuote ∧ u.lockedQuote ≤ u.bal.quote))

/-- A withdrawal that passes the check of `addBalance` and takes out reserved money. -/
def Overdraws (s : Impl) (op : Op) : Prop :=
  ∃ user quoteDelta baseDelta u, op = .addBalance user quoteDelta baseDelta ∧
    s.Deposits user quoteDelta u ∧ u.bal.quote + quoteDelta < u.lockedQuote

def Slack (delta : Nat → Delta) : Prop := ∀ v, (delta v).lockedQuote ≤ (delta v).quote

def Backed (users : List User) : Prop := ∀ u ∈ users, u.lockedQuote ≤ u.bal.quote

theorem Backed.moves {users users' : List User} {delta : Nat → Delta} (backed : Backed users)
    (moves : Moves users users' delta) (slack : Slack delta) : Backed users' := by
  intro u' member
  obtain ⟨v, at_v⟩ := List.mem_iff_getElem?.mp member
  obtain ⟨u, before, rfl⟩ := moves.source at_v
  have covered := backed u (List.mem_of_getElem? before)
  have more := slack v
  rw [plus_lockedQuote, plus_quote]
  linarith

theorem Settles.slack {s s' : Impl} {takerId : Nat} {e : Execution Qty} {maker taker : LiveOrder}
    (settles : Settles s s' takerId e maker taker) : Slack (tradeDelta maker taker e) := by
  obtain ⟨bid, ask, exchange⟩ := settles.exchange
  intro v
  have notional := exchange.nonneg
  have saved := mulMoney_le exchange.limit e.qty
  rw [exchange.quote, exchange.lockedQuote]
  split_ifs <;> linarith

theorem Synced.limit_inRange {s : Impl} (synced : Synced s) {id : Nat} {o : LiveOrder}
    (found : s.orders[id]? = some o) (active : o.active = true) : 10000 ≤ o.limitPrice := by
  obtain ⟨free, queue, rep⟩ := synced.represents
  have rests := rep.resting_iff.mp (synced.resting found active)
  have price := (LimitOrderBook.mem_ordersAt rep rests).2.1
  have price : o.limitPrice = Engine.levelToPrice (Engine.priceToLevel o.limitPrice) := price
  rw [price, Config.levelToPrice]
  exact Int.le_add_of_nonneg_left (Int.natCast_nonneg _)

theorem Synced.order_lock_nonneg {s : Impl} (synced : Synced s) {id : Nat} {o : LiveOrder}
    (found : s.orders[id]? = some o) : 0 ≤ o.lockedQuote := by
  have accurate := synced.accounts.accurate o (List.mem_of_getElem? found)
  cases active : o.active with
  | false => rw [(Accounts.lockedQuote_inactive accurate active).2.1]
  | true =>
    rw [accurate.quote]
    split
    · exact Int.mul_nonneg (le_trans (by decide) (synced.limit_inRange found active))
        (Int.natCast_nonneg _)
    · exact le_refl _

theorem Synced.locked_nonneg {s : Impl} (synced : Synced s) {u : User} (member : u ∈ s.users) :
    0 ≤ u.lockedQuote := by
  obtain ⟨v, at_v⟩ := List.mem_iff_getElem?.mp member
  rw [synced.accounts.quote v u at_v, Tally.tally]
  refine List.sum_nonneg fun amount inside => ?_
  obtain ⟨o, member, rfl⟩ := List.mem_map.mp inside
  obtain ⟨id, found⟩ := List.mem_iff_getElem?.mp member
  unfold LiveOrder.quoteOf
  split
  · exact synced.order_lock_nonneg found
  · exact le_refl _

theorem Synced.backed_iff {s : Impl} (synced : Synced s) : Solvent s ↔ Backed s.users :=
  ⟨fun solvent u member => (solvent u member).2,
    fun backed u member => ⟨synced.locked_nonneg member, backed u member⟩⟩

theorem cancelled_backed {s : Impl} (synced : Synced s) {user id : Nat} {isBid : Bool}
    {o : LiveOrder} (cancels : s.Cancels user id isBid o) (backed : Backed s.users) :
    Backed (s.cancelled user id o).users := by
  refine backed.moves (Moves.modify _ _ (release_eq · o)) fun v => ?_
  have lock := synced.order_lock_nonneg cancels.1
  rw [only_quote, only_lockedQuote]
  unfold Delta.release
  split_ifs <;> simp [lock]

theorem opened_backed {s : Impl} {side : Side} {user : Nat} {price : Price} {qty : Qty}
    (backed : Backed s.users) (admits : s.Admits side user price qty) :
    Backed (s.opened side user price qty).users := by
  obtain ⟨u, found, -, covers⟩ := admits
  intro u' member
  obtain ⟨v, at_v⟩ := List.mem_iff_getElem?.mp member
  obtain ⟨w, before, rfl⟩ := opened_moves.source at_v
  have covered := backed w (List.mem_of_getElem? before)
  rw [plus_lockedQuote, plus_quote, only_lockedQuote, only_quote]
  by_cases mine : v = user
  · subst mine
    obtain rfl : u = w := by simpa [found] using before
    rw [if_pos rfl, if_pos rfl]
    cases side with
    | Buy =>
      simp only [User.covers, Bool.not_eq_true', decide_eq_false_iff_not, not_lt] at covers
      simp only [Delta.lock]
      linarith
    | Sell => simpa [Delta.lock] using covered
  · rw [if_neg mine, if_neg mine]
    linarith

theorem submit_backed {s s' : Impl} (synced : Synced s) {sub : Submission} {reply : Option Nat}
    (submitted : s.submits sub = some (s', reply)) (backed : Backed s.users) :
    Backed s'.users := by
  rcases submit_cases synced submitted with ⟨-, -, rfl⟩ | ⟨admits, room, ⟨-, -, rfl⟩ |
    ⟨-, sameId, -, outcome, after, remaining, -, processed, rfl⟩⟩
  · exact backed
  · exact backed
  · refine acceptOrder_rule synced admits room sameId processed sub.discardUnfilled
      (J := fun _ t => Backed t.users) (P := fun t => Backed t.users)
      (fun _ _ => opened_backed backed admits) ?_ ?_ ?_
    · exact fun _ _ _ _ _ kept settles _ => kept.moves settles.moves settles.slack
    · exact fun _ kept _ _ => kept
    · exact fun _ _ kept syncedT _ cancels => cancelled_backed syncedT cancels kept

theorem newUser_backed {s : Impl} (backed : Backed s.users) (name : String) :
    Backed (s.makeUser name).1.users := by
  unfold Impl.makeUser
  split
  · exact backed
  · intro u member
    rcases List.mem_append.mp member with old | new
    · exact backed u old
    · obtain rfl := List.mem_singleton.mp new
      exact le_refl _

theorem deposit_backed {s : Impl} (backed : Backed s.users) {user : Nat} {quoteDelta : Money}
    {baseDelta : Qty} {u : User} {users : List User} (found : s.users[user]? = some u)
    (moves : Moves s.users users ((Delta.deposit quoteDelta baseDelta).only user)) :
    Backed users ↔ u.lockedQuote ≤ u.bal.quote + quoteDelta := by
  constructor
  · intro kept
    have after := moves user
    rw [found, Option.map_some] at after
    have covered := kept _ (List.mem_of_getElem? after)
    rw [plus_lockedQuote, plus_quote, only_lockedQuote, only_quote, if_pos rfl, if_pos rfl] at covered
    simpa only [Delta.deposit, add_zero] using covered
  · intro enough u' member
    obtain ⟨v, at_v⟩ := List.mem_iff_getElem?.mp member
    obtain ⟨w, before, rfl⟩ := moves.source at_v
    rw [plus_lockedQuote, plus_quote, only_lockedQuote, only_quote]
    by_cases mine : v = user
    · subst mine
      obtain rfl : u = w := by simpa [found] using before
      rw [if_pos rfl, if_pos rfl]
      simpa only [Delta.deposit, add_zero] using enough
    · rw [if_neg mine, if_neg mine, add_zero, add_zero]
      exact backed w (List.mem_of_getElem? before)

theorem addBalance_backed {s : Impl} (backed : Backed s.users) (user : Nat) (quoteDelta : Money)
    (baseDelta : Qty) :
    Backed (s.addBalance user quoteDelta baseDelta).1.users ↔
      ¬Overdraws s (.addBalance user quoteDelta baseDelta) := by
  have overdraws : Overdraws s (.addBalance user quoteDelta baseDelta) ↔
      ∃ u, s.Deposits user quoteDelta u ∧ u.bal.quote + quoteDelta < u.lockedQuote := by
    constructor
    · rintro ⟨_, _, _, u, same, accepted, short⟩
      obtain ⟨rfl, rfl, rfl⟩ := Op.addBalance.inj same
      exact ⟨u, accepted, short⟩
    · rintro ⟨u, accepted, short⟩
      exact ⟨user, quoteDelta, baseDelta, u, rfl, accepted, short⟩
  rw [overdraws]
  rcases addBalance_cases s user quoteDelta baseDelta with ⟨none, same⟩ | ⟨u, users, accepted, done, moves⟩
  · rw [same]
    exact iff_of_true backed fun ⟨u, accepted, _⟩ => none u accepted
  · rw [done, deposit_backed backed accepted.1 moves, ← not_lt, not_iff_not]
    refine ⟨fun short => ⟨u, accepted, short⟩, ?_⟩
    rintro ⟨u', accepted', short⟩
    obtain rfl : u = u' := Option.some.inj (accepted.1.symm.trans accepted'.1)
    exact short

theorem step_solvent {s s' : Impl} (synced : Synced s) (solvent : Solvent s) {op : Op}
    {reply : Reply} (stepped : step s op = some (s', reply)) : Solvent s' ↔ ¬Overdraws s op := by
  rw [(step_synced synced stepped).backed_iff]
  have backed := synced.backed_iff.mp solvent
  have harmless (other : ∀ user quoteDelta baseDelta, op ≠ .addBalance user quoteDelta baseDelta) :
      ¬Overdraws s op := by
    rintro ⟨user, quoteDelta, baseDelta, u, same, -⟩
    exact other _ _ _ same
  rcases step_cases stepped with ⟨name, rfl, rfl, -⟩ |
    ⟨user, quoteDelta, baseDelta, rfl, rfl, -⟩ | ⟨sub, result, submission, submitted, -⟩ |
    ⟨user, id, isBid, rfl, rfl, -⟩ | ⟨same, -, -, other⟩
  · exact iff_of_true (newUser_backed backed name) (harmless (by simp))
  · exact addBalance_backed backed user quoteDelta baseDelta
  · refine iff_of_true (submit_backed synced submitted backed) (harmless ?_)
    rintro user quoteDelta baseDelta rfl
    simp [Op.submission] at submission
  · refine iff_of_true ?_ (harmless (by cases isBid <;> simp))
    exact cancel_rule synced (P := fun t => Backed t.users) backed
      fun _ cancels => cancelled_backed synced cancels backed
  · refine iff_of_true ?_ (harmless other)
    rw [same.users]
    exact backed

theorem solvent_iff (ops : List Op) :
    (∀ front s log, front <+: ops → Runs.run step new front = some (s, log) → Solvent s) ↔
      ∀ front op s log next, front ++ [op] <+: ops → Runs.run step new front = some (s, log) →
        step s op = some next → ¬Overdraws s op :=
  Runs.always_iff (P := fun _ s => Solvent s) (Q := fun s op => ¬Overdraws s op)
    (by decide +kernel)
    fun _ _ _ _ _ _ ran solvent stepped => step_solvent (run_synced ran) solvent stepped

-- A user reserves the whole balance for a bid and then withdraws it.
def overdrawingOps : List Op :=
  [.makeUser "carol", .addBalance 2 1000000 0, .addBid 2 10000 100, .addBalance 2 (-1000000) 0]

theorem not_always_solvent :
    ¬∀ ops s log, Runs.run step new ops = some (s, log) → Solvent s := by
  intro solvent
  have value : (Runs.run step new overdrawingOps).map (fun result => decide (Solvent result.1)) =
      some false := by
    decide +kernel
  obtain ⟨⟨s, log⟩, ran, broken⟩ := Option.map_eq_some_iff.mp value
  exact of_decide_eq_false broken (solvent overdrawingOps s log ran)

end CppPractice.OrderBook
