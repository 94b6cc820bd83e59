import CppPractice.Wrapper.Terminal

set_option autoImplicit false

namespace CppPractice.OrderBook

open Reference (better)

section

variable {σ τ : Type}

structure SameView (a : Book σ) (b : Book τ) (s : σ) (t : τ) : Prop where
  quote : a.getQuote s = b.getQuote t
  bids : a.getDepthBids s 10 = b.getDepthBids t 10
  asks : a.getDepthAsks s 10 = b.getDepthAsks t 10
  balance : a.getBalance s = b.getBalance t

def Ui.onto (ui : Ui τ) (s : σ) : Ui σ := ⟨s, ui.currentUser, ui.hasUser⟩

def Session.onto (session : Session τ) (s : σ) : Session σ :=
  ⟨session.calls, session.shown, session.ending, session.ui.onto s⟩

/-- The book `a` shows what `b` shows and answers as `b` does, as long as `R` lasts. -/
structure Simulates (a : Book σ) (b : Book τ) (R : List Op → σ → τ → Prop) : Prop where
  view : ∀ {ops s t}, R ops s t → SameView a b s t
  step : ∀ {op ops s t t' reply}, R (op :: ops) s t → b.step t op = some (t', reply) →
    ∃ s', a.step s op = some (s', reply) ∧ R ops s' t'
  total : ∀ t op, (b.step t op).isSome = true

namespace Simulates

variable {a : Book σ} {b : Book τ} {R : List Op → σ → τ → Prop} {s : σ} {ui ui' : Ui τ}
  {ops : List Op} {calls : List (Op × Reply)}

theorem market (sim : Simulates a b R) {t : τ} (related : R ops s t) : a.market s = b.market t := by
  have same := sim.view related
  rw [Book.market, Book.market, same.asks, same.bids, same.quote]

theorem perform_none (sim : Simulates a b R) (related : R ops s ui.book) {choice : Choice}
    {request : Request} (failed : ui.perform b choice request = none) :
    (ui.onto s).perform a choice request = none := by
  cases request with
  | call op =>
    obtain ⟨_, answered⟩ := Option.isSome_iff_exists.mp (sim.total ui.book op)
    rw [Ui.perform, answered] at failed
    cases failed
  | showMarket =>
    rw [Ui.perform, Option.map_eq_none_iff] at failed ⊢
    exact (sim.market related).trans failed
  | showBalance => cases failed

theorem perform_some (sim : Simulates a b R) {choice : Choice} {request : Request} {shown : String}
    (related : R (calls.map Prod.fst ++ ops) s ui.book)
    (performed : ui.perform b choice request = some (ui', calls, shown)) :
    ∃ s', (ui.onto s).perform a choice request = some (ui'.onto s', calls, shown) ∧
      R ops s' ui'.book := by
  cases request with
  | call op =>
    obtain ⟨⟨t, reply⟩, answered, made⟩ := Option.map_eq_some_iff.mp performed
    cases made
    obtain ⟨s', follows, next⟩ := sim.step related answered
    refine ⟨s', ?_, by cases reply <;> exact next⟩
    rw [Ui.perform, Ui.onto, follows]
    cases reply <;> rfl
  | showMarket =>
    obtain ⟨text, shows, made⟩ := Option.map_eq_some_iff.mp performed
    cases made
    refine ⟨s, ?_, related⟩
    rw [Ui.perform, Ui.onto, sim.market related, shows]
    rfl
  | showBalance =>
    cases performed
    refine ⟨s, ?_, related⟩
    rw [Ui.perform, Ui.onto, (sim.view related).balance]

theorem turn_stop (sim : Simulates a b R) (related : R ops s ui.book) {input : List Char}
    {ending : Ending} (turned : ui.turn b input = .stop ending) :
    (ui.onto s).turn a input = .stop ending := by
  cases planned : plan ui.currentUser ui.hasUser input with
  | bye | asksForever =>
    simp only [Ui.turn, Ui.onto, planned] at turned ⊢
    cases turned
    rfl
  | skip _ _ => simp only [Ui.turn, planned, reduceCtorEq] at turned
  | ask choice request rest =>
    simp only [Ui.turn, planned] at turned
    split at turned
    · rename_i failed
      cases turned
      have failed' := sim.perform_none related failed
      simp only [Ui.turn, Ui.onto, planned] at failed' ⊢
      rw [failed']
    · cases turned

theorem turn_next (sim : Simulates a b R) {input rest : List Char} {shown : List String}
    (related : R (calls.map Prod.fst ++ ops) s ui.book)
    (turned : ui.turn b input = .next ui' calls shown rest) :
    ∃ s', (ui.onto s).turn a input = .next (ui'.onto s') calls shown rest ∧
      R ops s' ui'.book := by
  cases planned : plan ui.currentUser ui.hasUser input with
  | bye | asksForever => simp only [Ui.turn, planned, reduceCtorEq] at turned
  | skip _ _ =>
    simp only [Ui.turn, planned] at turned
    cases turned
    refine ⟨s, ?_, related⟩
    simp only [Ui.turn, Ui.onto, planned]
  | ask choice request _ =>
    simp only [Ui.turn, planned] at turned
    split at turned
    · cases turned
    · rename_i performed
      cases turned
      obtain ⟨s', follows, next⟩ := sim.perform_some related performed
      refine ⟨s', ?_, next⟩
      simp only [Ui.turn, Ui.onto, planned] at follows ⊢
      rw [follows]

theorem session (sim : Simulates a b R) (ui : Ui τ) (input : List Char)
    (related : R (uiLoop b ui input).ops s ui.book) :
    ∃ s', uiLoop a (ui.onto s) input = (uiLoop b ui input).onto s' ∧
      R [] s' (uiLoop b ui input).ui.book := by
  fun_induction uiLoop b ui input generalizing s with
  | case1 ui input ending turned =>
    exact ⟨s, uiLoop_stop a (sim.turn_stop related turned), related⟩
  | case2 ui input ui' calls shown rest turned ih =>
    rw [Session.ops, Session.after, List.map_append] at related
    obtain ⟨s₁, turned', next⟩ := sim.turn_next related turned
    obtain ⟨s', looped, last⟩ := ih next
    refine ⟨s', ?_, last⟩
    rw [uiLoop_next a turned', looped]
    rfl

end Simulates

end

def prices (side : Side) : List Price :=
  let upwards := (List.range Engine.kLevels).map Engine.levelToPrice
  match side with
  | .Buy => upwards.reverse
  | .Sell => upwards

namespace Market

variable (m : Market)

def levels (side : Side) : List DepthLevel :=
  (prices side).filterMap fun price =>
    let units := Reference.total m.book side price
    if units = 0 then none else some ⟨price, BitVec.ofNat 32 units⟩

def best (side : Side) : Option QuoteLevel :=
  (m.levels side).head?.map fun l => ⟨l.price, l.qty⟩

def getBalance (user : Nat) : Balance :=
  match m.accounts[user]? with
  | none => {}
  | some a => ⟨a.quote, a.base⟩

end Market

def exchange : Book Market where
  step m op := some (m.step op)
  getQuote m := ⟨m.best .Buy, m.best .Sell⟩
  getDepthBids m maxLevels := some ((m.levels .Buy).take maxLevels)
  getDepthAsks m maxLevels := some ((m.levels .Sell).take maxLevels)
  getBalance := Market.getBalance

theorem mem_prices {side : Side} {price : Price} :
    price ∈ prices side ↔ Engine.inRange price = true := by
  have upwards : price ∈ (List.range Engine.kLevels).map Engine.levelToPrice ↔
      Engine.inRange price = true := by
    rw [List.mem_map]
    constructor
    · rintro ⟨level, inside, rfl⟩
      exact LimitOrderBook.inRange_levelToPrice (List.mem_range.mp inside)
    · intro inRange
      obtain ⟨inside, same⟩ := LimitOrderBook.level_of_price inRange
      exact ⟨_, List.mem_range.mpr inside, same⟩
  cases side with
  | Buy => rw [prices, List.mem_reverse, upwards]
  | Sell => exact upwards

theorem prices_ordered (side : Side) :
    (prices side).Pairwise fun p q => better side p q = true := by
  have upwards : ((List.range Engine.kLevels).map Engine.levelToPrice).Pairwise (· < ·) := by
    rw [List.pairwise_map]
    refine List.pairwise_lt_range.imp fun before => ?_
    rw [Config.levelToPrice, Config.levelToPrice]
    omega
  cases side with
  | Buy =>
    rw [prices, List.pairwise_reverse]
    exact upwards.imp fun before => decide_eq_true before
  | Sell => exact upwards.imp fun before => decide_eq_true before

theorem mem_market_levels {m : Market} {side : Side} {l : DepthLevel} :
    l ∈ m.levels side ↔ Engine.inRange l.price = true ∧
      Reference.total m.book side l.price ≠ 0 ∧
      l.qty = BitVec.ofNat 32 (Reference.total m.book side l.price) := by
  rw [Market.levels, List.mem_filterMap]
  constructor
  · rintro ⟨price, inside, shown⟩
    dsimp only at shown
    split_ifs at shown with none
    cases shown
    exact ⟨mem_prices.mp inside, none, rfl⟩
  · rintro ⟨inside, some, units⟩
    refine ⟨l.price, mem_prices.mpr inside, ?_⟩
    dsimp only
    rw [if_neg some, ← units]

theorem market_levels_ordered (m : Market) (side : Side) :
    (m.levels side).Pairwise fun a b => better side a.price b.price = true := by
  rw [Market.levels, List.pairwise_filterMap]
  refine (prices_ordered side).imp fun {p q} before a shown b shown' => ?_
  dsimp only at shown shown'
  split_ifs at shown shown'
  cases shown
  cases shown'
  exact before

section

variable {s : Impl} {m : Market}

theorem Follows.total (follows : Follows s m) (side : Side) (price : Price) :
    (s.engine.levelQuantity side price).toNat = Reference.total m.book side price :=
  follows.mirrors.book.level_quantity follows.tidy side price

theorem Follows.levels (follows : Follows s m) (side : Side) : s.levels side = m.levels side := by
  refine Lists.eq_of_ordered (fun a b before => ?_)
    (levels_depth follows.synced follows.tidy side).sorted (market_levels_ordered m side) ?_
  · cases side <;> simp only [better, decide_eq_true_eq] at before ⊢ <;> omega
  · intro l
    rw [mem_levels follows.tidy, mem_market_levels, ← follows.total, BitVec.ofNat_toNat,
      BitVec.setWidth_eq]
    constructor
    · rintro ⟨units, some⟩
      rw [units] at some
      exact ⟨LimitOrderBook.inRange_of_levelQuantity some, LimitOrderBook.toNat_ne_zero some, units⟩
    · rintro ⟨-, some, units⟩
      refine ⟨units, fun none => some ?_⟩
      rw [← units, none]
      rfl

theorem Follows.best (follows : Follows s m) (side : Side) : s.quoteLevel side = m.best side := by
  rw [quoteLevel_eq follows.tidy, follows.levels, Market.best]

theorem Follows.depth (follows : Follows s m) (bids : Bool) :
    s.getDepth bids 10 = some ((m.levels (if bids then .Buy else .Sell)).take 10) := by
  rw [getDepth_eq follows.tidy, if_neg (by decide), follows.levels]

theorem Follows.getBalance (follows : Follows s m) (user : Nat) :
    s.getBalance user = m.getBalance user := by
  rw [Impl.getBalance, Market.getBalance, follows.mirrors.accounts, List.getElem?_map]
  cases s.users[user]? <;> rfl

theorem Follows.view (follows : Follows s m) : SameView orderBook exchange s m where
  quote := congrArg₂ Quote.mk (follows.best .Buy) (follows.best .Sell)
  bids := follows.depth true
  asks := follows.depth false
  balance := funext follows.getBalance

structure Keeps (ops : List Op) (s : Impl) (m : Market) : Prop where
  follows : Follows s m
  noWrap : m.NoWrap ops
  defined : (Runs.run step s ops).isSome = true

theorem Keeps.step {op : Op} {ops : List Op} {m' : Market} {reply : Reply}
    (keeps : Keeps (op :: ops) s m) (answered : m.step op = (m', reply)) :
    ∃ s', step s op = some (s', reply) ∧ Keeps ops s' m' := by
  obtain ⟨final, ran⟩ := Option.isSome_iff_exists.mp keeps.defined
  obtain ⟨⟨s', reply'⟩, stepped, later⟩ := Option.bind_eq_some_iff.mp ran
  obtain ⟨m₁, answered', mirrors, next⟩ := keeps.follows.step stepped
  obtain ⟨rfl, rfl⟩ := Prod.mk.inj (answered'.symm.trans answered)
  have noWrap : m₁.NoWrap ops := by
    intro front last log isPrefix ran'
    have longer : m.run (op :: front) = some (last, (op, reply') :: log) := by
      rw [Market.run, Runs.run, answered', Option.bind_some]
      exact Option.map_eq_some_iff.mpr ⟨(last, log), ran', rfl⟩
    exact keeps.noWrap (op :: front) last _ ((List.prefix_cons_inj op).mpr isPrefix) longer
  refine ⟨s', stepped, next fun side level => ?_, noWrap, ?_⟩
  · rw [mirrors.restingQty]
    exact noWrap [] m₁ [] List.nil_prefix rfl side _
  · obtain ⟨_, late, -⟩ := Option.map_eq_some_iff.mp later
    rw [late]
    rfl

theorem terminal_simulates : Simulates orderBook exchange Keeps where
  view keeps := keeps.follows.view
  step keeps answered := keeps.step (Option.some.inj answered)
  total _ _ := rfl

theorem uiBook_follows : Follows uiBook Market.opening := by
  have stepped : step new (.setTradeLogEnabled false) = some (uiBook, .unit) := rfl
  obtain ⟨m, answered, -, next⟩ := opening_follows.step stepped
  obtain ⟨rfl, -⟩ := Prod.mk.inj (answered.symm.trans rfl)
  exact next opening_follows.tidy.small

end

theorem exchange_ending (ui : Ui Market) (input : List Char) :
    (uiLoop exchange ui input).ending ≠ .throws := by
  fun_induction uiLoop exchange ui input with
  | case1 ui input ending turned =>
    cases planned : plan ui.currentUser ui.hasUser input with
    | bye | asksForever =>
      simp only [Ui.turn, planned] at turned
      cases turned
      nofun
    | skip _ _ => simp only [Ui.turn, planned, reduceCtorEq] at turned
    | ask choice request rest =>
      simp only [Ui.turn, planned] at turned
      cases request <;> cases turned
  | case2 ui input ui' calls shown rest turned ih => exact ih

/--
Whatever is typed, the terminal over the order book shows what it would show over the plain
exchange, as long as the session's calls leave fewer than `2 ^ 32` units open at each price: the
calls are the same, with the same replies, and so are the market, the balances and the end.
-/
theorem terminal_shows_market (input : List Char)
    (few : submissions (runUi exchange .opening input).ops < 2 ^ 31)
    (noWrap : Market.opening.NoWrap (runUi exchange .opening input).ops) :
    ∃ s, runUi orderBook uiBook input = (runUi exchange .opening input).onto s ∧
      (runUi orderBook uiBook input).ending ≠ .throws ∧
      Mirrors s (runUi exchange .opening input).ui.book := by
  have defined : (Runs.run step uiBook (runUi exchange .opening input).ops).isSome = true := by
    obtain ⟨s, log, ran, -⟩ := run_defined
      (show submissions (.setTradeLogEnabled false :: (runUi exchange .opening input).ops) < 2 ^ 31
        from few)
    obtain ⟨_, late, -⟩ := Option.map_eq_some_iff.mp ran
    exact Option.isSome_iff_exists.mpr ⟨_, late⟩
  obtain ⟨s, ran, keeps⟩ := terminal_simulates.session { book := Market.opening } input
    ⟨uiBook_follows, noWrap, defined⟩
  refine ⟨s, ran, ?_, keeps.follows.mirrors⟩
  have ended := congrArg Session.ending ran
  exact ended ▸ exchange_ending _ input

def visit : List Char := "3 1 carol 2 100000 5 4 15050 3 x\n7".toList

theorem terminal_shows_market_visit :
    ∃ s, runUi orderBook uiBook visit = (runUi exchange .opening visit).onto s ∧
      (runUi orderBook uiBook visit).ending ≠ .throws ∧
      Mirrors s (runUi exchange .opening visit).ui.book := by
  have ops : (runUi exchange .opening visit).ops =
      [.makeUser "carol", .addBalance 2 100000 5, .addBid 2 15050 3] := by decide +kernel
  refine terminal_shows_market visit ?_ ?_
  · rw [ops]
    decide
  · rw [ops]
    exact market_noWrap opening_follows (noWrap_of_total new_synced (by decide +kernel))
      (by decide +kernel)

end CppPractice.OrderBook
