import CppPractice.Engine.Invariant
import CppPractice.Engine.Reach

set_option autoImplicit false

namespace CppPractice.LimitOrderBook

variable {c : Config}

def iterations (side : Side) (price : Int) (orderId : Int) (fuel : Nat) (m : Matching c) :
    List (Iteration c) :=
  (matchTrace side price orderId fuel m).2

-- The body takes the branch for a best level whose head is `kNil`.
def Iteration.recovers (it : Iteration c) (side : Side) (price : Int) : Prop :=
  side.opposite.beyond (c.levelToPrice it.best) price = false ∧
    (it.state.book.book side.opposite).head it.best = none

-- An index into one of the arrays: `head`, `tail` and `level_qty` by level, `occ` by
-- word, the pool arrays and `next_free_` by node, `id_to_idx_` by order id.
inductive Access where
  | level (i : Nat)
  | word (i : Nat)
  | node (i : Nat)
  | id (i : Nat)

def Access.InBounds (c : Config) : Access → Prop
  | .level i => i < c.kLevels
  | .word i => i < c.kWords
  | .node i => i < c.maxOrders
  | .id i => i < c.maxOrders

-- `find_best_bid` and `find_best_ask`; the scan may stop before the last word.
def scanAccesses (c : Config) : List Access :=
  if c.kLevels ≤ 64 then [.word 0] else (List.range c.kWords).map Access.word

def nodeAccesses (link : Option Nat) : List Access := link.toList.map Access.node

def unlinkAccesses (s : LimitOrderBook c) (side : Side) (level idx : Nat) : List Access :=
  [.node idx, .level level] ++ nodeAccesses (s.prev idx) ++ nodeAccesses (s.next idx) ++
    if ((s.unlinkNode side level idx).book side).levelQty level = 0 then
      .word (Bitset.wordIndex level) :: scanAccesses c
    else []

def freeAccesses (s : LimitOrderBook c) (orderId : Int) : List Access :=
  if !c.validId orderId then []
  else .id orderId.toNat :: nodeAccesses (s.idToIdx orderId.toNat)

def fillAccesses (s : LimitOrderBook c) (maker : Side) (level makerIdx : Nat) (trade : c.Qty) :
    List Access :=
  let s := s.reduceMaker maker level makerIdx trade
  [.level level, .node makerIdx] ++
    if s.orderQty makerIdx = 0 then
      s.unlinkAccesses maker level makerIdx ++
        (s.unlinkOrder maker level makerIdx).freeAccesses (s.orderId makerIdx)
    else []

def Iteration.accesses (it : Iteration c) (side : Side) (price : Int) : List Access :=
  let maker := side.opposite
  let book := it.state.book
  if maker.beyond (c.levelToPrice it.best) price then []
  else
    .level it.best ::
      match (book.book maker).head it.best with
      | none => .word (Bitset.wordIndex it.best) :: scanAccesses c
      | some makerIdx =>
        let makerQty := book.orderQty makerIdx
        book.fillAccesses maker it.best makerIdx
          (if makerQty < it.state.remaining then makerQty else it.state.remaining)

def linkAccesses (s : LimitOrderBook c) (side : Side) (level idx : Nat) : List Access :=
  [.level level, .node idx, .word (Bitset.wordIndex level)] ++
    nodeAccesses ((s.book side).tail level)

def finishAccesses (m : Matching c) (side : Side) (price orderId : Int) : List Access :=
  if m.remaining = 0 || !c.validId orderId then []
  else
    .id orderId.toNat ::
      match m.book.allocOrder orderId with
      | none => []
      | some (book, idx) => .node idx :: book.linkAccesses side (c.priceToLevel price) idx

section

variable {s : LimitOrderBook c} {free : List Nat} {queue : Side → Nat → List Nat}
variable {side : Side} {level i : Nat}

theorem wordIndex_lt (inLevels : level < c.kLevels) : Bitset.wordIndex level < c.kWords := by
  simp only [Bitset.wordIndex, Config.kWords]
  omega

theorem kWords_pos (c : Config) : 0 < c.kWords := by
  have := c.priceMin_lt
  simp only [Config.kWords, Config.kLevels]
  omega

theorem scanAccesses_inBounds : ∀ access ∈ scanAccesses c, access.InBounds c := by
  intro access member
  unfold scanAccesses at member
  split at member
  · obtain rfl := List.mem_singleton.mp member
    exact kWords_pos c
  · obtain ⟨w, inside, rfl⟩ := List.mem_map.mp member
    exact List.mem_range.mp inside

theorem nodeAccesses_inBounds {link : Option Nat} (valid : ∀ j, link = some j → j < c.maxOrders) :
    ∀ access ∈ nodeAccesses link, access.InBounds c := by
  intro access member
  obtain ⟨j, inside, rfl⟩ := List.mem_map.mp member
  exact valid j (Option.mem_toList.mp inside)

theorem unlinkAccesses_inBounds (nodes : Nodes s free queue) (member : i ∈ queue side level) :
    ∀ access ∈ s.unlinkAccesses side level i, access.InBounds c := by
  have placed := nodes.placed _ _ _ member
  have linked := nodes.linked side level
  have neighbour (j : Nat) (inside : j ∈ queue side level) : j < c.maxOrders :=
    (nodes.placed _ _ _ inside).valid
  intro access inside
  simp only [unlinkAccesses, List.mem_append] at inside
  rcases inside with ((own | before) | after) | emptied
  · simp only [List.mem_cons, List.not_mem_nil, or_false] at own
    rcases own with rfl | rfl
    · exact placed.valid
    · exact placed.level_lt
  · exact nodeAccesses_inBounds (fun j at' => neighbour j (linked.prev_mem member at')) access before
  · exact nodeAccesses_inBounds (fun j at' => neighbour j (linked.next_mem member at')) access after
  · split at emptied
    · rcases List.mem_cons.mp emptied with rfl | scanned
      · exact wordIndex_lt placed.level_lt
      · exact scanAccesses_inBounds access scanned
    · simp at emptied

theorem freeAccesses_inBounds {orderId : Int}
    (mapped : ∀ j, s.idToIdx orderId.toNat = some j → j < c.maxOrders) :
    ∀ access ∈ s.freeAccesses orderId, access.InBounds c := by
  intro access inside
  unfold freeAccesses at inside
  split at inside
  · simp at inside
  · rename_i checked
    rcases List.mem_cons.mp inside with rfl | node
    · exact (validId_iff.mp (by simpa using checked)).2
    · exact nodeAccesses_inBounds mapped access node

theorem fillAccesses_inBounds (nodes : Nodes s free queue) (member : i ∈ queue side level)
    (trade : c.Qty) : ∀ access ∈ s.fillAccesses side level i trade, access.InBounds c := by
  have placed := nodes.placed _ _ _ member
  have nodes' := nodes.reduceMaker member trade
  intro access inside
  simp only [fillAccesses, List.mem_append] at inside
  rcases inside with own | consumed
  · simp only [List.mem_cons, List.not_mem_nil, or_false] at own
    rcases own with rfl | rfl
    · exact placed.level_lt
    · exact placed.valid
  · split at consumed
    · rcases List.mem_append.mp consumed with unlinked | freed
      · exact unlinkAccesses_inBounds nodes' member access unlinked
      · refine freeAccesses_inBounds (fun j maps => ?_) access freed
        -- Unlinking leaves the id map alone, and the map names queued nodes.
        rw [unlinkOrder, (dropEmptyLevel_same _ side level).idToIdx] at maps
        obtain ⟨-, other, at', queued⟩ := nodes.mapped _ _ maps
        exact (nodes.placed _ _ _ queued).valid
    · simp at consumed

theorem finishAccesses_inBounds {m : Matching c} (nodes : Nodes m.book free queue) (side : Side)
    {price : Int} (orderId : Int) (inRange : c.inRange price = true) :
    ∀ access ∈ finishAccesses m side price orderId, access.InBounds c := by
  have inLevels := (level_of_price inRange).1
  intro access inside
  unfold finishAccesses at inside
  split at inside
  · simp at inside
  · rename_i checked
    have checked : m.remaining ≠ 0 ∧ c.validId orderId = true := by simpa using checked
    rcases List.mem_cons.mp inside with rfl | later
    · exact (validId_iff.mp checked.2).2
    · cases alloc : m.book.allocOrder orderId with
      | none => simp [alloc] at later
      | some allocated =>
        obtain ⟨book, idx⟩ := allocated
        obtain ⟨rest, free, -⟩ := nodes.alloc_head alloc
        have valid : idx < c.maxOrders := nodes.freeValid idx (by simp [free])
        rw [alloc] at later
        simp only [linkAccesses, List.mem_cons, List.mem_append, List.not_mem_nil, or_false] at later
        rcases later with rfl | (rfl | rfl | rfl) | last
        · exact valid
        · exact inLevels
        · exact valid
        · exact wordIndex_lt inLevels
        · refine nodeAccesses_inBounds (fun j ends => ?_) access last
          obtain ⟨-, -, -, rfl⟩ := allocOrder_eq_some.mp alloc
          have linked := nodes.linked side (c.priceToLevel price)
          rw [show (m.book.book side).tail (c.priceToLevel price) = some j from ends] at linked
          exact (nodes.placed _ _ _ linked.tail_mem).valid

end

-- The iterations of a loop that starts in `m` still to come, a break apart.
def tradesLeft (m : Matching c) (side : Side) (price : Int) : Nat :=
  if m.remaining = 0 then 0 else (m.book.inReach side price).length

section

variable {side : Side} {price : Int} {m : Matching c} {free : List Nat}
variable {queue : Side → Nat → List Nat} {best i : Nat}

-- A trade uses up its maker, which then is out of reach, or the taker.
theorem Trading.tradesLeft_lt (trading : Trading side price m free queue best i) (orderId : Int) :
    tradesLeft (m.trade side orderId best i) side price < tradesLeft m side price ∧
      ∃ free' queue', Represents (m.trade side orderId best i).book free' queue' := by
  have reached := trading.in_reach
  have now : tradesLeft m side price = (m.book.inReach side price).length :=
    if_neg trading.remaining
  by_cases whole : m.book.orderQty i ≤ m.remaining
  · obtain ⟨traded, rep'⟩ := trading.traded_whole orderId whole
    refine ⟨?_, _, _, rep'⟩
    have shorter := Reference.length_reduce_lt reached
    rw [now, tradesLeft, traded.inReach]
    split
    · exact List.length_pos_of_mem reached
    · exact shorter
  · have part : m.remaining < m.book.orderQty i := BitVec.not_le.mp whole
    obtain ⟨traded, rep'⟩ := trading.traded_part orderId part
    refine ⟨?_, _, _, rep'⟩
    rw [now, tradesLeft, Matching.trade_part part, if_pos rfl]
    exact List.length_pos_of_mem reached

structure Entered (it : Iteration c) (side : Side) : Prop where
  represents : ∃ free queue, Represents it.state.book free queue
  remaining : it.state.remaining ≠ 0
  best_eq : it.state.book.best side.opposite = some it.best

theorem loop_turn (rep : Represents m.book free queue) (side : Side) (price orderId : Int) :
    (∃ entries, entries.length ≤ 1 ∧ (∀ it ∈ entries, Entered it side) ∧
        ∀ fuel, matchLoop side price orderId (fuel + 1) m = some m ∧
          iterations side price orderId (fuel + 1) m = entries) ∨
      ∃ best i, Trading side price m free queue best i ∧
        ∀ fuel, matchLoop side price orderId (fuel + 1) m =
            matchLoop side price orderId fuel (m.trade side orderId best i) ∧
          iterations side price orderId (fuel + 1) m =
            ⟨m, best⟩ :: iterations side price orderId fuel (m.trade side orderId best i) := by
  by_cases done : m.remaining = 0
  · exact Or.inl ⟨[], by simp, by simp, fun fuel => by
      simp only [matchLoop, iterations, matchTrace, if_pos done, and_self]⟩
  · cases cached : m.book.best side.opposite with
    | none => exact Or.inl ⟨[], by simp, by simp, fun fuel => by
        simp only [matchLoop, iterations, matchTrace, if_neg done, cached, and_self]⟩
    | some best =>
      cases past : side.opposite.beyond (c.levelToPrice best) price with
      | true =>
        refine Or.inl ⟨[⟨m, best⟩], by simp, ?_, fun fuel => by
          simp only [matchLoop, iterations, matchTrace, if_neg done, cached, past, if_true, and_self]⟩
        intro it member
        obtain rfl := List.mem_singleton.mp member
        exact ⟨⟨free, queue, rep⟩, done, cached⟩
      | false =>
        obtain ⟨i, head, trading⟩ := rep.trading done cached past
        exact Or.inr ⟨best, i, trading, fun fuel => by
          simp only [matchLoop, iterations, matchTrace, if_neg done, cached, past, Bool.false_eq_true, if_false,
            head, and_self]⟩

theorem matchLoop_ends (rep : Represents m.book free queue) (side : Side) (price orderId : Int) :
    ∃ m', (∃ free' queue', Represents m'.book free' queue') ∧
      (∀ fuel, tradesLeft m side price < fuel → matchLoop side price orderId fuel m = some m') ∧
      ∀ fuel other, matchLoop side price orderId fuel m = some other → other = m' := by
  induction left : tradesLeft m side price using Nat.strong_induction_on
    generalizing m free queue with
  | _ bound ih =>
    rcases loop_turn rep side price orderId with ⟨entries, -, -, stops⟩ | ⟨best, i, trading, turns⟩
    · refine ⟨m, ⟨free, queue, rep⟩, fun fuel enough => ?_, fun fuel other ended => ?_⟩
      · cases fuel with
        | zero => omega
        | succ fuel => exact (stops fuel).1
      · cases fuel with
        | zero => exact absurd ended (by simp [matchLoop, matchTrace])
        | succ fuel => exact (Option.some.inj ((stops fuel).1.symm.trans ended)).symm
    · obtain ⟨fewer, free', queue', rep'⟩ := trading.tradesLeft_lt orderId
      obtain ⟨m', rep'', ends, same⟩ := ih _ (left ▸ fewer) rep' rfl
      refine ⟨m', rep'', fun fuel enough => ?_, fun fuel other ended => ?_⟩
      · cases fuel with
        | zero => omega
        | succ fuel =>
          rw [(turns fuel).1]
          exact ends fuel (by omega)
      · cases fuel with
        | zero => exact absurd ended (by simp [matchLoop, matchTrace])
        | succ fuel => exact same fuel other ((turns fuel).1.symm.trans ended)

theorem iterations_bounded (rep : Represents m.book free queue) (side : Side)
    (price orderId : Int) (fuel : Nat) :
    (iterations side price orderId fuel m).length ≤ tradesLeft m side price + 1 ∧
      ∀ it ∈ iterations side price orderId fuel m, Entered it side := by
  induction fuel generalizing m free queue with
  | zero => simp [iterations, matchTrace]
  | succ fuel ih =>
    rcases loop_turn rep side price orderId with
      ⟨entries, short, entered, stops⟩ | ⟨best, i, trading, turns⟩
    · rw [(stops fuel).2]
      exact ⟨by omega, entered⟩
    · obtain ⟨fewer, free', queue', rep'⟩ := trading.tradesLeft_lt orderId
      obtain ⟨short, entered⟩ := ih rep'
      rw [(turns fuel).2]
      refine ⟨by rw [List.length_cons]; omega, fun it member => ?_⟩
      rcases List.mem_cons.mp member with rfl | later
      · exact ⟨⟨free, queue, rep⟩, trading.remaining, trading.best_eq⟩
      · exact entered it later

theorem Entered.never_recovers {it : Iteration c} (entered : Entered it side) (price : Int) :
    ¬it.recovers side price := by
  rintro ⟨within, empty⟩
  obtain ⟨free, queue, rep⟩ := entered.represents
  obtain ⟨i, head, -⟩ := rep.trading entered.remaining entered.best_eq within
  rw [head] at empty
  exact absurd empty (by simp)

theorem Entered.accesses_inBounds {it : Iteration c} (entered : Entered it side) (price : Int) :
    ∀ access ∈ it.accesses side price, access.InBounds c := by
  obtain ⟨free, queue, rep⟩ := entered.represents
  intro access member
  unfold Iteration.accesses at member
  dsimp only at member
  split at member
  · simp at member
  · rename_i within
    obtain ⟨i, head, trading⟩ :=
      rep.trading entered.remaining entered.best_eq (by simpa using within)
    have placed := rep.nodes.placed _ _ _ trading.mem
    rw [head] at member
    rcases List.mem_cons.mp member with rfl | filled
    · exact placed.level_lt
    · exact fillAccesses_inBounds rep.nodes trading.mem _ access filled

end

/--
Whatever calls came before, the loop of the next `process_order` makes at most one
iteration more than there are opposite orders in reach, never takes the branch for an
empty best level, and stays inside its arrays.
-/
theorem matchLoop_bounded (start : LimitOrderBook c) (calls : List (Call c)) :
    ∃ s log, Runs.run step start.reset calls = some (s, log) ∧
      ∀ side price (qty : c.Qty) orderId,
        let bound := (s.inReach side price).length + 1
        (∃ m, (∀ fuel, bound ≤ fuel → matchLoop side price orderId fuel ⟨s, qty, []⟩ = some m) ∧
          (Accepts c price qty orderId →
            s.processOrder side price qty orderId = some (finish m side price orderId) ∧
            ∀ access ∈ finishAccesses m side price orderId, access.InBounds c)) ∧
        ∀ fuel, (iterations side price orderId fuel ⟨s, qty, []⟩).length ≤ bound ∧
          ∀ it ∈ iterations side price orderId fuel ⟨s, qty, []⟩,
            ¬it.recovers side price ∧ ∀ access ∈ it.accesses side price, access.InBounds c := by
  obtain ⟨s, log, ran, free, queue, rep⟩ := run_represents start calls
  refine ⟨s, log, ran, fun side price qty orderId => ?_⟩
  have few : tradesLeft ⟨s, qty, []⟩ side price ≤ (s.inReach side price).length := by
    unfold tradesLeft
    split <;> simp
  constructor
  · obtain ⟨m, ⟨free', queue', rep'⟩, ends, same⟩ :=
      matchLoop_ends (m := ⟨s, qty, []⟩) rep side price orderId
    refine ⟨m, fun fuel enough => ends fuel (by omega), fun accepts => ⟨?_, ?_⟩⟩
    · obtain ⟨outcome, processed, -⟩ := processOrder_represents rep side price qty orderId
      rw [processOrder_accepts accepts] at processed ⊢
      obtain ⟨other, ended, -⟩ := Option.map_eq_some_iff.mp processed
      rw [ended, same _ _ ended]
      rfl
    · exact finishAccesses_inBounds rep'.nodes side orderId accepts.2.1
  · intro fuel
    obtain ⟨short, entered⟩ := iterations_bounded (m := ⟨s, qty, []⟩) rep side price orderId fuel
    refine ⟨by omega, fun it member => ?_⟩
    exact ⟨(entered it member).never_recovers price, (entered it member).accesses_inBounds price⟩

end CppPractice.LimitOrderBook
