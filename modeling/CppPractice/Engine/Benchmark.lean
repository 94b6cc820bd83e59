import CppPractice.Engine.Rejections
import CppPractice.Engine.Submission
import CppPractice.Engine.Volume

set_option autoImplicit false

namespace CppPractice

def splitmix64 (x : UInt64) : UInt64 × UInt64 :=
  let x := x + 0x9e3779b97f4a7c15
  let z := x
  let z := (z ^^^ (z >>> 30)) * 0xbf58476d1ce4e5b9
  let z := (z ^^^ (z >>> 27)) * 0x94d049bb133111eb
  (x, z ^^^ (z >>> 31))

theorem drawn_lt (r m : UInt64) (positive : 0 < m.toNat) : (r % m).toNat < m.toNat := by
  rw [UInt64.toNat_mod]
  exact Nat.mod_lt _ positive

namespace LimitOrderBook

variable {c : Config}

def Call.enters : Call c → Option Int
  | .processOrder _ _ _ orderId => some orderId
  | _ => none

section

variable {s s' : LimitOrderBook c} {free : List Nat} {queue : Side → Nat → List Nat}

theorem finish_resting {m : Matching c} (rep : Represents m.book free queue) {side : Side}
    {price orderId : Int} (valid : c.validId orderId = true) {id : Nat}
    (rests : (finish m side price orderId).book.resting id ≠ none) :
    m.book.resting id ≠ none ∨ some orderId = some (id : Int) := by
  by_cases done : m.remaining = 0
  · rw [finish_done done] at rests
    exact .inl rests
  · cases alloc : m.book.allocOrder orderId with
    | none =>
      rw [finish_refused done alloc] at rests
      exact .inl rests
    | some allocated =>
      obtain ⟨book, i⟩ := allocated
      rw [finish_rested done alloc, rested_resting rep.nodes alloc] at rests
      by_cases here : id = orderId.toNat
      · have positive := (validId_iff.mp valid).1
        exact .inr (congrArg some (by omega))
      · rw [Function.update_of_ne here] at rests
        exact .inl rests

theorem step_enters (rep : Represents s free queue) {call : Call c} {reply : Reply c.Qty}
    (stepped : step s call = some (s', reply)) {id : Nat} (rests : s'.resting id ≠ none) :
    s.resting id ≠ none ∨ call.enters = some (id : Int) := by
  cases call with
  | processOrder side price qty orderId =>
    obtain ⟨outcome, processed, same⟩ := Option.map_eq_some_iff.mp stepped
    obtain ⟨rfl, -⟩ := Prod.mk.inj same
    by_cases accepts : Accepts c price qty orderId
    · obtain ⟨m, free', queue', finished, rep', older, -⟩ :=
        processOrder_trades rep side accepts
          (I := fun m => ∀ id, m.book.resting id ≠ none → s.resting id ≠ none)
          (fun _ kept => kept) (by
            intro m free' queue' best i traded m' free'' queue'' trading trade _ older id rests
            obtain ⟨maker, fill, resting⟩ := trade.fill trading
            rw [resting] at rests
            by_cases here : id = (m.book.orderId i).toNat
            · have rested : m.book.resting id = some maker := here ▸ fill.rests
              exact older id (by rw [rested]; exact Option.some_ne_none maker)
            · rw [Function.update_of_ne here] at rests
              exact older id rests)
      obtain rfl := Option.some.inj (processed.symm.trans finished)
      exact (finish_resting rep' accepts.2.2 rests).imp_left (older id)
    · rw [processOrder_rejects accepts] at processed
      obtain rfl := Option.some.inj processed
      exact .inl rests
  | cancel orderId =>
    obtain ⟨rfl, -⟩ := Prod.mk.inj (Option.some.inj stepped)
    rcases cancel_resting rep orderId with ⟨same, -⟩ | ⟨-, -, -, fewer⟩
    · rw [same] at rests
      exact .inl rests
    · rw [fewer, Function.update_apply] at rests
      split at rests
      · exact absurd rfl rests
      · exact .inl rests
  | reset =>
    obtain ⟨rfl, -⟩ := Prod.mk.inj (Option.some.inj stepped)
    exact absurd (reset_resting s id) rests

end

theorem run_enters {start s : LimitOrderBook c} {calls : List (Call c)}
    {log : List (Call c × Reply c.Qty)}
    (ran : Runs.run step start.reset calls = some (s, log)) {id : Nat}
    (rests : s.resting id ≠ none) : ∃ entry ∈ log, entry.1.enters = some (id : Int) := by
  have entered := Runs.run_induction
    (P := fun log s => ∀ id : Nat, s.resting id ≠ none →
      ∃ entry ∈ log, Call.enters entry.1 = some (id : Int)) ?_ ?_ ran
  · exact entered id rests
  · exact fun id rests => absurd (reset_resting start id) rests
  · intro front s log call s' reply early entered stepped id rests
    obtain ⟨middle, log', ran', free, queue, rep⟩ := run_represents start front
    obtain ⟨rfl, rfl⟩ := Prod.mk.inj (Option.some.inj (early.symm.trans ran'))
    rcases step_enters rep stepped rests with before | now
    · obtain ⟨entry, member, enters⟩ := entered id before
      exact ⟨entry, List.mem_append_left _ member, enters⟩
    · exact ⟨(call, reply), by simp, now⟩

theorem unused_fresh {start before : LimitOrderBook c} {calls : List (Call c)}
    {log : List (Call c × Reply c.Qty)} {orderId : Int}
    (ran : Runs.run step start.reset calls = some (before, log))
    (valid : c.validId orderId = true) (unused : ∀ entry ∈ log, entry.1.enters ≠ some orderId) :
    before.resting orderId.toNat = none := by
  by_contra rests
  obtain ⟨entry, member, enters⟩ := run_enters ran rests
  rw [Int.toNat_of_nonneg (validId_iff.mp valid).1] at enters
  exact unused entry member enters

theorem fresh_accepted {start before after : LimitOrderBook c} {calls : List (Call c)}
    {log : List (Call c × Reply c.Qty)} {side : Side} {price orderId : Int} {qty : c.Qty}
    {reply : Reply c.Qty} (ran : Runs.run step start.reset calls = some (before, log))
    (accepts : Accepts c price qty orderId) (fresh : before.resting orderId.toNat = none)
    (stepped : step before (.processOrder side price qty orderId) = some (after, reply)) :
    reply.ok = true := by
  obtain ⟨middle, log', ran', free, queue, rep⟩ := run_represents start calls
  obtain ⟨rfl, -⟩ := Prod.mk.inj (Option.some.inj (ran.symm.trans ran'))
  obtain ⟨outcome, resting, remaining, processed, done⟩ :=
    processOrder_processed rep side accepts fresh
  rw [step, processed] at stepped
  obtain ⟨-, rfl⟩ := Prod.mk.inj (Option.some.inj stepped)
  exact done.ok

theorem unused_id_accepted {start s : LimitOrderBook c} {calls : List (Call c)}
    {front back : List (Call c × Reply c.Qty)} {side : Side} {price orderId : Int} {qty : c.Qty}
    {reply : Reply c.Qty} (ran : Runs.run step start.reset calls =
      some (s, front ++ (.processOrder side price qty orderId, reply) :: back))
    (accepts : Accepts c price qty orderId)
    (unused : ∀ entry ∈ front, entry.1.enters ≠ some orderId) : reply.ok = true := by
  obtain ⟨before, after, early, stepped, -⟩ := Runs.run_entry ran
  exact fresh_accepted early accepts (unused_fresh early accepts.2.2 unused) stepped

theorem unused_id_accepted_crossingCalls : ∃ s front reply,
    Runs.run step (LimitOrderBook.new fourByFour).reset
      ([.cancel 2, .processOrder .Sell 102 5 0] ++ [.processOrder .Buy 102 8 2]) =
        some (s, front ++ [(.processOrder .Buy 102 8 2, reply)]) ∧ reply.ok = true := by
  obtain ⟨s, log, ran, -⟩ := run_represents (LimitOrderBook.new fourByFour)
    ([.cancel 2, .processOrder .Sell 102 5 0] ++ [.processOrder .Buy 102 8 2])
  obtain ⟨before, front, reply, early, stepped, rfl⟩ := Runs.run_snoc_iff.mp ran
  refine ⟨s, front, reply, ran, unused_id_accepted ran ⟨by decide, by decide, by decide⟩
    fun entry member => ?_⟩
  have called : entry.1 ∈ front.map Prod.fst := List.mem_map_of_mem member
  rw [Runs.run_inputs early] at called
  revert called
  generalize entry.1 = call
  simp only [List.mem_cons, List.not_mem_nil, or_false]
  rintro (rfl | rfl) <;> decide

-- `using Book = LimitOrderBook<std::uint32_t, 100, 200, 200000>`
abbrev bookConfig : Config := ⟨32, 100, 200, 200000, by decide, by decide, by decide⟩

def drawnOrder (i : Nat) (r1 r2 r3 : UInt64) : Call bookConfig :=
  let price_span : UInt64 := 200 - 100 + 1
  let buy := r1 &&& 1 ≠ 0
  let price : Int := 100 + (r2 % price_span).toNat
  let qty := 1 + BitVec.ofNat 32 (r3 % 10).toNat
  .processOrder (if buy then .Buy else .Sell) price qty i

def benchOrder (i : Nat) (x : UInt64) : Call bookConfig × UInt64 :=
  let (x, r1) := splitmix64 x
  let (x, r2) := splitmix64 x
  let (x, r3) := splitmix64 x
  (drawnOrder i r1 r2 r3, x)

-- The loop at `i` with `left` orders to go; it breaks off at an order that is refused.
def benchLoop : (left i : Nat) → LimitOrderBook bookConfig → UInt64 →
    Option (LimitOrderBook bookConfig × Nat)
  | 0, i, book, _ => some (book, i)
  | left + 1, i, book, x =>
    let (order, x) := benchOrder i x
    (step book order).bind fun (book, reply) =>
      if reply.ok then benchLoop left (i + 1) book x else some (book, i)

def runBench (orders : Nat) (seed : UInt64) : Option (LimitOrderBook bookConfig × Nat) :=
  benchLoop (if orders > 200000 then 200000 else orders) 0 (LimitOrderBook.new bookConfig).reset seed

def benchCalls : (left i : Nat) → UInt64 → List (Call bookConfig)
  | 0, _, _ => []
  | left + 1, i, x => (benchOrder i x).1 :: benchCalls left (i + 1) (benchOrder i x).2

theorem qty_toNat {n : Nat} (few : n < 10) : ((1 : BitVec 32) + BitVec.ofNat 32 n).toNat = n + 1 := by
  rw [BitVec.toNat_add, BitVec.toNat_ofNat]
  simp
  omega

theorem drawnOrder_accepts {i : Nat} (few : i < 200000) (r1 r2 r3 : UInt64) :
    ∃ side price qty, drawnOrder i r1 r2 r3 = .processOrder side price qty i ∧
      Accepts bookConfig price qty i ∧ qty.toNat ≤ 10 := by
  have price_lt : (r2 % (200 - 100 + 1)).toNat < 101 := drawn_lt r2 (200 - 100 + 1) (by decide)
  have qty_lt : (r3 % 10).toNat < 10 := drawn_lt r3 10 (by decide)
  have qty := qty_toNat qty_lt
  refine ⟨_, _, _, rfl, ⟨fun zero => ?_, inRange_iff.mpr ⟨?_, ?_⟩, ?_⟩, ?_⟩
  · rw [zero] at qty
    exact Nat.succ_ne_zero _ qty.symm
  · show (100 : Int) ≤ _
    omega
  · show _ ≤ (200 : Int)
    omega
  · exact validId_iff.mpr ⟨Int.natCast_nonneg i, by simpa using few⟩
  · rw [qty]
    exact qty_lt

theorem benchOrder_accepts {i : Nat} (few : i < 200000) (x : UInt64) :
    ∃ side price qty, (benchOrder i x).1 = .processOrder side price qty i ∧
      Accepts bookConfig price qty i ∧ qty.toNat ≤ 10 :=
  drawnOrder_accepts few _ _ _

theorem benchLoop_runs {start : LimitOrderBook bookConfig} (left : Nat) {i : Nat}
    (few : i + left ≤ 200000) {calls : List (Call bookConfig)} {book : LimitOrderBook bookConfig}
    {log : List (Call bookConfig × Reply bookConfig.Qty)} (x : UInt64)
    (ran : Runs.run step start.reset calls = some (book, log))
    (used : ∀ entry ∈ log, ∃ j < i, entry.1.enters = some (j : Int)) :
    ∃ s log', benchLoop left i book x = some (s, i + left) ∧
      Runs.run step start.reset (calls ++ benchCalls left i x) = some (s, log') := by
  induction left generalizing i calls book log x with
  | zero => exact ⟨book, log, rfl, by rwa [benchCalls, List.append_nil]⟩
  | succ left ih =>
    obtain ⟨side, price, qty, order, accepts, -⟩ := benchOrder_accepts (i := i) (by omega) x
    obtain ⟨middle, log', ran', free, queue, rep⟩ := run_represents start calls
    obtain ⟨rfl, rfl⟩ := Prod.mk.inj (Option.some.inj (ran.symm.trans ran'))
    obtain ⟨next, reply, stepped, -⟩ := step_represents rep (benchOrder i x).1
    have unused : ∀ entry ∈ log, entry.1.enters ≠ some (i : Int) := by
      intro entry member same
      obtain ⟨j, less, enters⟩ := used entry member
      have := Option.some.inj (enters.symm.trans same)
      omega
    have ok : reply.ok = true :=
      fresh_accepted ran accepts (unused_fresh ran accepts.2.2 unused) (order ▸ stepped)
    have on := Runs.run_snoc_iff.mpr ⟨book, log, reply, ran, stepped, rfl⟩
    obtain ⟨s, log', looped, all⟩ := ih (i := i + 1) (by omega) (benchOrder i x).2 on (by
      intro entry member
      rcases List.mem_append.mp member with before | now
      · obtain ⟨j, less, enters⟩ := used entry before
        exact ⟨j, by omega, enters⟩
      · obtain rfl := List.mem_singleton.mp now
        exact ⟨i, by omega, by rw [order]; rfl⟩)
    refine ⟨s, log', ?_, ?_⟩
    · simp only [benchLoop, stepped, Option.bind_some, ok, if_true]
      rw [looped, Nat.add_right_comm, Nat.add_assoc]
    · rwa [benchCalls, List.append_cons]

theorem benchCalls_units (left : Nat) {i : Nat} (few : i + left ≤ 200000) (x : UInt64) :
    ((benchCalls left i x).map Reference.units).sum ≤ 10 * left := by
  induction left generalizing i x with
  | zero => exact le_rfl
  | succ left ih =>
    obtain ⟨side, price, qty, order, -, small⟩ := benchOrder_accepts (i := i) (by omega) x
    have rest := ih (i := i + 1) (by omega) (benchOrder i x).2
    rw [benchCalls, List.map_cons, List.sum_cons, order, Reference.units]
    omega

theorem run_bench_completes (orders : Nat) (seed : UInt64) :
    ∃ book, runBench orders seed = some (book, min orders 200000) ∧
      Refines book (Reference.run (benchCalls (min orders 200000) 0 seed)).1 ∧
      TotalsExact book ∧ Uncrossed book := by
  have capped : (if orders > 200000 then 200000 else orders) = min orders 200000 := by
    split_ifs <;> omega
  have few : 0 + min orders 200000 ≤ 200000 := by omega
  have started : Runs.run step (LimitOrderBook.new bookConfig).reset [] = some (_, []) := rfl
  obtain ⟨book, log, looped, ran⟩ := benchLoop_runs (min orders 200000) few seed started (by simp)
  have fits : Fits (benchCalls (min orders 200000) 0 seed) := by
    have few := benchCalls_units (min orders 200000) (i := 0) (by omega) seed
    refine fits_of_units (few.trans_lt ?_)
    have : (2 : Nat) ^ bookConfig.qtyBits = 4294967296 := rfl
    omega
  obtain ⟨tidy, refines, -⟩ := run_follows (fits.noWrap _) ran
  refine ⟨book, ?_, refines, tidy.totalsExact, tidy.uncrossed⟩
  rw [runBench, capped, looped, Nat.zero_add]

end LimitOrderBook

end CppPractice
