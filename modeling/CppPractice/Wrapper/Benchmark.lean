import CppPractice.Engine.Benchmark
import CppPractice.Wrapper.Capacity
import CppPractice.Wrapper.Identity
import CppPractice.Wrapper.Statistics

set_option autoImplicit false

namespace CppPractice.OrderBook

structure Placed where
  id : Nat
  isBid : Bool
  deriving DecidableEq

structure Bench where
  book : Impl
  parked : List Placed
  x : UInt64

structure Drawn where
  buy : Bool
  r : UInt64
  qty : Qty
  price : Price

def draw (x : UInt64) : Drawn × UInt64 :=
  let (x, r1) := splitmix64 x
  let (x, r2) := splitmix64 x
  let (x, r3) := splitmix64 x
  let (x, r4) := splitmix64 x
  ({ buy := decide (r1 &&& 1 ≠ 0)
     r := r2 % 100
     qty := 1 + BitVec.ofNat 32 (r3 % 50).toNat
     price := 14500 + (r4 % 2001).toNat }, x)

def Drawn.op (d : Drawn) (uid : Nat) : Op :=
  if d.r < 10 then if d.buy then .addMarketBid uid d.qty else .addMarketAsk uid d.qty
  else if d.r < 25 then
    if d.buy then .addBidIoc uid d.price d.qty else .addAskIoc uid d.price d.qty
  else if d.buy then .addBid uid d.price d.qty else .addAsk uid d.price d.qty

namespace Bench

-- `none` is an index beyond the end of `parked`.
def cancelOne (b : Bench) (uid : Nat) : Option Bench :=
  let (x, r) := splitmix64 b.x
  let k := r.toNat % b.parked.length
  (b.parked[k]?).map fun p =>
    let result := if p.isBid then b.book.cancelBid uid p.id else b.book.cancelAsk uid p.id
    { b with book := result.1, x := x }

def park (parked : List Placed) (buy : Bool) (reply : Reply) : List Placed :=
  match reply with
  | .order (some id) => parked ++ [⟨id, buy⟩]
  | _ => parked

def turn (uid cancel_every i : Nat) (b : Bench) : Option Bench :=
  let (d, x) := draw b.x
  (step b.book (d.op uid)).bind fun (book, reply) =>
    let b : Bench := ⟨book, park b.parked d.buy reply, x⟩
    if cancel_every ≠ 0 ∧ b.parked ≠ [] ∧ (i + 1) % cancel_every = 0 then b.cancelOne uid
    else some b

def loop (uid cancel_every : Nat) : (left i : Nat) → Bench → Option Bench
  | 0, _, b => some b
  | left + 1, i, b => (b.turn uid cancel_every i).bind (loop uid cancel_every left (i + 1))

end Bench

section

variable {uid i : Nat} {b b' : Bench}

structure Parks (uid : Nat) (s : Impl) (parked : List Placed) : Prop where
  below : ∀ p ∈ parked, p.id < s.nextOrderId
  distinct : (parked.map Placed.id).Nodup
  label : ∀ p ∈ parked, ∃ limit, s.labels[p.id]? = some (uid, p.isBid, limit)

theorem Parks.step {s s' : Impl} {op : Op} {reply : Reply} {parked : List Placed}
    (parks : Parks uid s parked) (synced : Synced s) (stepped : step s op = some (s', reply)) :
    Parks uid s' parked := by
  refine ⟨fun p member => ?_, parks.distinct, fun p member => ?_⟩
  · exact (parks.below p member).trans_le (step_nextOrderId synced stepped).1
  · obtain ⟨limit, found⟩ := parks.label p member
    refine ⟨limit, ?_⟩
    rw [step_labels synced stepped]
    exact (List.getElem?_append_left (List.getElem?_eq_some_iff.mp found).1).trans found

theorem Parks.park {s s' : Impl} {op : Op} {result : Option Nat} {parked : List Placed}
    {sub : Submission} (parks : Parks uid s parked) (synced : Synced s)
    (stepped : OrderBook.step s op = some (s', .order result))
    (submission : op.submission = some sub) (owner : sub.user = uid) :
    Parks uid s' (Bench.park parked (decide (sub.side = .Buy)) (.order result)) := by
  have kept := parks.step synced stepped
  cases result with
  | none => exact kept
  | some id =>
    obtain ⟨next, below, -⟩ := step_returned synced stepped
    have label := answered_label synced stepped submission
    refine ⟨fun p member => ?_, ?_, fun p member => ?_⟩
    · rcases List.mem_append.mp member with earlier | now
      · exact kept.below p earlier
      · rw [List.mem_singleton.mp now]
        exact below
    · rw [Bench.park, List.map_append, List.nodup_append]
      refine ⟨parks.distinct, List.nodup_singleton _, fun other earlier id' now same => ?_⟩
      obtain ⟨p, member, rfl⟩ := List.mem_map.mp earlier
      rw [List.map_singleton, List.mem_singleton] at now
      have := parks.below p member
      rw [same, now, next] at this
      exact Nat.lt_irrefl _ this
    · rcases List.mem_append.mp member with earlier | now
      · exact kept.label p earlier
      · rw [List.mem_singleton.mp now]
        exact ⟨sub.price, by rw [label, Submission.label, owner]⟩

structure Running (uid i : Nat) (b : Bench) : Prop where
  synced : Synced b.book
  room : b.book.nextOrderId ≤ i + 5
  submitted : b.book.stats.ordersSubmitted = .ofNat i
  accepted : b.book.stats.ordersAccepted = .ofNat b.parked.length
  parks : Parks uid b.book b.parked

theorem Drawn.submission (d : Drawn) (uid : Nat) : ∃ price discard,
    (d.op uid).submission = some ⟨if d.buy then .Buy else .Sell, uid, price, d.qty, discard⟩ ∧
      (price = d.price ∨ price = 10000 ∨ price = 30000) := by
  unfold Drawn.op
  split_ifs with market buy ioc buy buy
  · exact ⟨30000, true, rfl, .inr (.inr rfl)⟩
  · exact ⟨10000, true, rfl, .inr (.inl rfl)⟩
  all_goals exact ⟨d.price, _, rfl, .inl rfl⟩

structure Drawn.Sound (d : Drawn) : Prop where
  qty : d.qty ≠ 0
  price : 10000 ≤ d.price ∧ d.price ≤ 30000

theorem draw_sound (x : UInt64) : (draw x).1.Sound := by
  have qty (r : UInt64) : (1 + BitVec.ofNat 32 (r % 50).toNat : Qty) ≠ 0 := by
    have small : (r % 50).toNat < 50 := drawn_lt r 50 (by decide)
    intro zero
    have value := congrArg BitVec.toNat zero
    simp at value
    omega
  have price (r : UInt64) : (10000 : Int) ≤ 14500 + (r % 2001).toNat ∧
      (14500 + (r % 2001).toNat : Int) ≤ 30000 := by
    have small : (r % 2001).toNat < 2001 := drawn_lt r 2001 (by decide)
    omega
  exact ⟨qty _, price _⟩

theorem Drawn.Sound.submission {d : Drawn} (sound : d.Sound) (uid : Nat) : ∃ sub,
    (d.op uid).submission = some sub ∧ sub.user = uid ∧ decide (sub.side = .Buy) = d.buy ∧
      ∀ id : Nat, id < 1000000 → LimitOrderBook.Accepts Engine sub.price sub.qty id := by
  obtain ⟨price, discard, submission, prices⟩ := d.submission uid
  have range : 10000 ≤ price ∧ price ≤ 30000 := by
    rcases prices with rfl | rfl | rfl
    · exact sound.price
    · exact ⟨by decide, by decide⟩
    · exact ⟨by decide, by decide⟩
  exact ⟨_, submission, rfl, by cases d.buy <;> rfl, fun id few => ⟨sound.qty,
    LimitOrderBook.inRange_iff.mpr range,
    LimitOrderBook.validId_iff.mpr ⟨Int.natCast_nonneg id, by simpa using few⟩⟩⟩

theorem Running.answer (running : Running uid i b) (few : i < 500000) {d : Drawn}
    (sound : d.Sound) {sub : Submission} (submission : (d.op uid).submission = some sub) :
    ∃ book result, step b.book (d.op uid) = some (book, .order result) ∧
      (result.isSome = true ↔ b.book.Admits sub.side sub.user sub.price sub.qty) := by
  have room := running.room
  obtain ⟨sub', submission', -, -, accepts⟩ := sound.submission uid
  obtain rfl := Option.some.inj (submission.symm.trans submission')
  obtain ⟨⟨book, result⟩, submitted⟩ := submit_defined running.synced (by omega) sub.side sub.user
    sub.price sub.qty sub.discardUnfilled
  refine ⟨book, result, ?_, ?_⟩
  · rw [step_submission submission, Impl.submits, submitted]
    rfl
  · rcases submit_cases running.synced submitted with ⟨refused, rfl, -⟩ |
      ⟨admits, -, ⟨rejects, -⟩ | ⟨-, -, rfl, -⟩⟩
    · simp [refused]
    · rw [toInt_small (by omega)] at rejects
      exact absurd (accepts _ (by omega)) rejects
    · simp [admits]

theorem Running.order (running : Running uid i b) (few : i < 500000) {d : Drawn}
    (sound : d.Sound) (x : UInt64) : ∃ book reply,
      step b.book (d.op uid) = some (book, reply) ∧
        Running uid (i + 1) ⟨book, Bench.park b.parked d.buy reply, x⟩ := by
  obtain ⟨sub, submission, owner, side, -⟩ := sound.submission uid
  obtain ⟨book, result, stepped, -⟩ := running.answer few sound submission
  have submits : (d.op uid).submission.isSome = true := by rw [submission]; rfl
  have stats := step_stats running.synced stepped
  rw [if_neg (fun resets => by rw [resets] at submission; cases submission)] at stats
  have ids := (step_nextOrderId running.synced stepped).2
  rw [if_pos submits] at ids
  have room := running.room
  refine ⟨book, .order result, stepped, step_synced running.synced stepped, ?_, ?_, ?_,
    side ▸ running.parks.park running.synced stepped submission owner⟩
  · show book.nextOrderId ≤ i + 1 + 5
    omega
  · show book.stats.ordersSubmitted = _
    rw [stats, Stats.plus, running.submitted, Served.submits, if_pos submits, UInt64.ofNat_add]
  · show book.stats.ordersAccepted = _
    rw [stats, Stats.plus, running.accepted, ← UInt64.ofNat_add]
    cases result with
    | none => rfl
    | some id =>
      show _ = UInt64.ofNat (b.parked ++ [(⟨id, d.buy⟩ : Placed)]).length
      rw [List.length_append]
      rfl

theorem cancel_side (s : Impl) (uid : Nat) (p : Placed) :
    (if p.isBid then s.cancelBid uid p.id else s.cancelAsk uid p.id) =
      s.cancel uid p.id p.isBid := by
  cases p.isBid <;> rfl

theorem Parks.cancel {s : Impl} {parked : List Placed} (parks : Parks uid s parked)
    (synced : Synced s) (id : Nat) (isBid : Bool) : Parks uid (s.cancel uid id isBid).1 parked := by
  cases isBid with
  | true =>
    have stepped : OrderBook.step s (.cancelBid uid id) = some _ := rfl
    exact parks.step synced stepped
  | false =>
    have stepped : OrderBook.step s (.cancelAsk uid id) = some _ := rfl
    exact parks.step synced stepped

theorem Running.cancelOne (running : Running uid i b) (parked : b.parked ≠ []) :
    ∃ b', b.cancelOne uid = some b' ∧ Running uid i b' := by
  -- The index is a remainder of the length.
  obtain ⟨p, found⟩ : ∃ p, b.parked[(splitmix64 b.x).2.toNat % b.parked.length]? = some p :=
    ⟨_, List.getElem?_eq_getElem (Nat.mod_lt _ (List.length_pos_iff.mpr parked))⟩
  have synced := cancel_synced running.synced uid p.id p.isBid
  have parks := running.parks.cancel running.synced p.id p.isBid
  have same : (b.book.cancel uid p.id p.isBid).1.nextOrderId = b.book.nextOrderId ∧
      (b.book.cancel uid p.id p.isBid).1.stats.ordersSubmitted = b.book.stats.ordersSubmitted ∧
      (b.book.cancel uid p.id p.isBid).1.stats.ordersAccepted = b.book.stats.ordersAccepted := by
    rcases cancel_cases running.synced uid p.id p.isBid with ⟨-, same⟩ | ⟨o, -, same⟩ <;>
      rw [same] <;> exact ⟨rfl, rfl, rfl⟩
  refine ⟨{ b with book := (b.book.cancel uid p.id p.isBid).1, x := (splitmix64 b.x).1 }, ?_, synced,
    ?_, ?_, ?_, parks⟩
  · simp only [Bench.cancelOne, found, Option.map_some, cancel_side]
  · exact same.1.trans_le running.room
  · exact same.2.1.trans running.submitted
  · exact same.2.2.trans running.accepted

theorem Running.turn (running : Running uid i b) (few : i < 500000) (cancel_every : Nat) :
    ∃ b', b.turn uid cancel_every i = some b' ∧ Running uid (i + 1) b' := by
  obtain ⟨book, reply, stepped, next⟩ := running.order few (draw_sound b.x) (draw b.x).2
  simp only [Bench.turn, stepped, Option.bind_some]
  split
  · rename_i due
    exact next.cancelOne due.2.1
  · exact ⟨_, rfl, next⟩

theorem Running.loop (running : Running uid i b) (cancel_every : Nat) {left : Nat}
    (few : i + left ≤ 500000) :
    ∃ b', Bench.loop uid cancel_every left i b = some b' ∧ Running uid (i + left) b' := by
  induction left generalizing i b with
  | zero => exact ⟨b, rfl, running⟩
  | succ left ih =>
    obtain ⟨next, turned, running'⟩ := running.turn (by omega) cancel_every
    obtain ⟨b', looped, last⟩ := ih running' (by omega)
    refine ⟨b', ?_, ?_⟩
    · rw [Bench.loop, turned, Option.bind_some, looped]
    · rwa [Nat.add_assoc, Nat.add_comm 1 left] at last

end

end CppPractice.OrderBook
