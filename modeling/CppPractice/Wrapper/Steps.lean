import CppPractice.Wrapper.Accepted

set_option autoImplicit false

namespace CppPractice.OrderBook

structure Submission where
  side : Side
  user : Nat
  price : Price
  qty : Qty
  discardUnfilled : Bool

def Op.submission : Op → Option Submission
  | .addBid user price qty => some ⟨.Buy, user, price, qty, false⟩
  | .addAsk user price qty => some ⟨.Sell, user, price, qty, false⟩
  | .addBidIoc user price qty => some ⟨.Buy, user, price, qty, true⟩
  | .addAskIoc user price qty => some ⟨.Sell, user, price, qty, true⟩
  | .addMarketBid user qty => some ⟨.Buy, user, 30000, qty, true⟩
  | .addMarketAsk user qty => some ⟨.Sell, user, 10000, qty, true⟩
  | _ => none

def Impl.submits (s : Impl) (sub : Submission) : Option (Impl × Option Nat) :=
  s.submit sub.side sub.user sub.price sub.qty sub.discardUnfilled

def submissions (ops : List Op) : Nat := ops.countP (·.submission.isSome)

structure LogOnly (s s' : Impl) : Prop where
  engine : s'.engine = s.engine
  users : s'.users = s.users
  orders : s'.orders = s.orders
  nextOrderId : s'.nextOrderId = s.nextOrderId

section

variable {s s' : Impl} {op : Op} {reply : Reply}

theorem step_submission {sub : Submission} (submission : op.submission = some sub) (s : Impl) :
    step s op = (s.submits sub).map Reply.ofSubmit := by
  cases op <;> simp only [Op.submission, reduceCtorEq, Option.some.injEq] at submission <;>
    subst submission <;> rfl

theorem step_cases (stepped : step s op = some (s', reply)) :
    (∃ name, op = .makeUser name ∧ s' = (s.makeUser name).1 ∧
        reply = .user (s.makeUser name).2) ∨
      (∃ user quoteDelta baseDelta, op = .addBalance user quoteDelta baseDelta ∧
        s' = (s.addBalance user quoteDelta baseDelta).1 ∧
        reply = .flag (s.addBalance user quoteDelta baseDelta).2) ∨
      (∃ sub result, op.submission = some sub ∧ s.submits sub = some (s', result) ∧
        reply = .order result) ∨
      (∃ user id isBid, op = (if isBid then .cancelBid user id else .cancelAsk user id) ∧
        s' = (s.cancel user id isBid).1 ∧ reply = .flag (s.cancel user id isBid).2) ∨
      (LogOnly s s' ∧ op.submission = none ∧ reply = .unit ∧
        ∀ user quoteDelta baseDelta, op ≠ .addBalance user quoteDelta baseDelta) := by
  cases submission : op.submission with
  | some sub =>
    rw [step_submission submission, Option.map_eq_some_iff] at stepped
    obtain ⟨⟨t, result⟩, submitted, same⟩ := stepped
    obtain ⟨rfl, rfl⟩ := Prod.mk.inj same
    exact Or.inr (Or.inr (Or.inl ⟨sub, result, rfl, submitted, rfl⟩))
  | none =>
    cases op with
    | makeUser name =>
      obtain ⟨rfl, rfl⟩ := Prod.mk.inj (Option.some.inj stepped)
      exact Or.inl ⟨name, rfl, rfl, rfl⟩
    | addBalance user quoteDelta baseDelta =>
      obtain ⟨rfl, rfl⟩ := Prod.mk.inj (Option.some.inj stepped)
      exact Or.inr (Or.inl ⟨user, quoteDelta, baseDelta, rfl, rfl, rfl⟩)
    | cancelBid user id =>
      obtain ⟨rfl, rfl⟩ := Prod.mk.inj (Option.some.inj stepped)
      exact Or.inr (Or.inr (Or.inr (Or.inl ⟨user, id, true, rfl, rfl, rfl⟩)))
    | cancelAsk user id =>
      obtain ⟨rfl, rfl⟩ := Prod.mk.inj (Option.some.inj stepped)
      exact Or.inr (Or.inr (Or.inr (Or.inl ⟨user, id, false, rfl, rfl, rfl⟩)))
    | setTradeLogEnabled enabled =>
      obtain ⟨rfl, rfl⟩ := Prod.mk.inj (Option.some.inj stepped)
      exact Or.inr (Or.inr (Or.inr (Or.inr ⟨⟨rfl, rfl, rfl, rfl⟩, rfl, rfl, by simp⟩)))
    | clearTradeLog =>
      obtain ⟨rfl, rfl⟩ := Prod.mk.inj (Option.some.inj stepped)
      exact Or.inr (Or.inr (Or.inr (Or.inr ⟨⟨rfl, rfl, rfl, rfl⟩, rfl, rfl, by simp⟩)))
    | resetStats =>
      obtain ⟨rfl, rfl⟩ := Prod.mk.inj (Option.some.inj stepped)
      exact Or.inr (Or.inr (Or.inr (Or.inr ⟨⟨rfl, rfl, rfl, rfl⟩, rfl, rfl, by simp⟩)))
    | _ => simp [Op.submission] at submission

theorem LogOnly.synced (same : LogOnly s s') (synced : Synced s) : Synced s' where
  represents := by rw [same.engine]; exact synced.represents
  length := by rw [same.orders, same.nextOrderId]; exact synced.length
  positive := by rw [same.nextOrderId]; exact synced.positive
  bounded := by rw [same.nextOrderId]; exact synced.bounded
  unused := by rw [same.orders]; exact synced.unused
  table id := by
    rw [Impl.table, same.orders, same.engine]
    exact synced.table id
  accounts := by rw [same.users, same.orders]; exact synced.accounts

theorem step_synced (synced : Synced s) (stepped : step s op = some (s', reply)) : Synced s' := by
  rcases step_cases stepped with ⟨name, -, rfl, -⟩ | ⟨user, quoteDelta, baseDelta, -, rfl, -⟩ |
    ⟨sub, result, -, submitted, -⟩ | ⟨user, id, isBid, -, rfl, -⟩ | ⟨same, -⟩
  · exact makeUser_synced synced name
  · exact addBalance_synced synced user quoteDelta baseDelta
  · exact submit_synced synced submitted
  · exact cancel_synced synced user id isBid
  · exact same.synced synced

theorem step_nextOrderId (synced : Synced s) (stepped : step s op = some (s', reply)) :
    s.nextOrderId ≤ s'.nextOrderId ∧
      s'.nextOrderId ≤ s.nextOrderId + if op.submission.isSome then 1 else 0 := by
  rcases step_cases stepped with ⟨name, -, rfl, -⟩ | ⟨user, quoteDelta, baseDelta, -, rfl, -⟩ |
    ⟨sub, result, submission, submitted, -⟩ | ⟨user, id, isBid, -, rfl, -⟩ | ⟨same, -⟩
  · unfold Impl.makeUser
    split <;> exact ⟨le_refl _, Nat.le_add_right _ _⟩
  · rcases addBalance_cases s user quoteDelta baseDelta with ⟨-, same⟩ | ⟨u, users, -, done, -⟩
    · rw [same]
      exact ⟨le_refl _, Nat.le_add_right _ _⟩
    · rw [done]
      exact ⟨le_refl _, Nat.le_add_right _ _⟩
  · rw [submission, Option.isSome_some, if_pos rfl]
    rcases submit_cases synced submitted with ⟨-, -, rfl⟩ | ⟨admits, room, ⟨-, -, rfl⟩ |
      ⟨-, sameId, -, outcome, after, remaining, -, processed, rfl⟩⟩
    · exact ⟨le_refl _, Nat.le_succ _⟩
    · exact ⟨Nat.le_succ _, le_refl _⟩
    · refine acceptOrder_rule synced admits room sameId processed sub.discardUnfilled
        (J := fun _ _ => True)
        (P := fun t => s.nextOrderId ≤ t.nextOrderId ∧ t.nextOrderId ≤ s.nextOrderId + 1)
        (fun _ _ => trivial) (fun _ _ _ _ _ _ _ _ => trivial) ?_ ?_
      · intro t _ _ next
        rw [Impl.countAccepted, next]
        exact ⟨Nat.le_succ _, le_refl _⟩
      · intro t o _ _ next _
        rw [Impl.countAccepted, Impl.cancelled, next]
        exact ⟨Nat.le_succ _, le_refl _⟩
  · exact cancel_rule synced
      (P := fun t => s.nextOrderId ≤ t.nextOrderId ∧ t.nextOrderId ≤ s.nextOrderId + _)
      ⟨le_refl _, Nat.le_add_right _ _⟩ fun _ _ => ⟨le_refl _, Nat.le_add_right _ _⟩
  · rw [same.nextOrderId]
    exact ⟨le_refl _, Nat.le_add_right _ _⟩

theorem step_defined (synced : Synced s) (room : s.nextOrderId + 1 < 2 ^ 32) (op : Op) :
    ∃ s' reply, step s op = some (s', reply) := by
  cases submission : op.submission with
  | some sub =>
    obtain ⟨result, submitted⟩ := submit_defined synced room sub.side sub.user sub.price sub.qty
      sub.discardUnfilled
    exact ⟨_, _, by rw [step_submission submission, Impl.submits, submitted]; rfl⟩
  | none => cases op <;> first | exact ⟨_, _, rfl⟩ | simp [Op.submission] at submission

end

theorem new_synced : Synced new := by
  have built : seeded = some new := (Option.some_get seeded_isSome).symm
  unfold seeded at built
  simp only [Option.bind_eq_bind, Option.bind_eq_some_iff, Option.some.injEq] at built
  obtain ⟨⟨s1, r1⟩, first, ⟨s2, r2⟩, second, ⟨s3, r3⟩, third, ⟨s4, r4⟩, fourth, rfl⟩ := built
  have users := makeUser_synced (makeUser_synced empty_synced "mm_alpha") "mm_beta"
  have funded := addBalance_synced (addBalance_synced users 0 10000000 10000) 1 10000000 10000
  exact submit_synced (submit_synced (submit_synced (submit_synced funded first) second) third) fourth

theorem run_synced {ops : List Op} {s : Impl} {log : List (Op × Reply)}
    (ran : Runs.run step new ops = some (s, log)) : Synced s :=
  Runs.run_induction (P := fun _ s => Synced s) new_synced
    (fun _ _ _ _ _ _ _ synced stepped => step_synced synced stepped) ran

theorem run_defined {ops : List Op} (few : submissions ops < 2 ^ 31) :
    ∃ s log, Runs.run step new ops = some (s, log) ∧ Synced s ∧
      s.nextOrderId ≤ 5 + submissions ops := by
  have counts (front : List Op) (op : Op) : submissions (front ++ [op]) =
      submissions front + if op.submission.isSome then 1 else 0 := by
    simp [submissions, List.countP_append, List.countP_singleton]
  refine Runs.run_total
    (P := fun front s => Synced s ∧ s.nextOrderId ≤ 5 + submissions front)
    (C := fun ops => submissions ops < 2 ^ 31) ⟨new_synced, ?_⟩ ?_ ?_ few
  · decide +kernel
  · intro front op allowed
    rw [counts] at allowed
    omega
  · rintro front s op allowed ⟨synced, bound⟩
    rw [counts] at allowed
    obtain ⟨s', reply, stepped⟩ := step_defined synced (by omega) op
    refine ⟨s', reply, stepped, step_synced synced stepped, ?_⟩
    have := (step_nextOrderId synced stepped).2
    rw [counts]
    omega

end CppPractice.OrderBook
