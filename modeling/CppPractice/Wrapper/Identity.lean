import CppPractice.Wrapper.Bystanders
import CppPractice.Wrapper.Lifetimes
import CppPractice.Wrapper.Registry

set_option autoImplicit false

namespace CppPractice.OrderBook

def Submission.label (sub : Submission) : Nat × Bool × Price :=
  (sub.user, decide (sub.side = .Buy), sub.price)

def Impl.labels (s : Impl) : List (Nat × Bool × Price) := s.orders.map LiveOrder.label

def Impl.adds (s : Impl) (op : Op) : List (Nat × Bool × Price) :=
  (op.submission).elim [] fun sub =>
    if s.Admits sub.side sub.user sub.price sub.qty then [sub.label] else []

theorem LiveOrder.fresh_label (side : Side) (user : Nat) (price : Price) (qty : Qty) :
    (LiveOrder.fresh side user price qty).label = (user, decide (side = .Buy), price) := by
  cases side <;> rfl

theorem labels_set {orders : List LiveOrder} {id : Nat} {o o' : LiveOrder}
    (found : orders[id]? = some o) (same : o'.label = o.label) :
    (orders.set id o').map LiveOrder.label = orders.map LiveOrder.label := by
  obtain ⟨inside, rfl⟩ := List.getElem?_eq_some_iff.mp found
  rw [List.map_set, same, ← List.getElem_map LiveOrder.label, List.set_getElem_self]
  rwa [List.length_map]

section

variable {s s' : Impl} {op : Op} {reply : Reply}

theorem Settles.labels {takerId : Nat} {e : Execution Qty} {maker taker : LiveOrder}
    (settles : Settles s s' takerId e maker taker) : s'.labels = s.labels := by
  have takerAt : (s.orders.set (toOrderId e.makerOrderId) (maker.fill e.qty))[takerId]? =
      some taker := by
    rw [List.getElem?_set_ne settles.apart]
    exact settles.takerAt
  rw [Impl.labels, settles.orders, labels_set takerAt (taker.fill_label e.qty),
    labels_set settles.makerAt (maker.fill_label e.qty), Impl.labels]

theorem cancelled_labels {user id : Nat} {isBid : Bool} {o : LiveOrder}
    (cancels : s.Cancels user id isBid o) : (s.cancelled user id o).labels = s.labels :=
  labels_set cancels.1 rfl

theorem submit_labels {sub : Submission} {result : Option Nat} (synced : Synced s)
    (submission : op.submission = some sub) (submitted : s.submits sub = some (s', result)) :
    s'.labels = s.labels ++ s.adds op := by
  have adds : s.adds op =
      if s.Admits sub.side sub.user sub.price sub.qty then [sub.label] else [] := by
    rw [Impl.adds, submission]
    rfl
  rw [adds]
  rcases submit_cases synced submitted with ⟨refused, -, rfl⟩ | ⟨admits, room, ⟨-, -, rfl⟩ |
    ⟨-, sameId, -, outcome, after, remaining, -, processed, rfl⟩⟩
  · rw [if_neg refused, List.append_nil]
    rfl
  · rw [if_pos admits]
    simp [Impl.labels, Impl.rejected, LiveOrder.close, LiveOrder.label, Submission.label]
    cases sub.side <;> simp [LiveOrder.fresh]
  · rw [if_pos admits]
    have grown (book : LimitOrderBook Engine) (stats : Stats) :
        Impl.labels { s.opened sub.side sub.user sub.price sub.qty with
          engine := book, stats := stats } = s.labels ++ [sub.label] := by
      rw [Impl.labels, Impl.opened, List.map_append, List.map_singleton, LiveOrder.fresh_label]
      rfl
    refine acceptOrder_rule synced admits room sameId processed sub.discardUnfilled
      (J := fun _ t => t.labels = s.labels ++ [sub.label])
      (P := fun t => t.labels = s.labels ++ [sub.label]) grown ?_ ?_ ?_
    · exact fun _ t e maker taker same settles _ => settles.labels.trans same
    · exact fun t same _ _ => same
    · exact fun t o same _ _ cancels => (cancelled_labels cancels).trans same

theorem step_labels (synced : Synced s) (stepped : step s op = some (s', reply)) :
    s'.labels = s.labels ++ s.adds op := by
  rcases step_cases stepped with ⟨name, rfl, rfl, -⟩ | ⟨user, quote, base, rfl, rfl, -⟩ |
    ⟨sub, result, submission, submitted, -⟩ | ⟨user, id, isBid, rfl, rfl, -⟩ | ⟨same, none, -⟩
  · have kept : (s.makeUser name).1.orders = s.orders := by
      rcases makeUser_cases s name with ⟨id, -, same⟩ | ⟨-, same⟩ <;> rw [same]
    rw [Impl.labels, kept]
    exact (List.append_nil _).symm
  · have kept : (s.addBalance user quote base).1.orders = s.orders := by
      rcases addBalance_cases s user quote base with ⟨-, same⟩ | ⟨u, users, -, same, -⟩ <;> rw [same]
    rw [Impl.labels, kept]
    exact (List.append_nil _).symm
  · exact submit_labels synced submission submitted
  · have kept : (s.cancel user id isBid).1.labels = s.labels := by
      rcases cancel_cases synced user id isBid with ⟨-, same⟩ | ⟨o, cancels, same⟩
      · rw [same]
        rfl
      · rw [same]
        exact cancelled_labels cancels
    cases isBid <;> exact kept.trans (List.append_nil _).symm
  · rw [Impl.labels, same.orders, Impl.adds, none]
    exact (List.append_nil _).symm

end

def Reply.id : Reply → Option Nat
  | .order id => id
  | _ => none

def issued (log : List (Op × Reply)) : List Nat := log.filterMap fun entry => entry.2.id

theorem issued_snoc (log : List (Op × Reply)) (op : Op) (reply : Reply) :
    issued (log ++ [(op, reply)]) = issued log ++ reply.id.toList := by
  rw [issued, List.filterMap_append, issued]
  cases same : reply.id <;> simp [same]

theorem answered_label {s s' : Impl} {op : Op} {id : Nat} (synced : Synced s)
    (stepped : step s op = some (s', .order (some id))) {sub : Submission}
    (submission : op.submission = some sub) : s'.labels[id]? = some sub.label := by
  obtain ⟨rfl, -, found⟩ := step_returned synced stepped
  obtain ⟨o, found, -⟩ := found sub submission
  have inside : s.nextOrderId < s'.labels.length := by
    rw [Impl.labels, List.length_map]
    exact (List.getElem?_eq_some_iff.mp found).1
  have length : s.labels.length = s.nextOrderId := by
    rw [Impl.labels, List.length_map, synced.length]
  rw [step_labels synced stepped, Impl.adds, submission, Option.elim_some] at inside ⊢
  split at inside
  · rename_i admits
    rw [if_pos admits, ← length, List.getElem?_concat_length]
  · rw [List.append_nil, length] at inside
    exact absurd inside (Nat.lt_irrefl _)

structure Named (s : Impl) (log : List (Op × Reply)) : Prop where
  ascending : (issued log).Pairwise (· < ·)
  below : ∀ id ∈ issued log, id < s.nextOrderId
  label : ∀ op id sub, (op, .order (some id)) ∈ log → op.submission = some sub →
    s.labels[id]? = some sub.label

theorem Named.step {s s' : Impl} {log : List (Op × Reply)} {op : Op} {reply : Reply}
    (named : Named s log) (synced : Synced s) (stepped : step s op = some (s', reply)) :
    Named s' (log ++ [(op, reply)]) := by
  have later := (step_nextOrderId synced stepped).1
  have kept : ∀ {id : Nat} {label : Nat × Bool × Price}, s.labels[id]? = some label →
      s'.labels[id]? = some label := by
    intro id label found
    rw [step_labels synced stepped]
    exact (List.getElem?_append_left (List.getElem?_eq_some_iff.mp found).1).trans found
  have now : ∀ id ∈ reply.id.toList, id = s.nextOrderId ∧ id < s'.nextOrderId := by
    intro id member
    cases reply with
    | order result =>
      obtain rfl := Option.mem_toList.mp member
      obtain ⟨same, below, -⟩ := step_returned synced stepped
      exact ⟨same, below⟩
    | _ => exact absurd member (by simp [Reply.id])
  refine ⟨?_, fun id member => ?_, fun op' id sub member submission => ?_⟩
  · rw [issued_snoc, List.pairwise_append]
    refine ⟨named.ascending, by cases reply.id <;> simp, fun id earlier id' member => ?_⟩
    rw [(now id' member).1]
    exact named.below id earlier
  · rw [issued_snoc, List.mem_append] at member
    rcases member with earlier | member
    · exact (named.below id earlier).trans_le later
    · exact (now id member).2
  · rcases List.mem_append.mp member with earlier | member
    · exact kept (named.label op' id sub earlier submission)
    · obtain ⟨rfl, rfl⟩ := Prod.mk.inj (List.mem_singleton.mp member)
      exact answered_label synced stepped submission

theorem run_named {ops : List Op} {s : Impl} {log : List (Op × Reply)}
    (ran : Runs.run step new ops = some (s, log)) : Named s log := by
  refine (Runs.run_induction (P := fun log s => Synced s ∧ Named s log) ⟨new_synced, ?_⟩ ?_ ran).2
  · exact ⟨List.Pairwise.nil, by simp [issued], by simp⟩
  · rintro front s log op s' reply - ⟨synced, named⟩ stepped
    exact ⟨step_synced synced stepped, named.step synced stepped⟩

def journal (start : Impl) (ops : List Op) : List (Nat × Bool × Price) :=
  Runs.trace step Impl.adds start ops

theorem run_journal {ops : List Op} {s : Impl} {log : List (Op × Reply)}
    (ran : Runs.run step new ops = some (s, log)) : s.labels = new.labels ++ journal new ops := by
  refine (Runs.run_traced Impl.adds
    (P := fun added _ s => Synced s ∧ s.labels = new.labels ++ added)
    ⟨new_synced, (List.append_nil _).symm⟩ ?_ ran).2
  rintro front s added log op s' reply - ⟨synced, same⟩ stepped
  refine ⟨step_synced synced stepped, ?_⟩
  rw [step_labels synced stepped, same, List.append_assoc]

/--
The order table is a journal of the orders opened: nothing leaves it or moves in it, and no owner,
side or limit price changes. Ids are answered in ascending order, and each names the record of
its own submission to the end of the run.
-/
theorem order_table_journal (ops : List Op) (few : submissions ops < 2 ^ 31) :
    ∃ s log, Runs.run step new ops = some (s, log) ∧
      s.labels = new.labels ++ journal new ops ∧ (issued log).Pairwise (· < ·) ∧
      ∀ op id sub, (op, Reply.order (some id)) ∈ log → op.submission = some sub →
        ∃ o, s.orders[id]? = some o ∧ o.user = sub.user ∧ o.side = sub.side ∧
          o.limitPrice = sub.price := by
  obtain ⟨s, log, ran, -⟩ := run_defined few
  have named := run_named ran
  refine ⟨s, log, ran, run_journal ran, named.ascending, fun op id sub member submission => ?_⟩
  have found := named.label op id sub member submission
  rw [Impl.labels, List.getElem?_map, Option.map_eq_some_iff] at found
  obtain ⟨o, found, same⟩ := found
  obtain ⟨owner, isBid, limit⟩ : o.user = sub.user ∧ o.isBid = decide (sub.side = .Buy) ∧
      o.limitPrice = sub.price := by
    simpa [LiveOrder.label, Submission.label] using same
  refine ⟨o, found, owner, ?_, limit⟩
  rw [LiveOrder.side, isBid]
  cases sub.side <;> rfl

theorem order_table_journal_mixedOps :
    ∃ s log, Runs.run step new mixedOps = some (s, log) ∧
      s.labels = new.labels ++ journal new mixedOps ∧ (issued log).Pairwise (· < ·) ∧
      ∀ op id sub, (op, Reply.order (some id)) ∈ log → op.submission = some sub →
        ∃ o, s.orders[id]? = some o ∧ o.user = sub.user ∧ o.side = sub.side ∧
          o.limitPrice = sub.price :=
  order_table_journal mixedOps (by decide)

end CppPractice.OrderBook
