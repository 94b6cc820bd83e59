import CppPractice.Wrapper.OpenOrders

set_option autoImplicit false

namespace CppPractice.OrderBook

-- The constructor's body, as operations.
def openingOps : List Op :=
  [.makeUser "mm_alpha", .makeUser "mm_beta", .addBalance 0 10000000 10000,
    .addBalance 1 10000000 10000] ++ seedOrders

theorem run_openingOps : ∃ log, Runs.run step Impl.empty openingOps = some (new, log) := by
  obtain ⟨log, seeded⟩ := run_seedOrders
  have early : Runs.run step Impl.empty [.makeUser "mm_alpha", .makeUser "mm_beta",
      .addBalance 0 10000000 10000, .addBalance 1 10000000 10000] =
        some (funded, [(.makeUser "mm_alpha", .user 0), (.makeUser "mm_beta", .user 1),
          (.addBalance 0 10000000 10000, .flag true),
          (.addBalance 1 10000000 10000, .flag true)]) := rfl
  exact ⟨_, by rw [openingOps, Runs.run_append, early, Option.bind_some, seeded, Option.map_some]⟩

def Impl.names (s : Impl) : List String := s.users.map User.name

structure Registered (s : Impl) : Prop where
  distinct : s.names.Nodup
  index : ∀ name, s.nameToId name = (s.names.idxOf? name).map (· % 2 ^ 32)

theorem Moves.names {users users' : List User} {delta : Nat → Delta}
    (moves : Moves users users' delta) : users'.map User.name = users.map User.name := by
  refine List.ext_getElem? fun v => ?_
  rw [List.getElem?_map, List.getElem?_map, moves, Option.map_map]
  rfl

theorem applyExecution_frame {A : Type} {f : Impl → A}
    (frame : ∀ (s : Impl) users orders tradeLog size head,
      f { s with
          users := users
          orders := orders
          tradeLog := tradeLog
          tradeLogSize := size
          tradeLogHead := head } = f s)
    (s : Impl) (takerId : Nat) (e : Execution Qty) : f (s.applyExecution takerId e) = f s := by
  have pushed (s : Impl) : f (s.pushTrade e) = f s := by
    unfold Impl.pushTrade
    split
    · rfl
    · exact frame s _ _ _ _ _
  have filled (s : Impl) (id : Nat) : f (s.fillOrder id e.qty) = f s := by
    unfold Impl.fillOrder
    split
    · rfl
    · exact frame s _ _ _ _ _
  have settled (s : Impl) (maker taker : LiveOrder) (notional : Money) :
      f (s.settle maker taker e.qty notional) = f s := by
    unfold Impl.settle
    split <;> exact frame s _ _ _ _ _
  have refunded (s : Impl) (o : LiveOrder) (notional : Money) :
      f (s.refund o e.qty notional) = f s := by
    unfold Impl.refund
    dsimp only
    split
    · exact frame s _ _ _ _ _
    · rfl
  unfold Impl.applyExecution
  dsimp only
  split
  · rfl
  · split
    · split
      · rfl
      · rw [refunded, refunded, settled, filled, filled, pushed]
    · rfl

structure SameUsers (s t : Impl) : Prop where
  index : t.nameToId = s.nameToId
  names : t.names = s.names

theorem idxOf?_concat (names : List String) {name : String} (absent : name ∉ names)
    (other : String) : (names ++ [name]).idxOf? other =
      if other = name then some names.length else names.idxOf? other := by
  rw [List.idxOf?, List.findIdx?_append]
  split
  · rename_i same
    subst same
    rw [← List.idxOf?, List.idxOf?_eq_none_iff.mpr absent]
    simp
  · rename_i apart
    rw [← List.idxOf?]
    simp [Ne.symm apart]

theorem makeUser_cases (s : Impl) (name : String) :
    (∃ id, s.nameToId name = some id ∧ s.makeUser name = (s, id)) ∨
      (s.nameToId name = none ∧ s.makeUser name =
        ({ s with
           users := s.users ++ [{ name := name }]
           nameToId := Function.update s.nameToId name (some (s.users.length % 2 ^ 32)) },
          s.users.length % 2 ^ 32)) := by
  unfold Impl.makeUser
  cases s.nameToId name with
  | some id => exact .inl ⟨id, rfl, rfl⟩
  | none => exact .inr ⟨rfl, rfl⟩

section

variable {s s' t : Impl} {op : Op} {reply : Reply}

theorem SameUsers.registered (same : SameUsers s t) (registered : Registered s) : Registered t where
  distinct := by
    rw [same.names]
    exact registered.distinct
  index name := by
    rw [same.index, same.names]
    exact registered.index name

theorem submit_sameUsers {sub : Submission} {result : Option Nat} (synced : Synced s)
    (submitted : s.submits sub = some (s', result)) : SameUsers s s' := by
  rcases submit_cases synced submitted with ⟨-, -, rfl⟩ | ⟨admits, room, ⟨-, -, rfl⟩ |
    ⟨-, sameId, -, outcome, after, remaining, -, processed, rfl⟩⟩
  · exact ⟨rfl, rfl⟩
  · exact ⟨rfl, rfl⟩
  · refine acceptOrder_rule synced admits room sameId processed sub.discardUnfilled
      (J := fun _ t => SameUsers s t) (P := SameUsers s) ?_ ?_ ?_ ?_
    · exact fun _ _ => ⟨rfl, opened_moves.names⟩
    · rintro execs t e maker taker ⟨index, names⟩ settles -
      exact ⟨(applyExecution_frame (f := Impl.nameToId) (fun _ _ _ _ _ _ => rfl) t _ e).trans index,
        settles.moves.names.trans names⟩
    · rintro t ⟨index, names⟩ - -
      exact ⟨index, names⟩
    · rintro t o ⟨index, names⟩ - - -
      exact ⟨index, (Moves.modify t.users sub.user (release_eq · o)).names.trans names⟩

theorem step_unit (stepped : step s op = some (s', .unit)) :
    (∃ enabled, op = .setTradeLogEnabled enabled) ∨ op = .clearTradeLog ∨ op = .resetStats := by
  cases op with
  | setTradeLogEnabled enabled => exact .inl ⟨enabled, rfl⟩
  | clearTradeLog => exact .inr (.inl rfl)
  | resetStats => exact .inr (.inr rfl)
  | makeUser | addBalance | cancelBid | cancelAsk => simp [step, Reply.ofFlag] at stepped
  | addBid | addAsk | addBidIoc | addAskIoc | addMarketBid | addMarketAsk =>
    obtain ⟨result, -, same⟩ := Option.map_eq_some_iff.mp stepped
    simp [Reply.ofSubmit] at same

theorem step_sameUsers (synced : Synced s) (stepped : step s op = some (s', reply)) :
    (∃ name, op = .makeUser name ∧ s' = (s.makeUser name).1 ∧ reply = .user (s.makeUser name).2) ∨
      ((∀ name, op ≠ .makeUser name) ∧ SameUsers s s') := by
  rcases step_cases stepped with makes | ⟨user, quoteDelta, baseDelta, rfl, rfl, -⟩ |
    ⟨sub, result, submission, submitted, -⟩ | ⟨user, id, isBid, rfl, rfl, -⟩ | ⟨same, none, rfl, -⟩
  · exact .inl makes
  · refine .inr ⟨by simp, ?_⟩
    rcases addBalance_cases s user quoteDelta baseDelta with ⟨-, same⟩ | ⟨u, users, -, done, moves⟩
    · rw [same]
      exact ⟨rfl, rfl⟩
    · rw [done]
      exact ⟨rfl, moves.names⟩
  · refine .inr ⟨?_, submit_sameUsers synced submitted⟩
    rintro name rfl
    simp [Op.submission] at submission
  · refine .inr ⟨by cases isBid <;> simp, ?_⟩
    rcases cancel_cases synced user id isBid with ⟨-, same⟩ | ⟨o, -, done⟩
    · rw [same]
      exact ⟨rfl, rfl⟩
    · rw [done]
      exact ⟨rfl, (Moves.modify s.users user (release_eq · o)).names⟩
  · rcases step_unit stepped with ⟨enabled, rfl⟩ | rfl | rfl <;>
      obtain ⟨rfl, -⟩ := Prod.mk.inj (Option.some.inj stepped) <;>
      exact .inr ⟨by simp, rfl, rfl⟩

theorem Registered.makeUser (registered : Registered s) (name : String) :
    Registered (s.makeUser name).1 := by
  rcases makeUser_cases s name with ⟨id, -, same⟩ | ⟨unknown, added⟩
  · rwa [same]
  · have absent : name ∉ s.names := by
      rwa [registered.index, Option.map_eq_none_iff, List.idxOf?_eq_none_iff] at unknown
    have names : (s.makeUser name).1.names = s.names ++ [name] := by
      rw [added, Impl.names, List.map_append]
      rfl
    refine ⟨?_, fun other => ?_⟩
    · rw [names]
      exact List.nodup_append'.mpr ⟨registered.distinct, List.nodup_singleton name, by simpa⟩
    · rw [names, idxOf?_concat s.names absent, added]
      dsimp only
      rw [Function.update_apply, registered.index]
      split
      · rw [Impl.names, List.length_map, Option.map_some]
      · rfl

theorem step_registered (synced : Synced s) (registered : Registered s)
    (stepped : step s op = some (s', reply)) : Registered s' := by
  rcases step_sameUsers synced stepped with ⟨name, -, rfl, -⟩ | ⟨-, same⟩
  · exact registered.makeUser name
  · exact same.registered registered

theorem empty_registered : Registered Impl.empty where
  distinct := List.nodup_nil
  index _ := rfl

theorem new_registered : Registered new := by
  obtain ⟨log, ran⟩ := run_openingOps
  refine (Runs.run_induction (P := fun _ s => Synced s ∧ Registered s)
    ⟨empty_synced, empty_registered⟩ ?_ ran).2
  rintro front s log op s' reply - ⟨synced, registered⟩ stepped
  exact ⟨step_synced synced stepped, step_registered synced registered stepped⟩

end

structure Answered (s : Impl) (log : List (Op × Reply)) : Prop where
  registered : Registered s
  known : ∀ name id, (Op.makeUser name, Reply.user id) ∈ log → s.nameToId name = some id

theorem Answered.step {s s' : Impl} {log : List (Op × Reply)} {op : Op} {reply : Reply}
    (answered : Answered s log) (synced : Synced s) (stepped : step s op = some (s', reply)) :
    Answered s' (log ++ [(op, reply)]) := by
  refine ⟨step_registered synced answered.registered stepped, fun name id member => ?_⟩
  rcases step_sameUsers synced stepped with ⟨name', rfl, rfl, rfl⟩ | ⟨others, same⟩
  · rcases List.mem_append.mp member with old | new
    · have known := answered.known name id old
      rcases makeUser_cases s name' with ⟨other, -, same⟩ | ⟨unknown, added⟩
      · rwa [same]
      · have apart : name ≠ name' := by
          rintro rfl
          simp [known] at unknown
        rw [added]
        exact (Function.update_of_ne apart _ _).trans known
    · rw [List.mem_singleton, Prod.mk.injEq, Op.makeUser.injEq, Reply.user.injEq] at new
      obtain ⟨rfl, rfl⟩ := new
      rcases makeUser_cases s name with ⟨id, known, same⟩ | ⟨-, added⟩
      · rwa [same]
      · rw [added]
        exact Function.update_self _ _ _
  · rw [same.index]
    rcases List.mem_append.mp member with old | new
    · exact answered.known name id old
    · obtain ⟨rfl, -⟩ := Prod.mk.inj (List.mem_singleton.mp new)
      exact absurd rfl (others name)

theorem run_answered {ops : List Op} {s : Impl} {log : List (Op × Reply)}
    (ran : Runs.run step new ops = some (s, log)) : Answered s log := by
  refine Runs.run_induction (P := fun log s => Answered s log) ⟨new_registered, by simp⟩ ?_ ran
  exact fun front s log op s' reply early answered stepped =>
    answered.step (run_synced early) stepped

-- With fewer than `2 ^ 32` users the ids are the places in the table.
theorem Registered.place {s : Impl} (registered : Registered s)
    (few : s.users.length ≤ 2 ^ 32) {name : String} {id : Nat}
    (known : s.nameToId name = some id) : s.names[id]? = some name := by
  rw [registered.index, Option.map_eq_some_iff] at known
  obtain ⟨place, found, rfl⟩ := known
  obtain ⟨inside, here, -⟩ := List.idxOf?_eq_some_iff.mp found
  have bound : s.names.length = s.users.length := List.length_map _
  rw [Nat.mod_eq_of_lt (by omega), List.getElem?_eq_getElem inside, here]

theorem user_ids_stable (ops : List Op) :
    (submissions ops < 2 ^ 31 → ∃ s log, Runs.run step new ops = some (s, log)) ∧
    ∀ s log, Runs.run step new ops = some (s, log) → s.names.Nodup ∧
      ∀ name id, (Op.makeUser name, Reply.user id) ∈ log →
        s.nameToId name = some id ∧
        (s.users.length ≤ 2 ^ 32 → s.names[id]? = some name) ∧
        ∀ name' id', (Op.makeUser name', Reply.user id') ∈ log →
          (name = name' → id = id') ∧
          (s.users.length ≤ 2 ^ 32 → id = id' → name = name') := by
  refine ⟨fun few => ?_, fun s log ran => ?_⟩
  · obtain ⟨s, log, ran, -⟩ := run_defined few
    exact ⟨s, log, ran⟩
  · have answered := run_answered ran
    refine ⟨answered.registered.distinct, fun name id member => ?_⟩
    have known := answered.known name id member
    refine ⟨known, fun room => answered.registered.place room known, fun name' id' member' => ?_⟩
    have known' := answered.known name' id' member'
    constructor
    · rintro rfl
      exact Option.some.inj (known.symm.trans known')
    · rintro room rfl
      have here := answered.registered.place room known
      exact Option.some.inj (here.symm.trans (answered.registered.place room known'))

def namingOps : List Op :=
  [.makeUser "carol", .makeUser "mm_beta", .addBalance 2 5 5, .makeUser "carol", .makeUser "dave"]

theorem user_ids_stable_namingOps :
    ∃ s log, Runs.run step new namingOps = some (s, log) ∧ s.names.Nodup ∧
      ∀ name id, (Op.makeUser name, Reply.user id) ∈ log →
        s.nameToId name = some id ∧
        (s.users.length ≤ 2 ^ 32 → s.names[id]? = some name) ∧
        ∀ name' id', (Op.makeUser name', Reply.user id') ∈ log →
          (name = name' → id = id') ∧
          (s.users.length ≤ 2 ^ 32 → id = id' → name = name') := by
  obtain ⟨defined, stable⟩ := user_ids_stable namingOps
  obtain ⟨s, log, ran⟩ := defined (by decide)
  exact ⟨s, log, ran, stable s log ran⟩

end CppPractice.OrderBook
