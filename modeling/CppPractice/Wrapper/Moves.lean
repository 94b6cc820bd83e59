import CppPractice.Shared.Tally
import CppPractice.Wrapper.Model

set_option autoImplicit false

namespace CppPractice.OrderBook

@[ext]
structure Delta where
  quote : Money := 0
  base : Qty := 0
  lockedQuote : Money := 0
  lockedBase : Qty := 0

namespace Delta

instance : Zero Delta := ⟨{}⟩

instance : Add Delta :=
  ⟨fun d e => ⟨d.quote + e.quote, d.base + e.base, d.lockedQuote + e.lockedQuote,
    d.lockedBase + e.lockedBase⟩⟩

variable (d e : Delta)

@[simp] theorem zero_quote : (0 : Delta).quote = 0 := rfl
@[simp] theorem zero_base : (0 : Delta).base = 0 := rfl
@[simp] theorem zero_lockedQuote : (0 : Delta).lockedQuote = 0 := rfl
@[simp] theorem zero_lockedBase : (0 : Delta).lockedBase = 0 := rfl
@[simp] theorem add_quote : (d + e).quote = d.quote + e.quote := rfl
@[simp] theorem add_base : (d + e).base = d.base + e.base := rfl
@[simp] theorem add_lockedQuote : (d + e).lockedQuote = d.lockedQuote + e.lockedQuote := rfl
@[simp] theorem add_lockedBase : (d + e).lockedBase = d.lockedBase + e.lockedBase := rfl

def lock (side : Side) (price : Price) (qty : Qty) : Delta :=
  match side with
  | .Buy => { lockedQuote := mulMoney price qty }
  | .Sell => { lockedBase := qty }

def unlock (side : Side) (price : Price) (qty : Qty) : Delta :=
  match side with
  | .Buy => { lockedQuote := -mulMoney price qty }
  | .Sell => { lockedBase := -qty }

def buys (traded : Qty) (notional : Money) : Delta := { quote := -notional, base := traded }

def sells (traded : Qty) (notional : Money) : Delta := { quote := notional, base := -traded }

def refund (o : LiveOrder) (traded : Qty) (notional : Money) : Delta :=
  if o.isBid ∧ mulMoney o.limitPrice traded - notional > 0 then
    { quote := mulMoney o.limitPrice traded - notional }
  else 0

def release (o : LiveOrder) : Delta :=
  if o.isBid then { lockedQuote := -o.lockedQuote } else { lockedBase := -o.lockedBase }

theorem lock_balances (side : Side) (price : Price) (qty : Qty) :
    (lock side price qty).quote = 0 ∧ (lock side price qty).base = 0 := by
  cases side <;> exact ⟨rfl, rfl⟩

theorem release_balances (o : LiveOrder) : (release o).quote = 0 ∧ (release o).base = 0 := by
  unfold release
  split <;> exact ⟨rfl, rfl⟩

end Delta

def User.plus (u : User) (d : Delta) : User :=
  { u with
    bal := ⟨u.bal.quote + d.quote, u.bal.base + d.base⟩
    lockedQuote := u.lockedQuote + d.lockedQuote
    lockedBase := u.lockedBase + d.lockedBase }

section

variable (u : User) (d : Delta)

@[simp] theorem plus_quote : (u.plus d).bal.quote = u.bal.quote + d.quote := rfl
@[simp] theorem plus_base : (u.plus d).bal.base = u.bal.base + d.base := rfl
@[simp] theorem plus_lockedQuote : (u.plus d).lockedQuote = u.lockedQuote + d.lockedQuote := rfl
@[simp] theorem plus_lockedBase : (u.plus d).lockedBase = u.lockedBase + d.lockedBase := rfl

@[simp]
theorem plus_zero : u.plus 0 = u := by
  simp [User.plus]

theorem plus_plus (e : Delta) : (u.plus d).plus e = u.plus (d + e) := by
  simp [User.plus, add_assoc]

variable (side : Side) (price : Price) (qty : Qty)

theorem lock_eq : u.lock side price qty = u.plus (.lock side price qty) := by
  cases side <;> simp [User.lock, User.plus, Delta.lock]

theorem unlock_eq : u.unlock side price qty = u.plus (.unlock side price qty) := by
  cases side <;> simp [User.unlock, User.plus, Delta.unlock, sub_eq_add_neg]

theorem buys_eq (notional : Money) : u.buys qty notional = u.plus (.buys qty notional) := by
  simp [User.buys, User.plus, Delta.buys, sub_eq_add_neg]

theorem sells_eq (notional : Money) : u.sells qty notional = u.plus (.sells qty notional) := by
  simp [User.sells, User.plus, Delta.sells, sub_eq_add_neg]

theorem release_eq (o : LiveOrder) : u.release o = u.plus (.release o) := by
  unfold User.release Delta.release
  split <;> simp [User.plus, sub_eq_add_neg]

end

def Moves (users users' : List User) (delta : Nat → Delta) : Prop :=
  ∀ v, users'[v]? = (users[v]?).map fun u : User => u.plus (delta v)

def Delta.only (user : Nat) (d : Delta) : Nat → Delta := fun v => if v = user then d else 0

section

variable (d : Delta) (user v : Nat)

theorem only_quote : (d.only user v).quote = if v = user then d.quote else 0 := by
  unfold Delta.only
  split <;> rfl

theorem only_base : (d.only user v).base = if v = user then d.base else 0 := by
  unfold Delta.only
  split <;> rfl

theorem only_lockedQuote : (d.only user v).lockedQuote = if v = user then d.lockedQuote else 0 := by
  unfold Delta.only
  split <;> rfl

theorem only_lockedBase : (d.only user v).lockedBase = if v = user then d.lockedBase else 0 := by
  unfold Delta.only
  split <;> rfl

end

namespace Moves

variable {users users' users'' : List User} {delta delta' : Nat → Delta}

theorem refl (users : List User) : Moves users users fun _ => 0 := by
  intro v
  simp

theorem trans (first : Moves users users' delta) (second : Moves users' users'' delta') :
    Moves users users'' fun v => delta v + delta' v := by
  intro v
  rw [second, first, Option.map_map]
  simp only [Function.comp_def, plus_plus]

theorem source (moves : Moves users users' delta) {v : Nat} {u' : User}
    (found : users'[v]? = some u') : ∃ u, users[v]? = some u ∧ u.plus (delta v) = u' :=
  Option.map_eq_some_iff.mp ((moves v).symm.trans found)

theorem length (moves : Moves users users' delta) : users'.length = users.length := by
  have same (v : Nat) : users'.length ≤ v ↔ users.length ≤ v := by
    rw [← List.getElem?_eq_none_iff, ← List.getElem?_eq_none_iff, moves, Option.map_eq_none_iff]
  exact Nat.le_antisymm ((same _).mpr (le_refl _)) ((same _).mp (le_refl _))

theorem modify (users : List User) (user : Nat) {f : User → User} {d : Delta}
    (adds : ∀ u, f u = u.plus d) : Moves users (users.modify user f) (d.only user) := by
  intro v
  rw [List.getElem?_modify, Delta.only]
  by_cases here : user = v
  · simp [here, adds]
  · simp [here, Ne.symm here]

theorem tally {M : Type} [AddCommMonoid M] (moves : Moves users users' delta) (f : User → M)
    (amount : Delta → M) (adds : ∀ u d, f (u.plus d) = f u + amount d) :
    Tally.tally f users' =
      Tally.tally f users + ∑ v ∈ Finset.range users.length, amount (delta v) := by
  refine Tally.tally_shift fun v => ?_
  rw [moves, Option.map_map]
  simp only [Function.comp_def, adds]

end Moves

end CppPractice.OrderBook
