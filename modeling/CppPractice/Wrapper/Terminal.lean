import CppPractice.Shared.Reading
import CppPractice.Wrapper.MarketRefinement
import CppPractice.Wrapper.MarketData

set_option autoImplicit false

namespace CppPractice.OrderBook

open Reading (Number readNumber readWord skipSpace skipLine)

def twoDigits (n : Nat) : String := String.ofList ((Nat.toDigits 10 n).leftpad 2 '0')

def moneyToStr (cents : Money) : String :=
  let v := cents.natAbs
  (if cents < 0 then "-" else "") ++ toString (v / 100) ++ "." ++ twoDigits (v % 100)

def priceToStr (p : Price) : String := moneyToStr p

-- Lines that do not start with a number are passed over; `none` asks for ever.
def prompt {V : Type} (accept : Number → Option V) (input : List Char) : Option (V × List Char) :=
  if _typed : skipSpace input = [] then none
  else
    match accept (readNumber input).1 with
    | some v => some (v, (readNumber input).2)
    | none => prompt accept (skipLine (readNumber input).2)
termination_by input.length
decreasing_by exact Reading.skipLine_readNumber_lt _typed

def promptInt64 (input : List Char) : Option (Int × List Char) := prompt (·.toSigned 64) input

def promptU64 (input : List Char) : Option (Nat × List Char) := prompt (·.toUnsigned 64) input

-- Read as 64 bits and cut to 32.
def promptU32 (input : List Char) : Option (Qty × List Char) :=
  (promptU64 input).map fun (v, rest) => (BitVec.ofNat 32 v, rest)

def promptName (input : List Char) : String × List Char :=
  (String.ofList (readWord input).1, (readWord input).2)

-- `static_cast<Price>` of what was typed.
def toPrice (v : Nat) : Price := (BitVec.ofNat 32 v).toInt

-- The entries of the menu but the last, which ends the loop.
inductive Choice where
  | signUp
  | addBalance
  | showMarket
  | limitBid
  | limitAsk
  | marketBid
  | showBalance
  | cancelBid
  | cancelAsk
  deriving DecidableEq

def menu : List Choice :=
  [.signUp, .addBalance, .showMarket, .limitBid, .limitAsk, .marketBid, .showBalance, .cancelBid,
    .cancelAsk]

def choose (number : Int) : Option Choice := if number < 1 then none else menu[number.toNat - 1]?

inductive Request where
  | call (op : Op)
  | showMarket
  | showBalance
  deriving DecidableEq

def Choice.ask (user : Nat) (input : List Char) : Choice → Option (Request × List Char)
  | .signUp => some (.call (.makeUser (promptName input).1), (promptName input).2)
  | .addBalance =>
    (promptInt64 input).bind fun (quote, rest) =>
      (promptU32 rest).map fun (base, rest) => (.call (.addBalance user quote base), rest)
  | .showMarket => some (.showMarket, input)
  | .limitBid =>
    (promptU64 input).bind fun (price, rest) =>
      (promptU32 rest).map fun (qty, rest) => (.call (.addBid user (toPrice price) qty), rest)
  | .limitAsk =>
    (promptU64 input).bind fun (price, rest) =>
      (promptU32 rest).map fun (qty, rest) => (.call (.addAsk user (toPrice price) qty), rest)
  | .marketBid => (promptU32 input).map fun (qty, rest) => (.call (.addMarketBid user qty), rest)
  | .showBalance => some (.showBalance, input)
  | .cancelBid =>
    (promptU64 input).map fun (id, rest) => (.call (.cancelBid user (id % 2 ^ 32)), rest)
  | .cancelAsk =>
    (promptU64 input).map fun (id, rest) => (.call (.cancelAsk user (id % 2 ^ 32)), rest)

def Choice.answer (choice : Choice) (reply : Reply) : String :=
  match choice, reply with
  | .signUp, .user id => s!"User ready. user_id={id}\n"
  | .addBalance, .flag ok => if ok then "Balance updated.\n" else "Balance update failed.\n"
  | .limitBid, .order none => "Bid rejected (insufficient funds or price out of range).\n"
  | .limitBid, .order (some id) => s!"Bid accepted. order_id={id}\n"
  | .limitAsk, .order none => "Ask rejected (insufficient shares or price out of range).\n"
  | .limitAsk, .order (some id) => s!"Ask accepted. order_id={id}\n"
  | .marketBid, .order none => "Market bid rejected.\n"
  | .marketBid, .order (some id) => s!"Market bid submitted. order_id={id}\n"
  | .cancelBid, .flag ok => if ok then "Bid cancelled.\n" else "Cancel failed.\n"
  | .cancelAsk, .flag ok => if ok then "Ask cancelled.\n" else "Cancel failed.\n"
  | _, _ => ""

def levelText (price : Price) (qty : Qty) : String := s!"{priceToStr price} x {qty.toNat}\n"

def bestText (best : Option QuoteLevel) : String :=
  match best with
  | none => "-\n"
  | some l => levelText l.price l.qty

def depthText (levels : List DepthLevel) : String :=
  String.join (levels.map fun l => "  " ++ levelText l.price l.qty)

def marketText (quote : Quote) (asks bids : List DepthLevel) : String :=
  "\nGOOGL Depth: CURRENT MARKET PRICES\n" ++
    "Best bid:  " ++ bestText quote.bestBid ++ "Best ask:  " ++ bestText quote.bestAsk ++
    "\nAsks above:\n" ++ depthText asks ++ "Bids below:\n" ++ depthText bids

def balanceText (b : Balance) : String :=
  s!"User balance:\n  quote: {moneyToStr b.quote} cents\n  base:  {b.base.toNat} shares\n"

inductive Plan where
  | bye
  | asksForever
  | skip (shown : List String) (rest : List Char)
  | ask (choice : Choice) (request : Request) (rest : List Char)

def plan (currentUser : Nat) (hasUser : Bool) (input : List Char) : Plan :=
  let rest := (readNumber input).2
  -- `choice` is an `int`.
  match (readNumber input).1.toSigned 32 with
  | none => .bye
  | some number =>
    if number = 10 then .bye
    else if !hasUser ∧ number ≠ 1 ∧ number ≠ 3 then .skip ["Sign up first (option 1).\n"] rest
    else
      match choose number with
      | none => .skip [] rest
      | some choice =>
        match choice.ask currentUser rest with
        | none => .asksForever
        | some (request, rest) => .ask choice request rest

structure Book (σ : Type) where
  step : σ → Op → Option (σ × Reply)
  getQuote : σ → Quote
  getDepthBids : σ → Nat → Option (List DepthLevel)
  getDepthAsks : σ → Nat → Option (List DepthLevel)
  getBalance : σ → Nat → Balance

structure Ui (σ : Type) where
  book : σ
  currentUser : Nat := 0
  hasUser : Bool := false

inductive Ending where
  | bye
  | asksForever
  | throws
  deriving DecidableEq

inductive Turn (σ : Type) where
  | stop (ending : Ending)
  | next (ui : Ui σ) (calls : List (Op × Reply)) (shown : List String) (rest : List Char)

structure Session (σ : Type) where
  calls : List (Op × Reply) := []
  shown : List String := []
  ending : Ending
  ui : Ui σ

def Session.ops {σ : Type} (s : Session σ) : List Op := s.calls.map Prod.fst

def Session.after {σ : Type} (calls : List (Op × Reply)) (shown : List String) (s : Session σ) :
    Session σ :=
  { s with calls := calls ++ s.calls, shown := shown ++ s.shown }

section

variable {σ : Type} (book : Book σ)

def Ui.answered (ui : Ui σ) (state : σ) (reply : Reply) : Ui σ :=
  match reply with
  | .user id => ⟨state, id, true⟩
  | _ => { ui with book := state }

-- `none` is an exception of the book.
def Book.market (state : σ) : Option String :=
  (book.getDepthAsks state 10).bind fun asks =>
    (book.getDepthBids state 10).map fun bids => marketText (book.getQuote state) asks bids

def Ui.perform (ui : Ui σ) (choice : Choice) (request : Request) :
    Option (Ui σ × List (Op × Reply) × String) :=
  match request with
  | .call op =>
    (book.step ui.book op).map fun (state, reply) =>
      (ui.answered state reply, [(op, reply)], choice.answer reply)
  | .showMarket => (book.market ui.book).map fun text => (ui, [], text)
  | .showBalance => some (ui, [], balanceText (book.getBalance ui.book ui.currentUser))

def Ui.turn (ui : Ui σ) (input : List Char) : Turn σ :=
  match plan ui.currentUser ui.hasUser input with
  | .bye => .stop .bye
  | .asksForever => .stop .asksForever
  | .skip shown rest => .next ui [] shown rest
  | .ask choice request rest =>
    match ui.perform book choice request with
    | none => .stop .throws
    | some (ui, calls, shown) => .next ui calls [shown] rest

end

theorem prompt_length {V : Type} {accept : Number → Option V} {input rest : List Char} {v : V}
    (read : prompt accept input = some (v, rest)) : rest.length ≤ input.length := by
  fun_induction prompt accept input with
  | case1 => cases read
  | case2 input typed v' accepted =>
    obtain ⟨-, rfl⟩ := Prod.mk.inj (Option.some.inj read)
    exact (Reading.readNumber_length input).trans (Reading.skipSpace_length input)
  | case3 input typed refused ih =>
    exact (ih read).trans (Reading.skipLine_readNumber_lt typed).le

theorem ask_length {choice : Choice} {user : Nat} {input rest : List Char} {request : Request}
    (asked : choice.ask user input = some (request, rest)) : rest.length ≤ input.length := by
  cases choice <;> simp only [Choice.ask, promptU32, promptU64, promptInt64, promptName,
    Option.bind_eq_some_iff, Option.map_eq_some_iff, Option.some.injEq, Prod.mk.injEq,
    Prod.exists] at asked
  case signUp => exact asked.2 ▸ Reading.readWord_length
  case addBalance | limitBid | limitAsk =>
    obtain ⟨_, _, first, _, _, ⟨_, _, second, -, rfl⟩, -, rfl⟩ := asked
    exact (prompt_length second).trans (prompt_length first)
  case showMarket | showBalance => exact (congrArg List.length asked.2).ge
  case marketBid =>
    obtain ⟨_, _, ⟨_, _, read, -, rfl⟩, -, rfl⟩ := asked
    exact prompt_length read
  case cancelBid | cancelAsk =>
    obtain ⟨_, _, read, -, rfl⟩ := asked
    exact prompt_length read

theorem toSigned_length {bits : Nat} {input : List Char} {v : Int}
    (read : (readNumber input).1.toSigned bits = some v) :
    (readNumber input).2.length < input.length := by
  refine Reading.readNumber_lt fun none => ?_
  rw [Number.toSigned, if_neg (fun valid => valid.1 none)] at read
  cases read

def Plan.rest : Plan → Option (List Char)
  | .bye | .asksForever => none
  | .skip _ rest => some rest
  | .ask _ _ rest => some rest

theorem plan_length {user : Nat} {hasUser : Bool} {input rest : List Char}
    (goesOn : (plan user hasUser input).rest = some rest) : rest.length < input.length := by
  unfold plan at goesOn
  cases read : (readNumber input).1.toSigned 32 with
  | none =>
    rw [read] at goesOn
    cases goesOn
  | some number =>
    have shorter := toSigned_length read
    rw [read] at goesOn
    dsimp only at goesOn
    split_ifs at goesOn
    · cases goesOn
    · exact Option.some.inj goesOn ▸ shorter
    · split at goesOn
      · exact Option.some.inj goesOn ▸ shorter
      · split at goesOn
        · cases goesOn
        · rename_i asked
          exact Option.some.inj goesOn ▸ (ask_length asked).trans_lt shorter

section

variable {σ : Type} (book : Book σ)

theorem turn_length {ui ui' : Ui σ} {input rest : List Char} {calls : List (Op × Reply)}
    {shown : List String} (turned : ui.turn book input = .next ui' calls shown rest) :
    rest.length < input.length := by
  suffices goesOn : (plan ui.currentUser ui.hasUser input).rest = some rest from
    plan_length goesOn
  unfold Ui.turn at turned
  split at turned
  · cases turned
  · cases turned
  · rename_i planned
    cases turned
    rw [planned, Plan.rest]
  · rename_i planned
    split at turned
    · cases turned
    · cases turned
      rw [planned, Plan.rest]

def uiLoop (ui : Ui σ) (input : List Char) : Session σ :=
  match _turned : ui.turn book input with
  | .stop ending => { ending := ending, ui := ui }
  | .next ui calls shown rest => (uiLoop ui rest).after calls shown
termination_by input.length
decreasing_by exact turn_length book _turned

theorem uiLoop_stop {ui : Ui σ} {input : List Char} {ending : Ending}
    (turned : ui.turn book input = .stop ending) :
    uiLoop book ui input = { ending := ending, ui := ui } := by
  rw [uiLoop]
  split <;> rename_i other
  · cases turned.symm.trans other
    rfl
  · cases turned.symm.trans other

theorem uiLoop_next {ui ui' : Ui σ} {input rest : List Char} {calls : List (Op × Reply)}
    {shown : List String} (turned : ui.turn book input = .next ui' calls shown rest) :
    uiLoop book ui input = (uiLoop book ui' rest).after calls shown := by
  rw [uiLoop]
  split <;> rename_i other
  · cases turned.symm.trans other
  · cases turned.symm.trans other
    rfl

def runUi (start : σ) (input : List Char) : Session σ := uiLoop book { book := start } input

end

def orderBook : Book Impl :=
  ⟨step, Impl.getQuote, Impl.getDepthBids, Impl.getDepthAsks, Impl.getBalance⟩

def uiBook : Impl := new.setTradeLogEnabled false

end CppPractice.OrderBook
