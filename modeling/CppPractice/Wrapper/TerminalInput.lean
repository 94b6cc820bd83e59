import CppPractice.Wrapper.TerminalTexts

set_option autoImplicit false

namespace CppPractice.OrderBook

open Reading (Number Written isSpace Breaks readNumber skipSpace)

inductive Numeral {V : Type} (accept : Number → Option V) (v : V) : List Char → Prop where
  | mk {space written : List Char} {n : Number} (blank : ∀ ch ∈ space, isSpace ch = true)
      (text : Written n written) (accepted : accept n = some v) :
      Numeral accept v (space ++ written)

-- A line that a prompt passes over: it does not start with a number, or with one that does not fit.
structure Refused {V : Type} (accept : Number → Option V) (line : List Char) : Prop where
  oneLine : '\n' ∉ line
  dark : skipSpace line ≠ []
  refuses : accept (readNumber line).1 = none

/-- An answer to a prompt, after any lines that it passes over. -/
inductive Prompted {V : Type} (accept : Number → Option V) (v : V) : List Char → Prop where
  | number {text : List Char} (numeral : Numeral accept v text) : Prompted accept v text
  | refused {space line text : List Char} (blank : ∀ ch ∈ space, isSpace ch = true)
      (refused : Refused accept line) (later : Prompted accept v text) :
      Prompted accept v (space ++ (line ++ '\n' :: text))

inductive Entry where
  | signUp (name : List Char)
  | addBalance (quote : Int) (base : Nat)
  | showMarket
  | limitBid (price qty : Nat)
  | limitAsk (price qty : Nat)
  | marketBid (qty : Nat)
  | showBalance
  | cancelBid (id : Nat)
  | cancelAsk (id : Nat)

namespace Entry

def choice : Entry → Choice
  | .signUp _ => .signUp
  | .addBalance _ _ => .addBalance
  | .showMarket => .showMarket
  | .limitBid _ _ => .limitBid
  | .limitAsk _ _ => .limitAsk
  | .marketBid _ => .marketBid
  | .showBalance => .showBalance
  | .cancelBid _ => .cancelBid
  | .cancelAsk _ => .cancelAsk

def request (user : Nat) : Entry → Request
  | .signUp name => .call (.makeUser (String.ofList name))
  | .addBalance quote base => .call (.addBalance user quote (BitVec.ofNat 32 base))
  | .showMarket => .showMarket
  | .limitBid price qty => .call (.addBid user (toPrice price) (BitVec.ofNat 32 qty))
  | .limitAsk price qty => .call (.addAsk user (toPrice price) (BitVec.ofNat 32 qty))
  | .marketBid qty => .call (.addMarketBid user (BitVec.ofNat 32 qty))
  | .showBalance => .showBalance
  | .cancelBid id => .call (.cancelBid user (id % 2 ^ 32))
  | .cancelAsk id => .call (.cancelAsk user (id % 2 ^ 32))

def places : Entry → Bool
  | .limitBid _ _ | .limitAsk _ _ | .marketBid _ => true
  | _ => false

def Open : Entry → Prop
  | .signUp _ | .showMarket => True
  | _ => False

def Fits : Entry → Prop
  | .signUp name => name ≠ [] ∧ ∀ ch ∈ name, isSpace ch = false
  | .addBalance quote base => (-2 ^ 63 ≤ quote ∧ quote < 2 ^ 63) ∧ base < 2 ^ 64
  | .limitBid price qty | .limitAsk price qty => price < 2 ^ 64 ∧ qty < 2 ^ 64
  | .marketBid qty => qty < 2 ^ 64
  | .cancelBid id | .cancelAsk id => id < 2 ^ 64
  | .showMarket | .showBalance => True

end Entry

abbrev Chosen (number : Int) : List Char → Prop := Numeral (Number.toSigned 32) number

abbrev PromptedInt64 : Int → List Char → Prop := Prompted (Number.toSigned 64)

abbrev PromptedU64 : Nat → List Char → Prop := Prompted (Number.toUnsigned 64)

/-- The texts that an entry can be typed as; white space follows each number and the name. -/
inductive Types : Entry → List Char → Prop where
  | signUp {menu space name : List Char} (chosen : Chosen 1 menu) (apart : Breaks (space ++ name))
      (blank : ∀ ch ∈ space, isSpace ch = true) (some : name ≠ [])
      (dark : ∀ ch ∈ name, isSpace ch = false) : Types (.signUp name) (menu ++ (space ++ name))
  | addBalance {menu first second : List Char} {quote : Int} {base : Nat} (chosen : Chosen 2 menu)
      (apart : Breaks first) (one : PromptedInt64 quote first) (apart' : Breaks second)
      (two : PromptedU64 base second) :
      Types (.addBalance quote base) (menu ++ (first ++ second))
  | showMarket {menu : List Char} (chosen : Chosen 3 menu) : Types .showMarket menu
  | limitBid {menu first second : List Char} {price qty : Nat} (chosen : Chosen 4 menu)
      (apart : Breaks first) (one : PromptedU64 price first) (apart' : Breaks second)
      (two : PromptedU64 qty second) : Types (.limitBid price qty) (menu ++ (first ++ second))
  | limitAsk {menu first second : List Char} {price qty : Nat} (chosen : Chosen 5 menu)
      (apart : Breaks first) (one : PromptedU64 price first) (apart' : Breaks second)
      (two : PromptedU64 qty second) : Types (.limitAsk price qty) (menu ++ (first ++ second))
  | marketBid {menu text : List Char} {qty : Nat} (chosen : Chosen 6 menu) (apart : Breaks text)
      (one : PromptedU64 qty text) : Types (.marketBid qty) (menu ++ text)
  | showBalance {menu : List Char} (chosen : Chosen 7 menu) : Types .showBalance menu
  | cancelBid {menu text : List Char} {id : Nat} (chosen : Chosen 8 menu) (apart : Breaks text)
      (one : PromptedU64 id text) : Types (.cancelBid id) (menu ++ text)
  | cancelAsk {menu text : List Char} {id : Nat} (chosen : Chosen 9 menu) (apart : Breaks text)
      (one : PromptedU64 id text) : Types (.cancelAsk id) (menu ++ text)

inductive Script : List Entry → List Char → Prop where
  | exit {menu : List Char} (chosen : Chosen 10 menu) : Script [] menu
  | entry {e : Entry} {entries : List Entry} {text later : List Char} (typed : Types e text)
      (apart : Breaks later) (others : Script entries later) : Script (e :: entries) (text ++ later)

section

variable {V : Type} {accept : Number → Option V} {v : V} {text rest : List Char}

theorem Numeral.some (numeral : Numeral accept v text) : text ≠ [] := by
  obtain ⟨-, written, -⟩ := numeral
  obtain ⟨ch, tail, rfl, -⟩ := written.dark
  simp

theorem Numeral.read (numeral : Numeral accept v text) (breaks : Breaks rest) :
    ∃ n, readNumber (text ++ rest) = (n, rest) ∧ accept n = Option.some v := by
  obtain ⟨blank, written, accepted⟩ := numeral
  exact ⟨_, by rw [List.append_assoc, written.read blank breaks], accepted⟩

theorem Prompted.some (prompted : Prompted accept v text) : text ≠ [] := by
  cases prompted with
  | number numeral => exact numeral.some
  | refused => simp

theorem Numeral.prompt (numeral : Numeral accept v text) (breaks : Breaks rest) :
    OrderBook.prompt accept (text ++ rest) = Option.some (v, rest) := by
  obtain ⟨n, read, accepted⟩ := numeral.read breaks
  have typed : skipSpace (text ++ rest) ≠ [] := by
    obtain ⟨blank, written, -⟩ := numeral
    obtain ⟨ch, tail, rfl, dark⟩ := written.dark
    rw [List.append_assoc, Reading.skipSpace_space blank, List.cons_append, skipSpace,
      List.dropWhile_cons_of_neg (by simp [dark])]
    simp
  rw [OrderBook.prompt, dif_neg typed, read, accepted]

theorem Refused.prompt {space line : List Char} (refused : Refused accept line)
    (blank : ∀ ch ∈ space, isSpace ch = true) :
    OrderBook.prompt accept (space ++ (line ++ '\n' :: rest)) = OrderBook.prompt accept rest := by
  have typed : skipSpace (space ++ (line ++ '\n' :: rest)) ≠ [] := by
    rw [Reading.skipSpace_space blank, Reading.skipSpace_append refused.dark]
    exact List.append_ne_nil_of_left_ne_nil refused.dark _
  rw [OrderBook.prompt, dif_neg typed, Reading.readNumber_space blank,
    Reading.readNumber_line refused.dark, refused.refuses]
  dsimp only
  rw [Reading.skipLine_line fun member =>
    refused.oneLine ((Reading.readNumber_suffix line).subset member)]

theorem Prompted.prompt (prompted : Prompted accept v text) (breaks : Breaks rest) :
    OrderBook.prompt accept (text ++ rest) = Option.some (v, rest) := by
  induction prompted with
  | number numeral => exact numeral.prompt breaks
  | refused blank refused later ih =>
    rw [List.append_assoc, List.append_assoc, List.cons_append, refused.prompt blank, ih]

end

section

variable {text rest : List Char}

theorem promptU32_typed {n : Nat} (prompted : PromptedU64 n text) (breaks : Breaks rest) :
    promptU32 (text ++ rest) = some (BitVec.ofNat 32 n, rest) := by
  rw [promptU32, promptU64, prompted.prompt breaks]
  rfl

theorem promptName_typed {space name : List Char} (blank : ∀ ch ∈ space, isSpace ch = true)
    (some : name ≠ []) (dark : ∀ ch ∈ name, isSpace ch = false) (breaks : Breaks rest) :
    promptName (space ++ (name ++ rest)) = (String.ofList name, rest) := by
  rw [promptName, Reading.readWord_word blank some dark breaks]

theorem plan_chosen {menu : List Char} {number : Int} {choice : Choice}
    (chosen : Chosen number menu) (known : choose number = some choice) (breaks : Breaks rest)
    {user : Nat} {hasUser : Bool} (signed : hasUser = true ∨ number = 1 ∨ number = 3)
    {request : Request} {left : List Char} (asked : choice.ask user rest = some (request, left)) :
    plan user hasUser (menu ++ rest) = .ask choice request left := by
  have other : number ≠ 10 := by
    rintro rfl
    cases known
  have goesOn : ¬((!hasUser) = true ∧ number ≠ 1 ∧ number ≠ 3) := by
    rintro ⟨none, one, three⟩
    rcases signed with rfl | same | same
    · cases none
    · exact one same
    · exact three same
  obtain ⟨n, read, accepted⟩ := chosen.read breaks
  rw [plan, read]
  dsimp only
  rw [accepted]
  dsimp only
  rw [if_neg other, if_neg goesOn, known]
  dsimp only
  rw [asked]

theorem numbers_typed {A : Type} {accept : Number → Option A} {a : A} {n : Nat}
    {first second : List Char} (one : Prompted accept a first) (apart : Breaks second)
    (two : PromptedU64 n second) (breaks : Breaks rest) (op : A → Qty → Op) :
    ((prompt accept (first ++ (second ++ rest))).bind fun (value, left) =>
      (promptU32 left).map fun (qty, left) => (Request.call (op value qty), left)) =
      some (.call (op a (BitVec.ofNat 32 n)), rest) := by
  rw [one.prompt (apart.append two.some rest), Option.bind_some]
  dsimp only
  rw [promptU32_typed two breaks]
  rfl

theorem Types.plan {e : Entry} (typed : Types e text) (breaks : Breaks rest) (user : Nat)
    {hasUser : Bool} (signed : hasUser = true ∨ e.Open) :
    OrderBook.plan user hasUser (text ++ rest) = .ask e.choice (e.request user) rest := by
  cases typed with
  | signUp chosen apart blank some dark =>
    rw [List.append_assoc]
    refine plan_chosen chosen rfl ?_ (by simp) ?_
    · exact apart.append (List.append_ne_nil_of_right_ne_nil _ some) rest
    · rw [Choice.ask, List.append_assoc, promptName_typed blank some dark breaks]
      rfl
  | addBalance chosen apart one apart' two =>
    rw [List.append_assoc, List.append_assoc]
    exact plan_chosen chosen rfl (apart.append one.some _) (signed.imp id False.elim)
      (numbers_typed one apart' two breaks _)
  | showMarket chosen => exact plan_chosen chosen rfl breaks (by simp) rfl
  | limitBid chosen apart one apart' two =>
    rw [List.append_assoc, List.append_assoc]
    exact plan_chosen chosen rfl (apart.append one.some _) (signed.imp id False.elim)
      (numbers_typed one apart' two breaks fun price qty => .addBid user (toPrice price) qty)
  | limitAsk chosen apart one apart' two =>
    rw [List.append_assoc, List.append_assoc]
    exact plan_chosen chosen rfl (apart.append one.some _) (signed.imp id False.elim)
      (numbers_typed one apart' two breaks fun price qty => .addAsk user (toPrice price) qty)
  | marketBid chosen apart one =>
    rw [List.append_assoc]
    refine plan_chosen chosen rfl (apart.append one.some _) (signed.imp id False.elim) ?_
    rw [Choice.ask, promptU32_typed one breaks]
    rfl
  | showBalance chosen => exact plan_chosen chosen rfl breaks (signed.imp id False.elim) rfl
  | cancelBid chosen apart one | cancelAsk chosen apart one =>
    rw [List.append_assoc]
    refine plan_chosen chosen rfl (apart.append one.some _) (signed.imp id False.elim) ?_
    rw [Choice.ask, promptU64, one.prompt breaks]
    rfl

theorem Types.some {e : Entry} (typed : Types e text) : text ≠ [] := by
  cases typed with
  | signUp chosen | addBalance chosen | limitBid chosen | limitAsk chosen | marketBid chosen
  | cancelBid chosen | cancelAsk chosen => exact List.append_ne_nil_of_left_ne_nil chosen.some _
  | showMarket chosen | showBalance chosen => exact chosen.some

theorem Script.some {entries : List Entry} (script : Script entries text) : text ≠ [] := by
  cases script with
  | exit chosen => exact chosen.some
  | entry typed => exact List.append_ne_nil_of_left_ne_nil typed.some _

end

theorem Prompted.accepts {V : Type} {accept : Number → Option V} {v : V} {text : List Char}
    (prompted : Prompted accept v text) : ∃ n, accept n = Option.some v := by
  induction prompted with
  | number numeral =>
    obtain ⟨-, -, accepted⟩ := numeral
    exact ⟨_, accepted⟩
  | refused blank refused later ih => exact ih

theorem PromptedU64.lt {n : Nat} {text : List Char} (prompted : PromptedU64 n text) :
    n < 2 ^ 64 := by
  obtain ⟨_, accepted⟩ := prompted.accepts
  exact Reading.toUnsigned_range accepted

theorem Types.fits {e : Entry} {text : List Char} (typed : Types e text) : e.Fits := by
  cases typed with
  | signUp _ _ _ some dark => exact ⟨some, dark⟩
  | addBalance _ _ one _ two =>
    obtain ⟨_, accepted⟩ := one.accepts
    exact ⟨Reading.toSigned_range accepted, PromptedU64.lt two⟩
  | limitBid _ _ one _ two | limitAsk _ _ one _ two =>
    exact ⟨PromptedU64.lt one, PromptedU64.lt two⟩
  | marketBid _ _ one | cancelBid _ _ one | cancelAsk _ _ one => exact PromptedU64.lt one
  | showMarket | showBalance => trivial

theorem blank_isSpace : ∀ ch ∈ [' '], isSpace ch = true := List.forall_mem_singleton.mpr rfl

theorem chosen_decimal {number : Int} (low : -2 ^ 31 ≤ number) (high : number < 2 ^ 31) :
    Chosen number ([' '] ++ Reading.decimal number) :=
  .mk blank_isSpace (Reading.decimal_written number) (Reading.toSigned_decimal low high)

theorem promptedInt64_decimal {number : Int} (low : -2 ^ 63 ≤ number) (high : number < 2 ^ 63) :
    PromptedInt64 number ([' '] ++ Reading.decimal number) :=
  .number (.mk blank_isSpace (Reading.decimal_written number) (Reading.toSigned_decimal low high))

theorem promptedU64_decimal {n : Nat} (high : n < 2 ^ 64) :
    PromptedU64 n ([' '] ++ Reading.decimal n) :=
  .number (.mk blank_isSpace (Reading.decimal_written n) (Reading.toUnsigned_decimal high))

theorem breaks_blank {rest : List Char} : Breaks ([' '] ++ rest) := by
  rintro _ ⟨⟩
  rfl

theorem Entry.Fits.typed {e : Entry} (fits : e.Fits) : ∃ text, Types e text ∧ Breaks text := by
  cases e with
  | signUp name =>
    refine ⟨_, .signUp (chosen_decimal ?_ ?_) breaks_blank blank_isSpace fits.1 fits.2,
      breaks_blank⟩ <;> decide
  | addBalance quote base =>
    refine ⟨_, .addBalance (chosen_decimal ?_ ?_) breaks_blank (promptedInt64_decimal fits.1.1 fits.1.2)
      breaks_blank (promptedU64_decimal fits.2), breaks_blank⟩ <;> decide
  | showMarket => exact ⟨_, .showMarket (chosen_decimal (by decide) (by decide)), breaks_blank⟩
  | limitBid price qty =>
    refine ⟨_, .limitBid (chosen_decimal ?_ ?_) breaks_blank (promptedU64_decimal fits.1)
      breaks_blank (promptedU64_decimal fits.2), breaks_blank⟩ <;> decide
  | limitAsk price qty =>
    refine ⟨_, .limitAsk (chosen_decimal ?_ ?_) breaks_blank (promptedU64_decimal fits.1)
      breaks_blank (promptedU64_decimal fits.2), breaks_blank⟩ <;> decide
  | marketBid qty =>
    refine ⟨_, .marketBid (chosen_decimal ?_ ?_) breaks_blank (promptedU64_decimal fits),
      breaks_blank⟩ <;> decide
  | showBalance => exact ⟨_, .showBalance (chosen_decimal (by decide) (by decide)), breaks_blank⟩
  | cancelBid id =>
    refine ⟨_, .cancelBid (chosen_decimal ?_ ?_) breaks_blank (promptedU64_decimal fits),
      breaks_blank⟩ <;> decide
  | cancelAsk id =>
    refine ⟨_, .cancelAsk (chosen_decimal ?_ ?_) breaks_blank (promptedU64_decimal fits),
      breaks_blank⟩ <;> decide

theorem script_iff_fits {entries : List Entry} :
    (∃ text, Script entries text) ↔ ∀ e ∈ entries, e.Fits := by
  constructor
  · rintro ⟨text, script⟩
    induction script with
    | exit => exact List.forall_mem_nil _
    | entry typed apart others ih => exact List.forall_mem_cons.mpr ⟨typed.fits, ih⟩
  · intro fits
    suffices made : ∃ text, Script entries text ∧ Breaks text from made.imp fun _ => And.left
    induction entries with
    | nil => exact ⟨_, .exit (chosen_decimal (by decide) (by decide)), breaks_blank⟩
    | cons e entries ih =>
      obtain ⟨first, others⟩ := List.forall_mem_cons.mp fits
      obtain ⟨text, typed, breaks⟩ := first.typed
      obtain ⟨later, script, apart⟩ := ih others
      exact ⟨text ++ later, .entry typed apart script, breaks.append typed.some later⟩

section

variable {σ : Type} (book : Book σ)

def enter (ui : Ui σ) : List Entry → Session σ
  | [] => { ending := .bye, ui := ui }
  | e :: rest =>
    match ui.perform book e.choice (e.request ui.currentUser) with
    | none => { ending := .throws, ui := ui }
    | some (ui, calls, shown) => (enter ui rest).after calls [shown]

variable {book}

theorem perform_hasUser {ui ui' : Ui σ} {choice : Choice} {request : Request}
    {calls : List (Op × Reply)} {shown : String}
    (performed : ui.perform book choice request = some (ui', calls, shown))
    (signed : ui.hasUser = true) : ui'.hasUser = true := by
  cases request with
  | call op =>
    obtain ⟨⟨state, reply⟩, -, made⟩ := Option.map_eq_some_iff.mp performed
    cases made
    cases reply <;> first | rfl | exact signed
  | showMarket =>
    obtain ⟨text, -, made⟩ := Option.map_eq_some_iff.mp performed
    cases made
    exact signed
  | showBalance =>
    cases performed
    exact signed

variable {text rest : List Char}

theorem Types.uiLoop {ui : Ui σ} {e : Entry} (typed : Types e text)
    (signed : ui.hasUser = true ∨ e.Open) {entries : List Entry} (breaks : Breaks rest)
    (later : ∀ ui' calls shown,
      ui.perform book e.choice (e.request ui.currentUser) = Option.some (ui', calls, shown) →
      OrderBook.uiLoop book ui' rest = enter book ui' entries) :
    OrderBook.uiLoop book ui (text ++ rest) = enter book ui (e :: entries) := by
  have planned := typed.plan breaks ui.currentUser signed
  rw [enter]
  cases performed : ui.perform book e.choice (e.request ui.currentUser) with
  | none =>
    refine uiLoop_stop book ?_
    rw [Ui.turn, planned]
    dsimp only
    rw [performed]
  | some result =>
    obtain ⟨ui', calls, shown⟩ := result
    have turned : ui.turn book (text ++ rest) = .next ui' calls [shown] rest := by
      rw [Ui.turn, planned]
      dsimp only
      rw [performed]
    rw [uiLoop_next book turned, later ui' calls shown performed]

theorem Chosen.exit {menu : List Char} (chosen : Chosen 10 menu) (ui : Ui σ) (breaks : Breaks rest) :
    uiLoop book ui (menu ++ rest) = { ending := .bye, ui := ui } := by
  obtain ⟨n, read, accepted⟩ := chosen.read breaks
  have planned : plan ui.currentUser ui.hasUser (menu ++ rest) = .bye := by
    rw [plan, read]
    dsimp only
    rw [accepted]
    rfl
  refine uiLoop_stop book ?_
  rw [Ui.turn, planned]

theorem Script.uiLoop {entries : List Entry} (script : Script entries text) {ui : Ui σ}
    (signed : ui.hasUser = true) (breaks : Breaks rest) :
    OrderBook.uiLoop book ui (text ++ rest) = enter book ui entries := by
  induction script generalizing ui with
  | exit chosen => exact Chosen.exit chosen ui breaks
  | entry typed apart others ih =>
    rw [List.append_assoc]
    refine typed.uiLoop (.inl signed) (apart.append others.some rest) ?_
    exact fun ui' calls shown performed => ih (perform_hasUser performed signed)

end

theorem request_places {op : Op} {user : Nat} {e : Entry} (asks : e.request user = .call op) :
    op.submission.isSome = e.places := by
  cases e <;> cases asks <;> rfl

theorem enter_bye {ops : List Op} {log : List (Op × Reply)} {ui : Ui Impl} {entries : List Entry}
    (ran : Runs.run step new ops = some (ui.book, log))
    (few : submissions ops + entries.countP Entry.places < 2 ^ 31) :
    (enter orderBook ui entries).ending = .bye := by
  induction entries generalizing ops log ui with
  | nil => rfl
  | cons e rest ih =>
    rw [List.countP_cons] at few
    rw [enter]
    cases asks : e.request ui.currentUser with
    | call op =>
      have counts : submissions (ops ++ [op]) = submissions ops + if e.places then 1 else 0 := by
        rw [← request_places asks]
        simp [submissions, List.countP_append, List.countP_singleton]
      have below : submissions (ops ++ [op]) + rest.countP Entry.places < 2 ^ 31 := by omega
      obtain ⟨s, log', ran', -⟩ := run_defined ((Nat.le_add_right _ _).trans_lt below)
      obtain ⟨t, before, reply, early, stepped, -⟩ := Runs.run_snoc_iff.mp ran'
      obtain ⟨rfl, -⟩ := Prod.mk.inj (Option.some.inj (ran.symm.trans early))
      have performed : ui.perform orderBook e.choice (.call op) =
          some (ui.answered s reply, [(op, reply)], e.choice.answer reply) := by
        have called : orderBook.step ui.book op = some (s, reply) := stepped
        rw [Ui.perform, called, Option.map_some]
      have kept : (ui.answered s reply).book = s := by cases reply <;> rfl
      rw [performed]
      exact ih (by rw [kept]; exact ran') below
    | showMarket =>
      obtain ⟨asks, sells⟩ : ∃ asks, ui.book.getDepthAsks 10 = some asks := getDepth_ten ui.book false
      obtain ⟨bids, buys⟩ : ∃ bids, ui.book.getDepthBids 10 = some bids := getDepth_ten ui.book true
      rw [Ui.perform, market_eq sells buys, Option.map_some]
      exact ih ran (by omega)
    | showBalance => exact ih ran (by omega)

/--
A session in which a user signs up first is performed as it is typed: every entry is read from its
text, however its numbers are written, whatever white space separates its fields and whatever lines
are refused at each of its prompts, and acts for the user that signed up last. From a book in use
the session comes to its exit, unless the ids of the orders run out.
-/
theorem typed_session_performed (s : Impl) {name : List Char} {entries : List Entry}
    {text : List Char} (script : Script (.signUp name :: entries) text) {rest : List Char}
    (breaks : Breaks rest) :
    runUi orderBook s (text ++ rest) = enter orderBook { book := s } (.signUp name :: entries) ∧
      ∀ ops log, Runs.run step new ops = some (s, log) →
        submissions ops + entries.countP Entry.places < 2 ^ 31 →
        (runUi orderBook s (text ++ rest)).ending = .bye := by
  have performed : runUi orderBook s (text ++ rest) =
      enter orderBook { book := s } (.signUp name :: entries) := by
    cases script with
    | entry typed apart others =>
      rw [runUi, List.append_assoc]
      refine typed.uiLoop (.inr trivial) (apart.append others.some rest) ?_
      intro ui' calls shown performed
      have signed : ui'.hasUser = true := by
        cases performed
        rfl
      exact others.uiLoop signed breaks
  refine ⟨performed, fun ops log ran few => ?_⟩
  have counts : submissions ops + (Entry.signUp name :: entries).countP Entry.places < 2 ^ 31 := by
    simpa [Entry.places] using few
  rw [performed]
  exact enter_bye ran counts

def eveEntries : List Entry := [.limitBid 15050 3, .cancelAsk 0]

def eveText : List Char :=
  "1 eve\n+04\tcheap\n99999999999999999999\n\n 015050 -\n3\n9 -0\n10".toList

theorem numeral_text {V : Type} {accept : Number → Option V} {v : V}
    (space sign digits : List Char) (negative : Bool)
    (spelled : space.all isSpace = true ∧ sign ∈ Reading.signs negative ∧ digits ≠ [] ∧
      digits.all Char.isDigit = true)
    (accepted : accept ⟨negative, digits⟩ = Option.some v) :
    Numeral accept v (space ++ (sign ++ digits)) :=
  .mk (List.all_eq_true.mp spelled.1)
    ⟨spelled.2.2.1, List.all_eq_true.mp spelled.2.2.2, sign, spelled.2.1, rfl⟩ accepted

theorem prompted_after {V : Type} {accept : Number → Option V} {v : V} {text : List Char}
    (space line : List Char) (blank : space.all isSpace = true)
    (refused : '\n' ∉ line ∧ skipSpace line ≠ [] ∧ accept (readNumber line).1 = none)
    (later : Prompted accept v text) : Prompted accept v (space ++ (line ++ '\n' :: text)) :=
  .refused (List.all_eq_true.mp blank) ⟨refused.1, refused.2.1, refused.2.2⟩ later

theorem eveScript : Script (.signUp "eve".toList :: eveEntries) eveText := by
  have gap : Breaks ([' '] ++ "eve".toList) := breaks_blank
  have dark : ∀ ch ∈ "eve".toList, isSpace ch = false := by simp [isSpace]
  have one : Chosen 1 "1".toList := numeral_text [] [] ['1'] false (by decide) (by decide)
  have signUp : Types (.signUp "eve".toList) "1 eve".toList :=
    .signUp one gap blank_isSpace (by decide) dark
  have four : Chosen 4 "\n+04".toList :=
    numeral_text ['\n'] ['+'] ['0', '4'] false (by decide) (by decide)
  have price : PromptedU64 15050 "\tcheap\n99999999999999999999\n\n 015050".toList := by
    refine prompted_after ['\t'] "cheap".toList (by decide) (by decide) ?_
    refine prompted_after [] "99999999999999999999".toList (by decide) (by decide) (.number ?_)
    exact numeral_text ['\n', ' '] [] "015050".toList false (by decide) (by decide)
  have qty : PromptedU64 3 " -\n3".toList := by
    refine prompted_after [' '] ['-'] (by decide) (by decide) (.number ?_)
    exact numeral_text [] [] ['3'] false (by decide) (by decide)
  have limitBid : Types (.limitBid 15050 3)
      "\n+04\tcheap\n99999999999999999999\n\n 015050 -\n3".toList :=
    .limitBid four (by rintro _ ⟨⟩; rfl) price (by rintro _ ⟨⟩; rfl) qty
  have nine : Chosen 9 "\n9".toList := numeral_text ['\n'] [] ['9'] false (by decide) (by decide)
  have id : PromptedU64 0 " -0".toList :=
    .number (numeral_text [' '] ['-'] ['0'] true (by decide) (by decide))
  have cancelAsk : Types (.cancelAsk 0) "\n9 -0".toList :=
    .cancelAsk nine (by rintro _ ⟨⟩; rfl) id
  have ten : Chosen 10 "\n10".toList :=
    numeral_text ['\n'] [] ['1', '0'] false (by decide) (by decide)
  have others : Script [.cancelAsk 0] "\n9 -0\n10".toList :=
    .entry cancelAsk (by rintro _ ⟨⟩; rfl) (.exit ten)
  exact .entry signUp (by rintro _ ⟨⟩; rfl) (.entry limitBid (by rintro _ ⟨⟩; rfl) others)

theorem typed_session_performed_eve :
    runUi orderBook new (eveText ++ "\nbye".toList) =
        enter orderBook { book := new } (.signUp "eve".toList :: eveEntries) ∧
      (runUi orderBook new (eveText ++ "\nbye".toList)).ending = .bye := by
  have apart : Breaks "\nbye".toList := by
    rintro _ ⟨⟩
    rfl
  obtain ⟨performed, ends⟩ := typed_session_performed new eveScript apart
  exact ⟨performed, ends [] [] rfl (by decide)⟩

end CppPractice.OrderBook
