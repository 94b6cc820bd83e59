import CppPractice.Wrapper.Terminal

set_option autoImplicit false

namespace CppPractice.OrderBook

open Reading (readNumber Number Stops)

theorem moneyToStr_toList (cents : Money) : (moneyToStr cents).toList =
    Reading.minus (decide (cents < 0)) ++ (Nat.toDigits 10 (cents.natAbs / 100) ++
      '.' :: (Nat.toDigits 10 (cents.natAbs % 100)).leftpad 2 '0') := by
  by_cases negative : cents < 0 <;> simp [moneyToStr, twoDigits, Reading.minus, negative]

theorem leftpad_digits (n : Nat) : ∀ ch ∈ (Nat.toDigits 10 n).leftpad 2 '0',
    ch.isDigit = true := by
  intro ch member
  rw [List.leftpad, List.mem_append] at member
  rcases member with zero | digit
  · rw [List.eq_of_mem_replicate zero]
    rfl
  · exact Reading.decimal_digits n ch digit

theorem leftpad_value {n : Nat} (small : n < 100) (dollars : Nat) :
    Nat.ofDigitChars 10 ((Nat.toDigits 10 n).leftpad 2 '0') dollars = 100 * dollars + n := by
  have short : (Nat.toDigits 10 n).length ≤ 2 :=
    (Nat.length_toDigits_le_iff (by decide) (by decide)).mpr small
  have two : ((Nat.toDigits 10 n).leftpad 2 '0').length = 2 := by
    rw [List.length_leftpad]
    omega
  rw [Nat.ofDigitChars_eq_ofDigitChars_zero, two, List.leftpad, Nat.ofDigitChars_append,
    Nat.ofDigitChars_replicate_zero, Nat.mul_zero, Nat.ofDigitChars_ten_toDigits]

theorem filter_digits {digits : List Char} (all : ∀ ch ∈ digits, ch.isDigit = true) :
    digits.filter (fun ch => ch ≠ '.') = digits := by
  refine List.filter_eq_self.mpr fun ch member => decide_eq_true ?_
  rintro rfl
  exact absurd (all _ member) (by decide)

-- Without its point, what is shown of an amount is read back as the number of cents.
theorem moneyToStr_value (cents : Money) :
    (readNumber ((moneyToStr cents).toList.filter fun ch => ch ≠ '.')).1.value = cents := by
  have whole := Reading.decimal_digits (cents.natAbs / 100)
  have part := leftpad_digits (cents.natAbs % 100)
  have all : ∀ ch ∈ Nat.toDigits 10 (cents.natAbs / 100) ++
      (Nat.toDigits 10 (cents.natAbs % 100)).leftpad 2 '0', ch.isDigit = true :=
    fun ch member => (List.mem_append.mp member).elim (whole ch) (part ch)
  have text : (moneyToStr cents).toList.filter (fun ch => ch ≠ '.') =
      [] ++ ((Reading.minus (decide (cents < 0)) ++ (Nat.toDigits 10 (cents.natAbs / 100) ++
        (Nat.toDigits 10 (cents.natAbs % 100)).leftpad 2 '0')) ++ []) := by
    rw [moneyToStr_toList, List.filter_append, List.filter_append, filter_digits whole,
      List.filter_cons_of_neg (by decide), filter_digits part, List.append_nil, List.nil_append]
    cases decide (cents < 0) <;> rfl
  have units : Nat.ofDigitChars 10 (Nat.toDigits 10 (cents.natAbs / 100) ++
      (Nat.toDigits 10 (cents.natAbs % 100)).leftpad 2 '0') 0 = cents.natAbs := by
    rw [Nat.ofDigitChars_append, Nat.ofDigitChars_ten_toDigits,
      leftpad_value (Nat.mod_lt _ (by decide)), Nat.div_add_mod]
  rw [text, (Reading.minus_written _ all
    (List.append_ne_nil_of_left_ne_nil Nat.toDigits_ne_nil _)).read (List.forall_mem_nil _)
      Reading.breaks_nil]
  exact Reading.value_digits units

theorem moneyToStr_injective : Function.Injective moneyToStr := by
  intro cents cents' same
  rw [← moneyToStr_value cents, same, moneyToStr_value]

theorem moneyToStr_dark (cents : Money) :
    ∀ ch ∈ (moneyToStr cents).toList, decide (ch ≠ ' ') = true := by
  intro ch member
  rw [decide_eq_true_eq]
  rintro rfl
  rw [moneyToStr_toList, List.mem_append, List.mem_append, List.mem_cons] at member
  rcases member with sign | whole | point | part
  · rw [Reading.minus] at sign
    split_ifs at sign <;> simp at sign
  · cases Reading.decimal_digits _ _ whole
  · cases point
  · cases leftpad_digits _ _ part

theorem space_stops (left : List Char) : Stops (fun ch => decide (ch ≠ ' ')) (' ' :: left) := by
  rintro _ ⟨⟩
  rfl

theorem space_digit (left : List Char) : Stops Char.isDigit (' ' :: left) := by
  rintro _ ⟨⟩
  rfl

theorem toDigits_cancel {w : Nat} {x y : BitVec w}
    (same : Nat.toDigits 10 x.toNat = Nat.toDigits 10 y.toNat) : x = y := by
  have value := congrArg (fun digits => Nat.ofDigitChars 10 digits 0) same
  rw [Nat.ofDigitChars_ten_toDigits, Nat.ofDigitChars_ten_toDigits] at value
  exact BitVec.eq_of_toNat_eq value

theorem levelText_append (price : Price) (qty : Qty) (rest : List Char) :
    (levelText price qty).toList ++ rest = (moneyToStr price).toList ++
      ' ' :: 'x' :: ' ' :: (Nat.toDigits 10 qty.toNat ++ '\n' :: rest) := by
  have text : (levelText price qty).toList = (moneyToStr price).toList ++
      ([' ', 'x', ' '] ++ (Nat.toDigits 10 qty.toNat ++ ['\n'])) := by
    simp only [levelText, priceToStr, String.toList_append, Nat.toList_repr, Nat.toString_eq_repr,
      List.append_assoc]
    rfl
  rw [text]
  simp only [List.append_assoc, List.cons_append, List.nil_append]

section

variable {rest rest' : List Char}

theorem levelText_cancel {price price' : Price} {qty qty' : Qty}
    (same : (levelText price qty).toList ++ rest = (levelText price' qty').toList ++ rest') :
    (price = price' ∧ qty = qty') ∧ rest = rest' := by
  have newline : ∀ left, Stops Char.isDigit ('\n' :: left) := by
    rintro left _ ⟨⟩
    rfl
  rw [levelText_append, levelText_append] at same
  obtain ⟨money, later⟩ := Reading.field_cancel (moneyToStr_dark _) (moneyToStr_dark _)
    (space_stops _) (space_stops _) same
  simp only [List.cons.injEq, true_and] at later
  obtain ⟨units, last⟩ := Reading.field_cancel (Reading.decimal_digits _)
    (Reading.decimal_digits _) (newline _) (newline _) later
  exact ⟨⟨moneyToStr_injective (String.toList_injective money), toDigits_cancel units⟩,
    (List.cons.inj last).2⟩

theorem dash_apart (price : Price) (qty : Qty) :
    "-\n".toList ++ rest ≠ (levelText price qty).toList ++ rest' := by
  intro same
  rw [levelText_append, moneyToStr_toList] at same
  obtain ⟨ch, digits, whole⟩ := List.exists_cons_of_ne_nil
    (Nat.toDigits_ne_nil (n := price.natAbs / 100) (b := 10))
  have digit := Reading.decimal_digits (price.natAbs / 100) ch
    (by rw [whole]; exact List.mem_cons_self)
  have dash : "-\n".toList = ['-', '\n'] := rfl
  rw [whole, dash] at same
  cases negative : decide (price < 0) with
  | true =>
    rw [negative] at same
    obtain ⟨-, second⟩ := List.cons.inj same
    obtain ⟨rfl, -⟩ := List.cons.inj second
    cases digit
  | false =>
    rw [negative] at same
    obtain ⟨rfl, -⟩ := List.cons.inj same
    cases digit

theorem bestText_cancel {best best' : Option QuoteLevel}
    (same : (bestText best).toList ++ rest = (bestText best').toList ++ rest') :
    best = best' ∧ rest = rest' := by
  cases best with
  | none =>
    cases best' with
    | none => exact ⟨rfl, List.append_cancel_left same⟩
    | some l => exact absurd same (dash_apart l.price l.qty)
  | some l =>
    cases best' with
    | none => exact absurd same.symm (dash_apart l.price l.qty)
    | some l' =>
      cases l
      cases l'
      obtain ⟨⟨rfl, rfl⟩, left⟩ := levelText_cancel same
      exact ⟨rfl, left⟩

theorem depthText_cons (l : DepthLevel) (levels : List DepthLevel) (rest : List Char) :
    (depthText (l :: levels)).toList ++ rest =
      ' ' :: ' ' :: ((levelText l.price l.qty).toList ++ ((depthText levels).toList ++ rest)) := by
  rw [depthText, List.map_cons, String.join_cons, String.toList_append, String.toList_append,
    List.append_assoc, List.append_assoc]
  rfl

theorem depthText_cancel {levels levels' : List DepthLevel} (ends : rest.head? ≠ some ' ')
    (ends' : rest'.head? ≠ some ' ')
    (same : (depthText levels).toList ++ rest = (depthText levels').toList ++ rest') :
    levels = levels' ∧ rest = rest' := by
  induction levels generalizing levels' with
  | nil =>
    cases levels' with
    | nil => exact ⟨rfl, same⟩
    | cons l levels' =>
      rw [depthText_cons] at same
      exact absurd (congrArg List.head? same) ends
  | cons l levels ih =>
    cases levels' with
    | nil =>
      rw [depthText_cons] at same
      exact absurd (congrArg List.head? same.symm) ends'
    | cons l' levels' =>
      rw [depthText_cons, depthText_cons] at same
      obtain ⟨⟨price, qty⟩, later⟩ :=
        levelText_cancel (List.cons.inj (List.cons.inj same).2).2
      obtain ⟨others, left⟩ := ih later
      exact ⟨by rw [DepthLevel.ext price qty, others], left⟩

theorem append_toList (a b c d e f g h : String) : (a ++ b ++ c ++ d ++ e ++ f ++ g ++ h).toList =
    a.toList ++ (b.toList ++ (c.toList ++ (d.toList ++ (e.toList ++ (f.toList ++
      (g.toList ++ h.toList)))))) := by
  simp only [String.toList_append, List.append_assoc]

theorem marketText_toList (quote : Quote) (asks bids : List DepthLevel) :
    (marketText quote asks bids).toList = "\nGOOGL Depth: CURRENT MARKET PRICES\n".toList ++
      ("Best bid:  ".toList ++ ((bestText quote.bestBid).toList ++ ("Best ask:  ".toList ++
      ((bestText quote.bestAsk).toList ++ ("\nAsks above:\n".toList ++
      ((depthText asks).toList ++ ("Bids below:\n".toList ++ (depthText bids).toList))))))) :=
  append_toList _ _ _ _ _ _ _ _

theorem marketText_injective {quote quote' : Quote} {asks asks' bids bids' : List DepthLevel}
    (same : marketText quote asks bids = marketText quote' asks' bids') :
    quote = quote' ∧ asks = asks' ∧ bids = bids' := by
  have text := congrArg String.toList same
  rw [marketText_toList, marketText_toList, List.append_cancel_left_eq,
    List.append_cancel_left_eq] at text
  obtain ⟨bid, text⟩ := bestText_cancel text
  rw [List.append_cancel_left_eq] at text
  obtain ⟨ask, text⟩ := bestText_cancel text
  rw [List.append_cancel_left_eq] at text
  have ends : ∀ left, ("Bids below:\n".toList ++ left).head? ≠ some ' ' := by
    intro left
    rw [List.head?_append]
    simp
  obtain ⟨sells, buys⟩ := depthText_cancel (ends _) (ends _) text
  rw [List.append_cancel_left_eq] at buys
  rw [← List.append_nil (depthText bids).toList, ← List.append_nil (depthText bids').toList] at buys
  obtain ⟨bought, -⟩ := depthText_cancel (by simp) (by simp) buys
  cases quote
  cases quote'
  rw [Quote.mk.injEq]
  exact ⟨⟨bid, ask⟩, sells, bought⟩

theorem balanceText_toList (b : Balance) : (balanceText b).toList =
    "User balance:\n  quote: ".toList ++ ((moneyToStr b.quote).toList ++
      (" cents\n  base:  ".toList ++ (Nat.toDigits 10 b.base.toNat ++ " shares\n".toList))) := by
  have parts : ∀ a b c d e : String, (a ++ b ++ c ++ d ++ e).toList =
      a.toList ++ (b.toList ++ (c.toList ++ (d.toList ++ e.toList))) := by
    intro a b c d e
    simp only [String.toList_append, List.append_assoc]
  have text := parts "User balance:\n  quote: " (moneyToStr b.quote) " cents\n  base:  "
    b.base.toNat.repr " shares\n"
  rw [Nat.toList_repr] at text
  exact text

theorem balanceText_injective : Function.Injective balanceText := by
  intro b b' same
  have text := congrArg String.toList same
  rw [balanceText_toList, balanceText_toList, List.append_cancel_left_eq] at text
  have cents : " cents\n  base:  ".toList = ' ' :: "cents\n  base:  ".toList := by simp
  have shares : " shares\n".toList = ' ' :: "shares\n".toList := by simp
  rw [cents, List.cons_append, List.cons_append] at text
  obtain ⟨quote, later⟩ := Reading.field_cancel (moneyToStr_dark _) (moneyToStr_dark _)
    (space_stops _) (space_stops _) text
  rw [List.cons.injEq, List.append_cancel_left_eq, shares] at later
  obtain ⟨base, -⟩ := Reading.field_cancel (Reading.decimal_digits _) (Reading.decimal_digits _)
    (space_digit _) (space_digit _) later.2
  cases b
  cases b'
  rw [Balance.mk.injEq]
  exact ⟨moneyToStr_injective (String.toList_injective quote), toDigits_cancel base⟩

end

theorem getDepth_ten (s : Impl) (bids : Bool) : ∃ levels, s.getDepth bids 10 = some levels := by
  rw [Impl.getDepth, if_neg (by decide)]
  dsimp only
  cases s.engine.bestPrice (if bids = true then Side.Buy else Side.Sell) with
  | none => exact ⟨_, rfl⟩
  | some p => exact ⟨_, rfl⟩

theorem market_eq {s : Impl} {asks bids : List DepthLevel}
    (sells : s.getDepthAsks 10 = some asks) (buys : s.getDepthBids 10 = some bids) :
    orderBook.market s = some (marketText s.getQuote asks bids) := by
  have parts : orderBook.market s = (s.getDepthAsks 10).bind fun asks =>
      (s.getDepthBids 10).map fun bids => marketText s.getQuote asks bids := rfl
  rw [parts, sells, buys, Option.bind_some, Option.map_some]

theorem same_screen_iff (s t : Impl) :
    (orderBook.market s = orderBook.market t ↔ s.getQuote = t.getQuote ∧
      s.getDepthAsks 10 = t.getDepthAsks 10 ∧ s.getDepthBids 10 = t.getDepthBids 10) ∧
    ∀ user user', balanceText (s.getBalance user) = balanceText (t.getBalance user') ↔
      s.getBalance user = t.getBalance user' := by
  refine ⟨?_, fun user user' => balanceText_injective.eq_iff⟩
  obtain ⟨asks, sells⟩ : ∃ asks, s.getDepthAsks 10 = some asks := getDepth_ten s false
  obtain ⟨bids, buys⟩ : ∃ bids, s.getDepthBids 10 = some bids := getDepth_ten s true
  obtain ⟨asks', sells'⟩ : ∃ asks, t.getDepthAsks 10 = some asks := getDepth_ten t false
  obtain ⟨bids', buys'⟩ : ∃ bids, t.getDepthBids 10 = some bids := getDepth_ten t true
  rw [market_eq sells buys, market_eq sells' buys', sells, buys, sells', buys',
    Option.some.injEq, Option.some.injEq, Option.some.injEq]
  constructor
  · exact marketText_injective
  · rintro ⟨quote, rfl, rfl⟩
    rw [quote]

end CppPractice.OrderBook
