import Mathlib.Logic.Function.Basic
import Mathlib.Order.Bounds.Basic
import Mathlib.Tactic.Common

set_option autoImplicit false

namespace Bitset

abbrev Words := Nat → BitVec 64

def wordIndex (bit : Nat) : Nat := bit / 64

def bitMask (bit : Nat) : BitVec 64 := 1#64 <<< (bit % 64)

def assign (words : Words) (bit : Nat) (value : Bool) : Words :=
  let w := wordIndex bit
  let m := bitMask bit
  if value then Function.update words w (words w ||| m)
  else Function.update words w (words w &&& ~~~m)

def test (words : Words) (bit : Nat) : Bool :=
  words (wordIndex bit) &&& bitMask bit ≠ 0

theorem bitMask_getLsbD (bit index : Nat) (inside : index < 64) :
    (bitMask bit).getLsbD index = decide (index = bit % 64) := by
  have small : bit % 64 < 64 := Nat.mod_lt _ (by decide)
  simp only [bitMask, BitVec.getLsbD_shiftLeft, BitVec.getLsbD_one]
  by_cases below : index < bit % 64
  · simp [below, Nat.ne_of_lt below]
  · simp [below, inside]
    omega

theorem test_eq (words : Words) (bit : Nat) :
    test words bit = (words (bit / 64)).getLsbD (bit % 64) := by
  have small : bit % 64 < 64 := Nat.mod_lt _ (by decide)
  rw [Bool.eq_iff_iff, test, decide_eq_true_iff]
  constructor
  · intro nonzero
    by_contra clear
    apply nonzero
    apply BitVec.eq_of_getLsbD_eq
    intro index inside
    rw [BitVec.getLsbD_and, bitMask_getLsbD bit index inside]
    by_cases same : index = bit % 64
    · subst same
      simpa [wordIndex] using clear
    · simp [same]
  · intro present zero
    have := congrArg (fun word => word.getLsbD (bit % 64)) zero
    rw [BitVec.getLsbD_and, bitMask_getLsbD bit _ small] at this
    simp [wordIndex, present] at this

theorem test_assign (words : Words) (bit other : Nat) (value : Bool) :
    test (assign words bit value) other = if other = bit then value else test words other := by
  have small : other % 64 < 64 := Nat.mod_lt _ (by decide)
  rw [test_eq, test_eq]
  by_cases sameWord : other / 64 = bit / 64
  · have sameBit : other = bit ↔ other % 64 = bit % 64 := by omega
    cases value <;> by_cases same : other % 64 = bit % 64 <;>
      simp [assign, wordIndex, sameWord, sameBit, same, bitMask_getLsbD, small,
        -BitVec.getLsbD_eq_getElem]
    all_goals simp_all [bitMask_getLsbD, -BitVec.getLsbD_eq_getElem]
  · have different : other ≠ bit := by
      rintro rfl
      exact sameWord rfl
    cases value <;> simp [assign, wordIndex, Function.update_of_ne sameWord, different]

def scanDown (limit : Nat) (words : Words) : Nat → Option Nat
  | 0 => none
  | w + 1 =>
    let x := words w
    if x = 0 then scanDown limit words w
    else
      let msb := 63 - x.clz.toNat
      let level := w * 64 + msb
      if level < limit then some level else scanDown limit words w

def scanUp (limit : Nat) (words : Words) (w : Nat) : Nat → Option Nat
  | 0 => none
  | count + 1 =>
    let x := words w
    if x = 0 then scanUp limit words (w + 1) count
    else
      let lsb := x.ctz.toNat
      let level := w * 64 + lsb
      if level < limit then some level else scanUp limit words (w + 1) count

theorem test_word (words : Words) (w index : Nat) (inside : index < 64) :
    test words (w * 64 + index) = (words w).getLsbD index := by
  rw [test_eq]
  congr 2 <;> omega

theorem word_of_test {words : Words} {w bit : Nat} (zero : words w = 0)
    (present : test words bit = true) : bit / 64 ≠ w := by
  rintro rfl
  simp [test_eq, zero] at present

theorem msb_isGreatest {x : BitVec 64} (nonzero : x ≠ 0) :
    x.getLsbD (63 - x.clz.toNat) = true ∧
      ∀ index, x.getLsbD index = true → index ≤ 63 - x.clz.toNat := by
  refine ⟨BitVec.getLsbD_true_clz_of_ne_zero (by decide) nonzero, ?_⟩
  intro index present
  by_contra beyond
  have low : x.toNat < 2 ^ index :=
    lt_of_lt_of_le BitVec.toNat_lt_two_pow_sub_clz (Nat.pow_le_pow_right (by decide) (by omega))
  rw [BitVec.getLsbD, Nat.testBit_lt_two_pow low] at present
  exact absurd present (by decide)

theorem lsb_isLeast {x : BitVec 64} (nonzero : x ≠ 0) :
    x.getLsbD x.ctz.toNat = true ∧ ∀ index, x.getLsbD index = true → x.ctz.toNat ≤ index := by
  refine ⟨BitVec.getLsbD_true_ctz_of_ne_zero nonzero, ?_⟩
  intro index present
  by_contra below
  rw [BitVec.getLsbD_false_of_lt_ctz (by omega)] at present
  exact absurd present (by decide)

theorem ctz_lt {x : BitVec 64} (nonzero : x ≠ 0) : x.ctz.toNat < 64 := by
  by_contra big
  have present := (lsb_isLeast nonzero).1
  rw [BitVec.getLsbD_of_ge _ _ (by omega)] at present
  exact absurd present (by decide)

-- Every member lies below `limit`; then a scan's bound check never rejects a bit.
def Within (words : Words) (limit : Nat) : Prop :=
  ∀ bit, test words bit = true → bit < limit

theorem Within.assign {words : Words} {limit bit : Nat} (within : Within words limit)
    (inside : bit < limit) (value : Bool) : Within (assign words bit value) limit := by
  intro other present
  rw [test_assign] at present
  split at present
  · simp_all
  · exact within other present

theorem scanDown_spec {limit : Nat} {words : Words} (within : Within words limit) (count : Nat) :
    match scanDown limit words count with
    | none => ∀ bit, bit < 64 * count → test words bit = false
    | some level => IsGreatest {bit | bit < 64 * count ∧ test words bit = true} level := by
  induction count with
  | zero => simp [scanDown]
  | succ w ih =>
    rw [scanDown]
    by_cases zero : words w = 0
    · -- An empty word adds no member.
      have skip (bit : Nat) (below : bit < 64 * (w + 1)) (present : test words bit = true) :
          bit < 64 * w := by
        have := word_of_test zero present
        omega
      rw [if_pos zero]
      cases found : scanDown limit words w with
      | none =>
        rw [found] at ih
        intro bit below
        by_contra present
        have present : test words bit = true := by simpa using present
        simp [ih bit (skip bit below present)] at present
      | some level =>
        rw [found] at ih
        refine ⟨⟨by have := ih.1.1; omega, ih.1.2⟩, ?_⟩
        rintro bit ⟨below, present⟩
        exact ih.2 ⟨skip bit below present, present⟩
    · obtain ⟨present, greatest⟩ := msb_isGreatest zero
      have member : test words (w * 64 + (63 - (words w).clz.toNat)) = true := by
        rw [test_word words w _ (by omega), present]
      rw [if_neg zero]
      simp only [if_pos (within _ member)]
      refine ⟨⟨by omega, member⟩, ?_⟩
      rintro bit ⟨below, other⟩
      by_cases word : bit / 64 = w
      · rw [test_eq, word] at other
        have := greatest _ other
        omega
      · omega

theorem scanUp_spec {limit : Nat} {words : Words} (within : Within words limit) (w count : Nat) :
    match scanUp limit words w count with
    | none => ∀ bit, 64 * w ≤ bit → bit < 64 * (w + count) → test words bit = false
    | some level =>
      IsLeast {bit | 64 * w ≤ bit ∧ bit < 64 * (w + count) ∧ test words bit = true} level := by
  induction count generalizing w with
  | zero =>
    intro bit low high
    omega
  | succ count ih =>
    rw [scanUp]
    by_cases zero : words w = 0
    · have skip (bit : Nat) (low : 64 * w ≤ bit) (present : test words bit = true) :
          64 * (w + 1) ≤ bit := by
        have := word_of_test zero present
        omega
      have next := ih (w + 1)
      rw [if_pos zero]
      cases found : scanUp limit words (w + 1) count with
      | none =>
        rw [found] at next
        intro bit low high
        by_contra present
        have present : test words bit = true := by simpa using present
        simp [next bit (skip bit low present) (by omega)] at present
      | some level =>
        rw [found] at next
        refine ⟨⟨by have := next.1.1; omega, by have := next.1.2.1; omega, next.1.2.2⟩, ?_⟩
        rintro bit ⟨low, high, present⟩
        exact next.2 ⟨skip bit low present, by omega, present⟩
    · obtain ⟨present, least⟩ := lsb_isLeast zero
      have small := ctz_lt zero
      have member : test words (w * 64 + (words w).ctz.toNat) = true := by
        rw [test_word words w _ small, present]
      rw [if_neg zero]
      simp only [if_pos (within _ member)]
      refine ⟨⟨by omega, by omega, member⟩, ?_⟩
      rintro bit ⟨low, high, other⟩
      by_cases word : bit / 64 = w
      · rw [test_eq, word] at other
        have := least _ other
        omega
      · omega

end Bitset
