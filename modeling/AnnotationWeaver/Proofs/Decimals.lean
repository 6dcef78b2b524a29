import AnnotationWeaver.Decimal.Shortest
import Mathlib.Algebra.Order.Field.Power
import Mathlib.Data.Rat.Cast.Order
import Mathlib.Tactic.FieldSimp
import Mathlib.Tactic.Linarith
import Mathlib.Tactic.NormNum
import Mathlib.Tactic.Positivity
import Mathlib.Tactic.Ring

/-!
Shortest decimals tell numbers apart. What rounds to a number is an interval around it, and the intervals of two numbers
of one format have no point in common: where one ends the next begins, and the end belongs to that one of the two
whose last place is even. The shortest decimal is in the interval of its number, as the search always finds
one: twenty digits make a grid that is finer than the narrowest interval.
-/
namespace AnnotationWeaver.Decimal

/-! ### Grids -/

/-- The number that a decimal stands for. -/
def Scaled.value (s : Scaled) : ℚ := s.digits * 10 ^ s.scale

theorem shiftLeft_one_pos (n : Nat) : 0 < 1 <<< n := by
  rw [Nat.one_shiftLeft]
  exact Nat.two_pow_pos n

/-- A fraction with a power of two and one of ten has them on the sides on which they are natural numbers. -/
theorem scaledFraction_spec (a : Nat) (place scale : Int) :
    0 < (scaledFraction a place scale).2 ∧
      ((scaledFraction a place scale).1 : ℚ) * 10 ^ scale = a * 2 ^ place * (scaledFraction a place scale).2 := by
  have two : (2 : ℚ) ^ place * 2 ^ (-place).toNat = 2 ^ place.toNat := by
    rw [← zpow_natCast, ← zpow_natCast, ← zpow_add₀ two_ne_zero]
    congr 1
    omega
  have ten : (10 : ℚ) ^ scale * 10 ^ (-scale).toNat = 10 ^ scale.toNat := by
    rw [← zpow_natCast, ← zpow_natCast, ← zpow_add₀ (by norm_num)]
    congr 1
    omega
  refine ⟨Nat.mul_pos (shiftLeft_one_pos _) (Nat.pow_pos (by decide)), ?_⟩
  simp only [scaledFraction, Nat.shiftLeft_eq, Nat.pow_eq, one_mul]
  push_cast
  rw [← two, ← ten]
  ring

/-- Comparisons with points of a grid are comparisons of fractions. -/
theorem grid_cmp (a k : Nat) (place scale : Int) :
    ((scaledFraction a place scale).1 ≤ k * (scaledFraction a place scale).2 ↔ (a : ℚ) * 2 ^ place ≤ k * 10 ^ scale) ∧
      (k * (scaledFraction a place scale).2 ≤ (scaledFraction a place scale).1 ↔
        (k : ℚ) * 10 ^ scale ≤ a * 2 ^ place) := by
  obtain ⟨positive, same⟩ := scaledFraction_spec a place scale
  generalize (scaledFraction a place scale).1 = num at same
  generalize (scaledFraction a place scale).2 = den at same positive
  have den_pos : (0 : ℚ) < den := by exact_mod_cast positive
  have ten_pos : (0 : ℚ) < 10 ^ scale := by positivity
  have point : (k : ℚ) * 10 ^ scale * den = (k * den : Nat) * 10 ^ scale := by push_cast; ring
  constructor
  · rw [← mul_le_mul_iff_of_pos_right den_pos, ← same, point, mul_le_mul_iff_of_pos_right ten_pos, Nat.cast_le]
  · rw [← mul_le_mul_iff_of_pos_right den_pos, ← same, point, mul_le_mul_iff_of_pos_right ten_pos, Nat.cast_le]

namespace Interval

/-- The fraction rounds to the number. -/
def Holds (i : Interval) (x : ℚ) : Prop :=
  if i.closed then i.low * 2 ^ i.place ≤ x ∧ x ≤ i.high * 2 ^ i.place
  else (i.low : ℚ) * 2 ^ i.place < x ∧ x < i.high * 2 ^ i.place

variable {i : Interval} {tie : Tie} {scale : Int}

/-- The point of the grid below the number, or at it. -/
def down (i : Interval) (scale : Int) : Nat :=
  (scaledFraction i.value i.place scale).1 / (scaledFraction i.value i.place scale).2

theorem down_le (i : Interval) (scale : Int) : (i.down scale : ℚ) * 10 ^ scale ≤ i.value * 2 ^ i.place :=
  (grid_cmp _ _ _ _).2.1 (Nat.div_mul_le_self _ _)

theorem lt_down_succ (i : Interval) (scale : Int) : i.value * 2 ^ i.place < ((i.down scale + 1 : Nat) : ℚ) * 10 ^ scale := by
  have positive := (scaledFraction_spec i.value i.place scale).1
  have beyond : ¬(i.down scale + 1) * (scaledFraction i.value i.place scale).2 ≤ (scaledFraction i.value i.place scale).1 :=
    Nat.not_le.2 (Nat.lt_mul_of_div_lt (Nat.lt_succ_self _) positive)
  exact not_le.1 fun reached => beyond ((grid_cmp _ _ _ _).2.2 reached)

/-- Of two options that are tried in an order, the one that is taken applies, and none is taken only if none applies. -/
theorem choice_cases {α : Type} {first second preferred : Prop} [Decidable first] [Decidable second] [Decidable preferred]
    (a b : α) {choice : Option α}
    (chosen : choice = if first ∧ (¬second ∨ preferred) then some a else if second then some b else none) :
    choice = some a ∧ first ∨ choice = some b ∧ second ∨ choice = none ∧ ¬first ∧ ¬second := by
  subst chosen
  by_cases one : first <;> by_cases two : second <;> by_cases three : preferred <;> simp [one, two, three]

/-- The grid point above the number is within the upper end. -/
theorem holds_up_iff (ordered : i.low < i.value) :
    i.Holds ((i.down scale + 1 : Nat) * 10 ^ scale) ↔
      if i.closed then
        (i.down scale + 1) * (scaledFraction i.value i.place scale).2 ≤ (scaledFraction i.high i.place scale).1
      else (i.down scale + 1) * (scaledFraction i.value i.place scale).2 < (scaledFraction i.high i.place scale).1 := by
  have low : (i.low : ℚ) * 2 ^ i.place < i.value * 2 ^ i.place := by gcongr
  have beyond := low.trans (i.lt_down_succ scale)
  obtain ⟨ge, le⟩ := grid_cmp i.high (i.down scale + 1) i.place scale
  unfold Holds
  split
  · exact ⟨fun inside => le.2 inside.2, fun reached => ⟨beyond.le, le.1 reached⟩⟩
  · constructor
    · rintro ⟨-, below⟩
      exact Nat.not_le.1 fun reached => not_le.2 below (ge.1 reached)
    · intro reached
      exact ⟨beyond, not_le.1 fun high => Nat.not_le.2 reached (ge.2 high)⟩

theorem holds_down_iff (ordered : i.value < i.high) :
    i.Holds (i.down scale * 10 ^ scale) ↔
      if i.closed then
        (scaledFraction i.low i.place scale).1 ≤ i.down scale * (scaledFraction i.value i.place scale).2
      else (scaledFraction i.low i.place scale).1 < i.down scale * (scaledFraction i.value i.place scale).2 := by
  have high : (i.value : ℚ) * 2 ^ i.place < i.high * 2 ^ i.place := by gcongr
  have below := (i.down_le scale).trans_lt high
  obtain ⟨le, ge⟩ := grid_cmp i.low (i.down scale) i.place scale
  unfold Holds
  split
  · exact ⟨fun inside => le.2 inside.1, fun reached => ⟨le.1 reached, below.le⟩⟩
  · constructor
    · rintro ⟨above, -⟩
      exact Nat.not_le.1 fun reached => not_le.2 above (ge.1 reached)
    · intro reached
      exact ⟨not_le.1 fun low => Nat.not_le.2 reached (ge.2 low), below⟩

theorem pick_cases (ordered : i.low < i.value ∧ i.value < i.high) (tie : Tie) (scale : Int) :
    i.pick tie scale = some ⟨i.down scale + 1, scale⟩ ∧ i.Holds ((i.down scale + 1 : Nat) * 10 ^ scale) ∨
      i.pick tie scale = some ⟨i.down scale, scale⟩ ∧ i.Holds (i.down scale * 10 ^ scale) ∨
      i.pick tie scale = none ∧ ¬i.Holds ((i.down scale + 1 : Nat) * 10 ^ scale) ∧ ¬i.Holds (i.down scale * 10 ^ scale) := by
  rw [holds_up_iff ordered.1, holds_down_iff ordered.2]
  exact choice_cases _ _ rfl

theorem holds_of_pick (ordered : i.low < i.value ∧ i.value < i.high) {s : Scaled} (picked : i.pick tie scale = some s) :
    i.Holds s.value := by
  obtain ⟨up, holds⟩ | ⟨down, holds⟩ | ⟨none, -⟩ := pick_cases ordered tie scale
  · cases up.symm.trans picked
    exact holds
  · cases down.symm.trans picked
    exact holds
  · cases none.symm.trans picked

theorem holds_of_lt {x : ℚ} (low : i.low * 2 ^ i.place < x) (high : x < i.high * 2 ^ i.place) : i.Holds x := by
  unfold Holds
  split
  · exact ⟨low.le, high.le⟩
  · exact ⟨low, high⟩

theorem Holds.low_le {x : ℚ} (holds : i.Holds x) :
    i.low * 2 ^ i.place ≤ x ∧ (i.closed = false → i.low * 2 ^ i.place < x) := by
  unfold Holds at holds
  split at holds
  · next closed => exact ⟨holds.1, by simp [closed]⟩
  · exact ⟨holds.1.le, fun _ => holds.1⟩

theorem Holds.le_high {x : ℚ} (holds : i.Holds x) :
    x ≤ i.high * 2 ^ i.place ∧ (i.closed = false → x < i.high * 2 ^ i.place) := by
  unfold Holds at holds
  split at holds
  · next closed => exact ⟨holds.2, by simp [closed]⟩
  · exact ⟨holds.2.le, fun _ => holds.2⟩

/-- Some point of a fine grid is in the interval. -/
theorem exists_pick (ordered : i.low < i.value ∧ i.value < i.high) (tie : Tie)
    (fine : (10 : ℚ) ^ scale < (i.high - i.low : ℚ) * 2 ^ i.place) : ∃ s, i.pick tie scale = some s := by
  obtain ⟨up, -⟩ | ⟨down, -⟩ | ⟨-, noUp, noDown⟩ := pick_cases ordered tie scale
  · exact ⟨_, up⟩
  · exact ⟨_, down⟩
  · exfalso
    have low : (i.low : ℚ) * 2 ^ i.place < i.value * 2 ^ i.place := by
      have := ordered.1
      gcongr
    have high : (i.value : ℚ) * 2 ^ i.place < i.high * 2 ^ i.place := by
      have := ordered.2
      gcongr
    have below := i.down_le scale
    have above := i.lt_down_succ scale
    have up : i.high * 2 ^ i.place ≤ ((i.down scale + 1 : Nat) : ℚ) * 10 ^ scale :=
      not_lt.1 fun inside => noUp (holds_of_lt (low.trans above) inside)
    have down : (i.down scale : ℚ) * 10 ^ scale ≤ i.low * 2 ^ i.place :=
      not_lt.1 fun inside => noDown (holds_of_lt inside (below.trans_lt high))
    push_cast at up
    linarith

/-- The search ends at the first grid that has a point in the interval. -/
theorem holds_search (ordered : i.low < i.value ∧ i.value < i.high) {leading : Int} {fuel count k : Nat} (enough : k < fuel)
    (fine : (10 : ℚ) ^ (leading - (count + k : Nat)) < (i.high - i.low : ℚ) * 2 ^ i.place) :
    i.Holds (i.search tie leading fuel count).value := by
  induction fuel generalizing count k with
  | zero => exact absurd enough (Nat.not_lt_zero k)
  | succ fuel ih =>
    unfold search
    cases picked : i.pick tie (leading - count) with
    | some s => exact holds_of_pick ordered picked
    | none =>
      cases k with
      | zero =>
        obtain ⟨s, found⟩ := exists_pick ordered tie (by simpa using fine)
        cases picked.symm.trans found
      | succ k =>
        refine ih (k := k) (Nat.lt_of_succ_lt_succ enough) ?_
        rwa [Nat.add_assoc, Nat.add_comm 1 k]

end Interval

theorem Scaled.value_strip (fuel : Nat) (s : Scaled) : (s.strip fuel).value = s.value := by
  induction fuel generalizing s with
  | zero => rfl
  | succ fuel ih =>
    unfold strip
    split
    · next zero =>
      rw [ih]
      have digits : s.digits = 10 * (s.digits / 10) := by omega
      have cast : (s.digits : ℚ) = 10 * (s.digits / 10 : Nat) := by exact_mod_cast digits
      unfold value
      rw [cast, zpow_add_one₀ (by norm_num)]
      ring
    · rfl

/-! ### Numbers of a format -/

namespace BinaryFormat

/-- A number that is not zero is written with a full fraction, unless it is one of the smallest. -/
structure Normal (f : BinaryFormat) (m : Nat) (q : Int) : Prop where
  positive : 0 < m
  bounded : m < 2 ^ (f.fraction + 1)
  least : f.leastExponent ≤ q
  full : f.leastExponent < q → 2 ^ f.fraction ≤ m

variable {f : BinaryFormat} {m m' : Nat} {q q' : Int}

theorem Normal.ordered (normal : f.Normal m q) :
    (f.interval m q).low < (f.interval m q).value ∧ (f.interval m q).value < (f.interval m q).high := by
  have := normal.positive
  simp only [interval]
  split <;> omega

/-- Where the interval of a number ends, that of a greater one has not begun, or both ends are the same and one of the two
    numbers is odd. -/
theorem exists_between (normal : f.Normal m q) (normal' : f.Normal m' q') (less : q < q' ∨ q = q' ∧ m < m') :
    ∃ a : Nat, (f.interval m q).high ≤ a ∧ ((f.interval m q).high = a → m % 2 = 1 ∨ m' % 2 = 1) ∧
      (a : ℚ) * 2 ^ (q - 2) ≤ (f.interval m' q').low * 2 ^ (q' - 2) := by
  rcases less with less | ⟨rfl, less⟩
  · -- The places of the greater number are at least twice as wide, and it fills its fraction.
    have deep : f.leastExponent < q' := normal.least.trans_lt less
    have full := normal'.full deep
    have bounded := normal.bounded
    rw [Nat.pow_succ] at bounded
    refine ⟨2 * (f.interval m' q').low, ?_, ?_, ?_⟩
    · simp only [interval, Nat.one_shiftLeft]
      split <;> omega
    · simp only [interval, Nat.one_shiftLeft]
      split <;> omega
    · have wider : (2 : ℚ) * 2 ^ (q - 2) ≤ 2 ^ (q' - 2) := by
        rw [← zpow_one_add₀ two_ne_zero]
        exact zpow_le_zpow_right₀ (by norm_num) (by omega)
      push_cast
      calc 2 * ((f.interval m' q').low : ℚ) * 2 ^ (q - 2) = (f.interval m' q').low * (2 * 2 ^ (q - 2)) := by ring
        _ ≤ (f.interval m' q').low * 2 ^ (q' - 2) := by gcongr
  · refine ⟨(f.interval m' q).low, ?_, ?_, le_rfl⟩
    · simp only [interval]
      split <;> omega
    · simp only [interval]
      split <;> omega

/-- The intervals of two numbers of a format have no point in common. -/
theorem not_holds_both (normal : f.Normal m q) (normal' : f.Normal m' q') (less : q < q' ∨ q = q' ∧ m < m') {x : ℚ}
    (holds : (f.interval m q).Holds x) (holds' : (f.interval m' q').Holds x) : False := by
  obtain ⟨upper, beforeEnd⟩ := holds.le_high
  obtain ⟨lower, afterStart⟩ := holds'.low_le
  obtain ⟨a, reach, odd, between⟩ := exists_between normal normal' less
  have two : (0 : ℚ) < 2 ^ (q - 2) := by positivity
  have place : (f.interval m q).place = q - 2 := rfl
  have place' : (f.interval m' q').place = q' - 2 := rfl
  rw [place] at upper beforeEnd
  rw [place'] at lower afterStart
  have reach' : ((f.interval m q).high : ℚ) * 2 ^ (q - 2) ≤ a * 2 ^ (q - 2) := by gcongr
  have ends : ((f.interval m q).high : ℚ) * 2 ^ (q - 2) = a * 2 ^ (q - 2) := by linarith
  have same : (f.interval m q).high = a := by exact_mod_cast mul_right_cancel₀ two.ne' ends
  rcases odd same with odd | odd
  · have open_end : (f.interval m q).closed = false := by simp [interval, odd]
    linarith [beforeEnd open_end]
  · have open_start : (f.interval m' q').closed = false := by simp [interval, odd]
    linarith [afterStart open_start]

/-- A fraction rounds to one number. -/
theorem eq_of_holds (normal : f.Normal m q) (normal' : f.Normal m' q') {x : ℚ} (holds : (f.interval m q).Holds x)
    (holds' : (f.interval m' q').Holds x) : m = m' ∧ q = q' := by
  rcases lt_trichotomy q q' with less | same | more
  · exact (not_holds_both normal normal' (.inl less) holds holds').elim
  · rcases lt_trichotomy m m' with less | equal | more
    · exact (not_holds_both normal normal' (.inr ⟨same, less⟩) holds holds').elim
    · exact ⟨equal, same⟩
    · exact (not_holds_both normal' normal (.inr ⟨same.symm, more⟩) holds' holds).elim
  · exact (not_holds_both normal' normal (.inl more) holds' holds).elim

/-- Exponents up to which twenty digits are enough. -/
structure Moderate (f : BinaryFormat) : Prop where
  fraction : f.fraction ≤ 52
  least : -1074 ≤ f.leastExponent
  greatest : f.leastExponent + (1 <<< f.exponent : Nat) ≤ 974

theorem moderate_single : single.Moderate := ⟨by decide, by decide, by decide⟩

theorem moderate_double : double.Moderate := ⟨by decide, by decide, by decide⟩

/-- A bound on the exponent of the twentieth digit of numbers whose last place is that of the exponent. -/
def lastScale (q : Int) : Int := (q + 53) * 30103 / 100000 - 18

/-- Whatever the exponent, the grid of the twentieth digit is finer than three quarters of a place. -/
theorem grid_fine (q : Int) (least : -1074 ≤ q) (greatest : q ≤ 973) : (10 : ℚ) ^ lastScale q < 3 * 2 ^ (q - 2) := by
  have all : (List.range 2048).all (fun k =>
      let q : Int := k - 1074
      decide (1 * (scaledFraction 3 (q - 2) (lastScale q)).2 < (scaledFraction 3 (q - 2) (lastScale q)).1)) = true := by
    decide +kernel
  have index : (q + 1074).toNat ∈ List.range 2048 := List.mem_range.2 (by omega)
  have same : (((q + 1074).toNat : Nat) : Int) - 1074 = q := by omega
  have fine := of_decide_eq_true (List.all_eq_true.1 all _ index)
  rw [same] at fine
  have compared := (grid_cmp 3 1 (q - 2) (lastScale q)).1.not.1 (Nat.not_le.2 fine)
  push_cast at compared
  linarith

theorem leading_le (i : Interval) : i.leading ≤ ((i.value.log2 : Int) + 1 + i.place) * 30103 / 100000 + 1 := by
  unfold Interval.leading
  dsimp only
  split
  · exact le_rfl
  · split <;> omega

theorem leading_interval_le (moderate : f.Moderate) (normal : f.Normal m q) :
    (f.interval m q).leading - (19 : Nat) ≤ lastScale q := by
  have size : (4 * m).log2 < f.fraction + 3 := by
    rw [Nat.log2_lt (by have := normal.positive; omega)]
    have := normal.bounded
    rw [Nat.pow_add] at this ⊢
    omega
  have fraction := moderate.fraction
  have bound := leading_le (f.interval m q)
  have place : (((4 * m).log2 : Int) + 1 + (q - 2)) * 30103 / 100000 ≤ (q + 53) * 30103 / 100000 :=
    Int.ediv_le_ediv (by decide) (by omega)
  simp only [interval] at bound ⊢
  unfold lastScale
  omega

/-- The shortest decimal of a number rounds to it. -/
theorem holds_shortest (moderate : f.Moderate) (normal : f.Normal m q) (top : q < f.leastExponent + (1 <<< f.exponent : Nat))
    (tie : Tie) : (f.interval m q).Holds (f.shortest tie m q).value := by
  have least := normal.least
  have bounds := moderate.least
  have greatest := moderate.greatest
  unfold shortest
  dsimp only
  rw [Scaled.value_strip]
  refine Interval.holds_search (k := 19) normal.ordered (by decide) ?_
  have wide : (3 : ℚ) ≤ (f.interval m q).high - (f.interval m q).low := by
    have := normal.positive
    rw [le_sub_iff_add_le]
    simp only [interval]
    norm_cast
    split <;> omega
  have two : (0 : ℚ) < 2 ^ (q - 2) := by positivity
  calc (10 : ℚ) ^ ((f.interval m q).leading - (0 + 19 : Nat)) ≤ 10 ^ lastScale q :=
        zpow_le_zpow_right₀ (by norm_num) (leading_interval_le moderate normal)
    _ < 3 * 2 ^ (q - 2) := grid_fine q (by omega) (by omega)
    _ ≤ ((f.interval m q).high - (f.interval m q).low) * 2 ^ (q - 2) := by gcongr

end BinaryFormat

end AnnotationWeaver.Decimal
