import Mathlib.Algebra.BigOperators.Group.Finset.Basic
import Mathlib.Algebra.Order.Ring.Nat
import Mathlib.Algebra.Ring.Parity
import Mathlib.Data.Nat.Factorization.Basic
import Mathlib.Data.Nat.ModEq
import Mathlib.Logic.Function.Iterate
import Mathlib.Order.Interval.Finset.Nat
import Mathlib.Tactic.Ring

/-! # Linear congruential sequences modulo powers of two

With an odd increment and a multiplier of the form `4 b + 1` a sequence takes as many steps to come
back as there are residues, modulo each power of two.  A window of places of its terms then has the
period that its upper end allows, and takes all values equally often.
-/

namespace IbexWb.Binary.Congruential

variable (b c : Nat)

def next (x : Nat) : Nat := (4 * b + 1) * x + c

/-- `1 + a + … + a ^ (count - 1)` for the multiplier `a`. -/
def geometric : Nat → Nat
  | 0 => 0
  | count + 1 => (4 * b + 1) * geometric count + 1

theorem iterate_next (count x : Nat) :
    (next b c)^[count] x = x + geometric b count * (4 * b * x + c) := by
  induction count with
  | zero => rw [geometric, Nat.zero_mul]; rfl
  | succ count inductionHypothesis =>
    rw [Function.iterate_succ_apply', inductionHypothesis, next, geometric]
    ring

theorem geometric_add (m n : Nat) :
    geometric b (m + n) = geometric b m + (4 * b * geometric b m + 1) * geometric b n := by
  induction m with
  | zero => rw [geometric, Nat.zero_add]; ring
  | succ m inductionHypothesis =>
    rw [Nat.add_right_comm, geometric, inductionHypothesis, geometric]
    ring

theorem geometric_mod_two (count : Nat) : geometric b count % 2 = count % 2 := by
  induction count with
  | zero => rfl
  | succ count inductionHypothesis =>
    have split : geometric b (count + 1) =
        2 * (2 * b * geometric b count) + (geometric b count + 1) := by
      rw [geometric]
      ring
    omega

/-- The two have the same power of two as a divisor. -/
theorem two_pow_dvd_geometric_iff (k count : Nat) :
    2 ^ k ∣ geometric b count ↔ 2 ^ k ∣ count := by
  induction k generalizing count with
  | zero => simp
  | succ k inductionHypothesis =>
    have parity := geometric_mod_two b count
    rcases Nat.even_or_odd' count with ⟨half, rfl | rfl⟩
    · -- the sum of an even number of terms is that of half of them times twice an odd number
      have double : geometric b (2 * half) =
          2 * (geometric b half * (2 * (b * geometric b half) + 1)) := by
        rw [Nat.two_mul, geometric_add]
        ring
      have coprime : Nat.Coprime (2 ^ k) (2 * (b * geometric b half) + 1) :=
        Nat.Coprime.pow_left k ((Nat.coprime_two_left).mpr (odd_two_mul_add_one _))
      rw [double, Nat.pow_succ', Nat.mul_dvd_mul_iff_left Nat.two_pos,
        Nat.mul_dvd_mul_iff_left Nat.two_pos, coprime.dvd_mul_right, inductionHypothesis]
    · have even : 2 ∣ 2 ^ (k + 1) := Dvd.intro_left _ rfl
      exact ⟨fun divides => absurd (even.trans divides) (by omega),
        fun divides => absurd (even.trans divides) (by omega)⟩

section Odd

variable {b c : Nat} (odd : c % 2 = 1)

include odd

theorem iterate_modEq_self_iff (k count x : Nat) :
    (next b c)^[count] x ≡ x [MOD 2 ^ k] ↔ 2 ^ k ∣ count := by
  have coprime : Nat.Coprime (2 ^ k) (4 * b * x + c) :=
    Nat.Coprime.pow_left k ((Nat.coprime_two_left).mpr
      (Nat.odd_iff.mpr (by rw [Nat.add_mod, Nat.mul_assoc, Nat.mul_mod]; simp [odd])))
  rw [iterate_next, Nat.ModEq.comm, Nat.modEq_iff_dvd' (Nat.le_add_right _ _),
    Nat.add_sub_cancel_left, coprime.dvd_mul_right, two_pow_dvd_geometric_iff]

/-- Two terms agree modulo a power of two if and only if their numbers do. -/
theorem iterate_modEq_iff (k m n x : Nat) :
    (next b c)^[m] x ≡ (next b c)^[n] x [MOD 2 ^ k] ↔ m ≡ n [MOD 2 ^ k] := by
  have ordered (m n : Nat) (le : m ≤ n) :
      (next b c)^[m] x ≡ (next b c)^[n] x [MOD 2 ^ k] ↔ m ≡ n [MOD 2 ^ k] := by
    obtain ⟨more, rfl⟩ := Nat.exists_eq_add_of_le le
    rw [Nat.add_comm m more, Function.iterate_add_apply, Nat.ModEq.comm,
      iterate_modEq_self_iff odd, Nat.modEq_iff_dvd' (Nat.le_add_left _ _), Nat.add_sub_cancel]
  rcases Nat.le_total m n with le | le
  · exact ordered m n le
  · rw [Nat.ModEq.comm, ordered n m le, Nat.ModEq.comm]

end Odd

/-! ## Windows -/

/-- `count` places from `low` on. -/
def window (low count x : Nat) : Nat := x / 2 ^ low % 2 ^ count

theorem window_eq (low count x : Nat) : window low count x = x % 2 ^ (low + count) / 2 ^ low := by
  rw [window, Nat.pow_add, Nat.mod_mul_right_div_self]

theorem window_of_modEq {low count x y : Nat} (same : x ≡ y [MOD 2 ^ (low + count)]) :
    window low count x = window low count y := by
  rw [window_eq, window_eq, same]

theorem modEq_of_window {low count x y : Nat} (same : window low count x = window low count y)
    (below : x ≡ y [MOD 2 ^ low]) : x ≡ y [MOD 2 ^ (low + count)] := by
  have split (z : Nat) : z % 2 ^ (low + count) = 2 ^ low * window low count z + z % 2 ^ low := by
    rw [window_eq, ← Nat.mod_mod_of_dvd z (Nat.pow_dvd_pow 2 (Nat.le_add_right low count)),
      Nat.div_add_mod]
  rw [Nat.ModEq, split, split, same, below]

section Windows

variable {b c : Nat} (odd : c % 2 = 1) {low count : Nat}

include odd

/-- A window of the terms that comes back after some steps comes back after multiples of them, and
after a multiple that is half of the period its highest place is another one. -/
theorem dvd_of_window (positive : 0 < count) (distance x : Nat)
    (same : ∀ step, window low count ((next b c)^[step] x) =
      window low count ((next b c)^[step + distance] x)) : 2 ^ (low + count) ∣ distance := by
  by_contra other
  have moves : distance ≠ 0 := fun zero => other (zero ▸ dvd_zero _)
  obtain ⟨k, rest, oddRest, rfl⟩ := Nat.exists_eq_two_pow_mul_odd moves
  have short : k < low + count := by
    by_contra long
    exact other ((pow_dvd_pow 2 (Nat.le_of_not_lt long)).mul_right rest)
  have multiples (times : Nat) : window low count x =
      window low count ((next b c)^[times * (2 ^ k * rest)] x) := by
    induction times with
    | zero => rw [Nat.zero_mul]; rfl
    | succ times inductionHypothesis => rw [inductionHypothesis, same, Nat.succ_mul]
  -- an odd multiple of half the period keeps the places below the top one
  have half : 2 ^ (low + count - 1 - k) * (2 ^ k * rest) = 2 ^ (low + count - 1) * rest := by
    rw [← Nat.mul_assoc, ← Nat.pow_add, Nat.sub_add_cancel (by omega)]
  have window := multiples (2 ^ (low + count - 1 - k))
  rw [half] at window
  have below : x ≡ (next b c)^[2 ^ (low + count - 1) * rest] x [MOD 2 ^ low] :=
    ((iterate_modEq_self_iff odd low _ x).mpr
      ((pow_dvd_pow 2 (by omega)).mul_right rest)).symm
  have whole := (iterate_modEq_self_iff odd _ _ x).mp (modEq_of_window window below).symm
  -- it would keep the top place too, so that half would be even
  have up : 2 ^ (low + count) = 2 ^ (low + count - 1) * 2 := by
    rw [← Nat.pow_succ, Nat.succ_eq_add_one, Nat.sub_add_cancel (by omega)]
  rw [up, Nat.mul_dvd_mul_iff_left (Nat.two_pow_pos _)] at whole
  exact Nat.not_even_iff_odd.mpr oddRest (even_iff_two_dvd.mpr whole)

theorem window_periodic (positive : 0 < count) (m n x : Nat) :
    (∀ step, window low count ((next b c)^[m + step] x) =
      window low count ((next b c)^[n + step] x)) ↔ m ≡ n [MOD 2 ^ (low + count)] := by
  have ordered (m n : Nat) (le : m ≤ n) (same : ∀ step,
      window low count ((next b c)^[m + step] x) = window low count ((next b c)^[n + step] x)) :
      m ≡ n [MOD 2 ^ (low + count)] := by
    obtain ⟨distance, rfl⟩ := Nat.exists_eq_add_of_le le
    have moved := dvd_of_window odd positive distance ((next b c)^[m] x) fun step => by
      rw [← Function.iterate_add_apply, ← Function.iterate_add_apply, Nat.add_comm step m, same,
        Nat.add_comm (step + distance), Nat.add_assoc, Nat.add_comm distance]
    rw [Nat.modEq_iff_dvd' le, Nat.add_sub_cancel_left]
    exact moved
  constructor
  · intro same
    rcases Nat.le_total m n with le | le
    · exact ordered m n le same
    · exact (ordered n m le fun step => (same step).symm).symm
  · intro near step
    exact window_of_modEq ((iterate_modEq_iff odd _ _ _ x).mpr (near.add_right step))

/-- Each value is taken once for each way to choose the places below the window. -/
theorem window_uniform {value : Nat} (small : value < 2 ^ count) (start x : Nat) :
    ((Finset.range (2 ^ (low + count))).filter fun step =>
      window low count ((next b c)^[start + step] x) = value).card = 2 ^ low := by
  have injective : Set.InjOn (fun step => (next b c)^[start + step] x % 2 ^ (low + count))
      (Finset.range (2 ^ (low + count))) := by
    intro i first j second same
    have near := Nat.ModEq.add_left_cancel' start ((iterate_modEq_iff odd _ _ _ x).mp same)
    exact Nat.ModEq.eq_of_lt_of_lt near (Finset.mem_range.mp first) (Finset.mem_range.mp second)
  -- the terms of one period are all residues, each of them once
  have residues : (Finset.range (2 ^ (low + count))).image
      (fun step => (next b c)^[start + step] x % 2 ^ (low + count)) =
        Finset.range (2 ^ (low + count)) := by
    refine Finset.eq_of_subset_of_card_le ?_ (Finset.card_image_of_injOn injective).ge
    intro residue member
    obtain ⟨step, _, rfl⟩ := Finset.mem_image.mp member
    exact Finset.mem_range.mpr (Nat.mod_lt _ (Nat.two_pow_pos _))
  have places : (Finset.range (2 ^ (low + count))).filter (fun residue => residue / 2 ^ low = value) =
      Finset.Ico (2 ^ low * value) (2 ^ low * value + 2 ^ low) := by
    ext residue
    have positive := Nat.two_pow_pos low
    have whole : 2 ^ low * value + 2 ^ low ≤ 2 ^ (low + count) := by
      rw [← Nat.mul_succ, Nat.pow_add]
      exact Nat.mul_le_mul_left _ small
    rw [Finset.mem_filter, Finset.mem_range, Finset.mem_Ico, Nat.div_eq_iff positive,
      Nat.mul_comm value]
    omega
  have picked : ((Finset.range (2 ^ (low + count))).filter fun step =>
      (next b c)^[start + step] x % 2 ^ (low + count) / 2 ^ low = value).image
      (fun step => (next b c)^[start + step] x % 2 ^ (low + count)) =
        (Finset.range (2 ^ (low + count))).filter fun residue => residue / 2 ^ low = value := by
    conv_rhs => rw [← residues]
    symm
    exact Finset.filter_image
  simp only [window_eq]
  rw [← Finset.card_image_of_injOn (injective.mono (Finset.coe_subset.mpr
    (Finset.filter_subset _ _))), picked, places, Nat.card_Ico, Nat.add_sub_cancel_left]

end Windows

end IbexWb.Binary.Congruential
