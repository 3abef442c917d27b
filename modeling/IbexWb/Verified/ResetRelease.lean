import IbexWb.Soc.Crg
import IbexWb.Synchronous.Levels

/-! # The reset of the system

After the external reset went low once, whatever the shift register held at power-up, it is filled
with as many ones as the divided clock rose since the external reset was last low.  `rst_n` goes
up with the edge that fills the last place, and down with the external reset.
-/

namespace IbexWb

open IbexWb.Synchronous

/-! ## The shift register -/

namespace SyncReset

variable {N : Nat}

/-- The lowest `count` places are ones. -/
def Filled (q : BitVec N) (count : Nat) : Prop :=
  ∀ place, place < N → q.getLsbD place = decide (place < count)

theorem filled_zero : Filled (0 : BitVec N) 0 := fun place _ => by
  rw [decide_eq_false (Nat.not_lt_zero place)]
  exact BitVec.getLsbD_zero

theorem Filled.shift {q : BitVec N} {count : Nat} (filled : Filled q count) :
    Filled (shift q) (count + 1) := by
  intro place inside
  rw [SyncReset.shift, BitVec.getLsbD_setWidth, decide_eq_true inside, Bool.true_and,
    BitVec.getLsbD_append]
  cases place with
  | zero => simp
  | succ place =>
    rw [if_neg (by omega), Nat.add_sub_cancel, BitVec.getLsbD_setWidth,
      decide_eq_true (by omega), Bool.true_and, filled place (by omega)]
    simp

theorem Filled.rstN_iff {q : BitVec N} {count : Nat} (filled : Filled q count)
    (positive : 0 < N) : rstN q = true ↔ N ≤ count := by
  rw [rstN, filled (N - 1) (by omega), decide_eq_true_eq]
  omega

end SyncReset

namespace Crg

open SyncReset

variable {N : Nat} (initial : State N) (edge : Nat → Edge)

def stateAt (time : Nat) : State N := (machine N).run initial edge time

def clk100m (time : Nat) : Bool := (stateAt initial edge time).clk100m

def extRstN (time : Nat) : Bool := (stateAt initial edge time).extRstN

def clk (time : Nat) : Bool := (stateAt initial edge time).clk

def rstN (time : Nat) : Bool := (machine N).trace initial edge time

/-- The edges of the divided clock since the external reset was last low. -/
def released (time : Nat) : Nat :=
  since (extRstN initial edge) (rises (clk initial edge)) time

variable {initial edge}

/-! ## One edge -/

theorem stateAt_succ (time : Nat) :
    stateAt initial edge (time + 1) = next (stateAt initial edge time) (edge time) := rfl

section Clk100m

variable {time : Nat} (input : edge time = .clk100m)

include input

theorem extRstN_of_clk100m : extRstN initial edge (time + 1) = extRstN initial edge time := by
  rw [extRstN, stateAt_succ, input]
  rfl

theorem clk_of_clk100m : clk initial edge (time + 1) =
    if clk100m initial edge time then clk initial edge time else !clk initial edge time := by
  rw [clk, stateAt_succ, input, clk100m, next]
  cases (stateAt initial edge time).clk100m <;> rfl

theorem q_of_clk100m : (stateAt initial edge (time + 1)).q =
    if rises (clk initial edge) time then
      SyncReset.next (stateAt initial edge time).q (extRstN initial edge time)
    else (stateAt initial edge time).q := by
  rw [rises, clk, clk, stateAt_succ, input]
  rfl

end Clk100m

section ExtRstN

variable {time : Nat} (input : edge time = .extRstN)

include input

theorem extRstN_of_extRstN : extRstN initial edge (time + 1) = !extRstN initial edge time := by
  rw [extRstN, stateAt_succ, input]
  rfl

theorem clk_of_extRstN : clk initial edge (time + 1) = clk initial edge time := by
  rw [clk, stateAt_succ, input]
  rfl

theorem q_of_extRstN : (stateAt initial edge (time + 1)).q =
    if extRstN initial edge time then 0 else (stateAt initial edge time).q := by
  rw [stateAt_succ, input, extRstN, next]
  cases high : (stateAt initial edge time).extRstN <;> simp [SyncReset.next]

end ExtRstN

/-! ## The shift register in a run -/

theorem falls_extRstN {time : Nat} (falling : falls (extRstN initial edge) time = true) :
    edge time = .extRstN := by
  cases input : edge time with
  | extRstN => rfl
  | clk100m => simp [falls, extRstN_of_clk100m input] at falling

theorem filled_of_falls {time : Nat} (falling : falls (extRstN initial edge) time = true) :
    Filled (stateAt initial edge (time + 1)).q (released initial edge (time + 1)) := by
  have input := falls_extRstN falling
  obtain ⟨high, low⟩ := Bool.and_eq_true_iff.mp falling
  rw [q_of_extRstN input, high, if_pos rfl, released,
    since_of_low (Bool.eq_false_of_not_eq_true' low)]
  exact filled_zero

theorem filled_succ {time : Nat}
    (filled : Filled (stateAt initial edge time).q (released initial edge time)) :
    Filled (stateAt initial edge (time + 1)).q (released initial edge (time + 1)) := by
  cases input : edge time with
  | clk100m =>
    rw [q_of_clk100m input]
    have kept : extRstN initial edge (time + 1) = extRstN initial edge time :=
      extRstN_of_clk100m input
    cases level : extRstN initial edge time with
    | false =>
      rw [released, since_of_low level] at filled
      rw [released, since_of_low (kept.trans level)]
      split
      · exact filled_zero
      · exact filled
    | true =>
      rw [released, since_of_high level (kept.trans level)]
      split
      · next risen =>
        -- an edge of the divided clock shifts one more one in
        rw [risen]
        exact filled.shift
      · next quiet =>
        rw [Bool.eq_false_iff.mpr quiet]
        exact filled
  | extRstN =>
    rw [q_of_extRstN input]
    have toggled : extRstN initial edge (time + 1) = !extRstN initial edge time :=
      extRstN_of_extRstN input
    cases level : extRstN initial edge time with
    | true =>
      rw [released, since_of_low (toggled.trans (congrArg _ level)), if_pos rfl]
      exact filled_zero
    | false =>
      rw [released, since_of_low level] at filled
      rw [released, since, level, Bool.false_and, if_neg Bool.false_ne_true,
        if_neg Bool.false_ne_true]
      exact filled

theorem filled_after {fell time : Nat} (falling : falls (extRstN initial edge) fell = true)
    (after : fell < time) :
    Filled (stateAt initial edge time).q (released initial edge time) := by
  induction time, after using Nat.le_induction with
  | base => exact filled_of_falls falling
  | succ time _ inductionHypothesis => exact filled_succ inductionHypothesis

/-! ## The divided clock -/

variable (initial) in
theorem rises_of_clk100m {time : Nat} (input : edge time = .clk100m) :
    rises (clk100m initial edge) time = !clk100m initial edge time ∧
      rises (clk initial edge) time = (!clk100m initial edge time && !clk initial edge time) := by
  have toggled : clk100m initial edge (time + 1) = !clk100m initial edge time := by
    rw [clk100m, stateAt_succ, input]
    rfl
  rw [rises, rises, toggled, clk_of_clk100m input]
  cases clk100m initial edge time <;> simp

variable (initial) in
theorem rises_of_extRstN {time : Nat} (input : edge time = .extRstN) :
    rises (clk100m initial edge) time = false ∧ rises (clk initial edge) time = false := by
  have kept : clk100m initial edge (time + 1) = clk100m initial edge time := by
    rw [clk100m, stateAt_succ, input]
    rfl
  rw [rises, rises, kept, clk_of_extRstN input, Bool.not_and_self, Bool.not_and_self]
  exact ⟨rfl, rfl⟩

/-- The divided clock rises with every second rise of its input. -/
theorem clk_divided (low : initial.clk = false) (time : Nat) :
    occurrences (rises (clk initial edge)) time =
        (occurrences (rises (clk100m initial edge)) time + 1) / 2 ∧
      clk initial edge time =
        decide (occurrences (rises (clk100m initial edge)) time % 2 = 1) := by
  induction time with
  | zero => exact ⟨by rw [occurrences_zero, occurrences_zero], low⟩
  | succ time inductionHypothesis =>
    obtain ⟨counted, level⟩ := inductionHypothesis
    rw [occurrences_succ, occurrences_succ, counted]
    cases input : edge time with
    | extRstN =>
      obtain ⟨still, quiet⟩ := rises_of_extRstN initial input
      rw [still, quiet, clk_of_extRstN input, level]
      exact ⟨rfl, rfl⟩
    | clk100m =>
      obtain ⟨first, second⟩ := rises_of_clk100m initial input
      rw [first, second, clk_of_clk100m input, level]
      cases clk100m initial edge time with
      | true => exact ⟨rfl, rfl⟩
      | false =>
        -- the clock was high before an even number of rises, and goes up with an odd one
        rcases Nat.mod_two_eq_zero_or_one (occurrences (rises (clk100m initial edge)) time)
          with even | odd
        · simp [even, Nat.add_mod]
          omega
        · simp [odd, Nat.add_mod]
          omega

/-! ## The release -/

/-- How `rst_n` behaves once the external reset fell after `fell`. -/
structure Synchronized (initial : State N) (edge : Nat → Edge) (fell : Nat) : Prop where
  high_iff : ∀ time, fell < time → (rstN initial edge time = true ↔
    ∃ start, start ≤ time ∧ HighFrom (extRstN initial edge) start time ∧
      (occurrences (rises (clk100m initial edge)) start + 1) / 2 + N ≤
        (occurrences (rises (clk100m initial edge)) time + 1) / 2)
  rises_with : ∀ time, fell < time → rises (rstN initial edge) time = true →
    rises (clk initial edge) time = true
  falls_with : ∀ time, fell < time → (falls (rstN initial edge) time = true ↔
    rstN initial edge time = true ∧ falls (extRstN initial edge) time = true)

theorem rstN_iff (positive : 0 < N) {fell time : Nat}
    (falling : falls (extRstN initial edge) fell = true) (after : fell < time) :
    rstN initial edge time = true ↔ N ≤ released initial edge time :=
  (filled_after falling after).rstN_iff positive

/-- Only an edge of the divided clock adds to `released`, and only the external reset clears it. -/
theorem released_succ (time : Nat) : released initial edge (time + 1) =
    if falls (extRstN initial edge) time then 0
    else released initial edge time +
      (extRstN initial edge time && rises (clk initial edge) time).toNat := by
  cases level : extRstN initial edge time with
  | false =>
    rw [falls, level, Bool.false_and, if_neg Bool.false_ne_true, released, released,
      since_of_low level, since, level, Bool.false_and, if_neg Bool.false_ne_true]
    rfl
  | true =>
    rw [falls, level]
    cases after : extRstN initial edge (time + 1) with
    | false => exact since_of_low after
    | true => exact since_of_high level after

theorem synchronized (positive : 0 < N) (low : initial.clk = false) {fell : Nat}
    (falling : falls (extRstN initial edge) fell = true) : Synchronized initial edge fell where
  high_iff := by
    intro time after
    rw [rstN_iff positive falling after, released, le_since_iff positive]
    simp only [(clk_divided low _).1]
  rises_with := by
    intro time after risen
    obtain ⟨before, now⟩ := Bool.and_eq_true_iff.mp risen
    rw [rstN_iff positive falling (Nat.lt_succ_of_lt after), released_succ] at now
    rw [Bool.not_eq_true', ← Bool.not_eq_true, rstN_iff positive falling after] at before
    cases rose : rises (clk initial edge) time with
    | true => rfl
    | false =>
      rw [rose, Bool.and_false] at now
      split at now
      · omega
      · exact absurd now before
  falls_with := by
    intro time after
    rw [falls, Bool.and_eq_true, Bool.not_eq_true', ← Bool.not_eq_true,
      rstN_iff positive falling after, rstN_iff positive falling (Nat.lt_succ_of_lt after),
      released_succ]
    refine and_congr_right fun high => ?_
    split
    · next fallen => exact iff_of_true (by omega) fallen
    · next up => exact iff_of_false (by omega) up

/-- Two toggles of the external reset, then the clock runs forever. -/
def powerUp (time : Nat) : Edge := if time < 2 then .extRstN else .clk100m

theorem synchronized_powerUp :
    Synchronized (⟨false, true, false, 0b11#2⟩ : State 2) powerUp 0 :=
  synchronized (by decide) rfl (by decide)

end Crg

end IbexWb
