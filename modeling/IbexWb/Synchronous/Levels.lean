import IbexWb.Synchronous.Events

/-! # Events while a level is high

A wire has a level at each point of time.  `rises` and `falls` are its edges, each an event at the
point before it, and `since` counts the events of another wire that happened since the level was
last low.
-/

namespace IbexWb.Synchronous

def rises (level : Nat → Bool) (time : Nat) : Bool := !level time && level (time + 1)

def falls (level : Nat → Bool) (time : Nat) : Bool := level time && !level (time + 1)

def since (level event : Nat → Bool) : Nat → Nat
  | 0 => 0
  | time + 1 =>
    if level time && level (time + 1) then since level event time + (event time).toNat else 0

/-- The level is high from `start` to `time`, both included. -/
def HighFrom (level : Nat → Bool) (start time : Nat) : Prop :=
  ∀ between, start ≤ between → between ≤ time → level between = true

variable {level event : Nat → Bool}

theorem HighFrom.mono {start time earlier : Nat} (high : HighFrom level start time)
    (ordered : earlier ≤ time) : HighFrom level start earlier :=
  fun between above below => high between above (Nat.le_trans below ordered)

theorem HighFrom.succ {start time : Nat} (high : HighFrom level start time)
    (last : level (time + 1) = true) : HighFrom level start (time + 1) := by
  intro between above below
  rcases Nat.lt_or_eq_of_le below with earlier | rfl
  · exact high between above (Nat.le_of_lt_succ earlier)
  · exact last

theorem since_of_low {time : Nat} (low : level time = false) : since level event time = 0 := by
  cases time with
  | zero => rfl
  | succ time => rw [since, low, Bool.and_false, if_neg Bool.false_ne_true]

theorem since_of_high {time : Nat} (before : level time = true) (after : level (time + 1) = true) :
    since level event (time + 1) = since level event time + (event time).toNat := by
  rw [since, before, after, Bool.and_self, if_pos rfl]

variable (event) in
/-- All events of a stretch of the high level are counted. -/
theorem HighFrom.count_le {start time : Nat} (high : HighFrom level start time)
    (ordered : start ≤ time) :
    occurrences event time ≤ occurrences event start + since level event time := by
  induction time with
  | zero =>
    rw [Nat.le_zero.mp ordered]
    exact Nat.le_add_right _ _
  | succ time inductionHypothesis =>
    rcases Nat.lt_or_eq_of_le ordered with before | rfl
    · have earlier := Nat.le_of_lt_succ before
      have counted := inductionHypothesis (high.mono (Nat.le_succ time)) earlier
      rw [occurrences_succ, since_of_high (high time earlier (Nat.le_succ time))
        (high (time + 1) ordered le_rfl)]
      omega
    · exact Nat.le_add_right _ _

variable (event) in
/-- The counted events are those of one stretch of the high level. -/
theorem exists_highFrom {time : Nat} (high : level time = true) :
    ∃ start, start ≤ time ∧ HighFrom level start time ∧
      occurrences event start + since level event time ≤ occurrences event time := by
  have single {time : Nat} (high : level time = true) : HighFrom level time time :=
    fun between above below => Nat.le_antisymm below above ▸ high
  induction time with
  | zero => exact ⟨0, le_rfl, single high, le_rfl⟩
  | succ time inductionHypothesis =>
    cases before : level time with
    | true =>
      obtain ⟨start, ordered, stretch, counted⟩ := inductionHypothesis before
      refine ⟨start, Nat.le_succ_of_le ordered, stretch.succ high, ?_⟩
      rw [since_of_high before high, occurrences_succ]
      omega
    | false =>
      refine ⟨time + 1, le_rfl, single high, ?_⟩
      rw [since, before, Bool.false_and, if_neg Bool.false_ne_true, Nat.add_zero]

/-- At least `number` events since the level was last low. -/
theorem le_since_iff {number time : Nat} (positive : 0 < number) :
    number ≤ since level event time ↔ ∃ start, start ≤ time ∧ HighFrom level start time ∧
      occurrences event start + number ≤ occurrences event time := by
  constructor
  · intro counted
    cases high : level time with
    | false => rw [since_of_low high] at counted; omega
    | true =>
      obtain ⟨start, ordered, stretch, bound⟩ := exists_highFrom event high
      exact ⟨start, ordered, stretch, by omega⟩
  · rintro ⟨start, ordered, stretch, bound⟩
    have counted := stretch.count_le event ordered
    omega

end IbexWb.Synchronous
