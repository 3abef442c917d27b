import IbexWb.Synchronous.Events

/-! # Requests that are answered in time

A monitor on a handshake wants one answer for each request, not earlier and not later than some
number of cycles after it.  Answers are told apart by their serial numbers: `AnsweredWithin` says
that the answer with the number of a request comes in time, and that there are no others.
-/

namespace IbexWb.Synchronous

structure AnsweredWithin (request answer : Nat → Bool) (minTime maxTime : Nat) : Prop where
  causal : Causal request answer
  answered : ∀ cycle, request cycle = true → ∃ wait, minTime ≤ wait ∧ wait ≤ maxTime ∧
    answer (cycle + wait) = true ∧ occurrences answer (cycle + wait) = occurrences request cycle

variable {request answer : Nat → Bool}

/-- Answers that repeat the requests of the cycle before have the numbers of these requests. -/
theorem occurrences_delayed (first : answer 0 = false)
    (delayed : ∀ cycle, answer (cycle + 1) = request cycle) (cycle : Nat) :
    occurrences answer (cycle + 1) = occurrences request cycle := by
  induction cycle with
  | zero => rw [occurrences_succ, first, occurrences_zero, occurrences_zero]; rfl
  | succ cycle inductionHypothesis =>
    rw [occurrences_succ, inductionHypothesis, delayed, occurrences_succ]

theorem answeredWithin_delayed (first : answer 0 = false)
    (delayed : ∀ cycle, answer (cycle + 1) = request cycle) {maxTime : Nat}
    (allowed : 1 ≤ maxTime) : AnsweredWithin request answer 1 maxTime where
  causal := by
    intro cycle answered
    cases cycle with
    | zero => exact absurd (answered.symm.trans first) Bool.noConfusion
    | succ cycle =>
      have requested := (delayed cycle).symm.trans answered
      rw [occurrences_delayed first delayed, occurrences_succ, requested]
      exact Nat.lt_succ_self _
  answered := by
    intro cycle requested
    exact ⟨1, Nat.le_refl 1, allowed, (delayed cycle).trans requested,
      occurrences_delayed first delayed cycle⟩

/-! ## Waiting -/

/-- The event happened in the cycle before. -/
def previously (event : Nat → Bool) : Nat → Bool
  | 0 => false
  | cycle + 1 => event cycle

/-- If each cycle of a window has the event or comes after one, it is at most twice as long as
there are events in it, but for an event right before it. -/
theorem window_le {event : Nat → Bool} {first count : Nat}
    (covered : ∀ offset, offset < count →
      event (first + offset) = true ∨ previously event (first + offset) = true) :
    count + (previously event (first + count)).toNat ≤
      2 * (occurrences event (first + count) - occurrences event first) +
        (previously event first).toNat := by
  induction count with
  | zero =>
    rw [Nat.add_zero, Nat.zero_add]
    exact Nat.le_add_left _ _
  | succ count inductionHypothesis =>
    have before := inductionHypothesis fun offset bound => covered offset (Nat.lt_succ_of_lt bound)
    have mono := occurrences_mono event (Nat.le_add_right first count)
    have counted := occurrences_succ event (first + count)
    have last : previously event (first + (count + 1)) = event (first + count) := rfl
    rw [last, ← Nat.add_assoc, counted]
    cases happened : event (first + count) with
    | true =>
      simp only [Bool.toNat_true]
      omega
    | false =>
      -- then the cycle comes after one with the event
      have follows := (covered count (Nat.lt_succ_self count)).resolve_left (by simp [happened])
      simp only [follows, Bool.toNat_true, Bool.toNat_false] at before ⊢
      omega

end IbexWb.Synchronous
