import Mathlib.Data.Nat.Count
import Mathlib.Tactic.Common

/-! # Requests and answers as event streams

A handshake is two streams of events, one `Bool` a cycle: a request is taken, an answer is
given.  `occurrences` counts the events before a cycle, `inFlight` the requests still without
an answer.  A stream of answers is `Causal` for a stream of requests when every answer comes
in a later cycle than a request that had none.  Then the answers are in the order of the
requests: the request with serial number `k` is answered by the answer with serial number `k`.
-/

namespace IbexWb.Synchronous

/-- How many events happened before `cycle`; for an event in `cycle`, its serial number. -/
def occurrences (event : Nat → Bool) (cycle : Nat) : Nat :=
  Nat.count (fun earlier => event earlier = true) cycle

@[simp] theorem occurrences_zero (event : Nat → Bool) : occurrences event 0 = 0 :=
  Nat.count_zero _

theorem occurrences_succ (event : Nat → Bool) (cycle : Nat) :
    occurrences event (cycle + 1) = occurrences event cycle + (event cycle).toNat := by
  rw [occurrences, Nat.count_succ]
  cases event cycle <;> rfl

theorem occurrences_mono (event : Nat → Bool) {earlier later : Nat} (ordered : earlier ≤ later) :
    occurrences event earlier ≤ occurrences event later :=
  Nat.count_monotone _ ordered

theorem occurrences_congr {left right : Nat → Bool} (cycle : Nat)
    (agree : ∀ earlier, earlier < cycle → left earlier = right earlier) :
    occurrences left cycle = occurrences right cycle := by
  induction cycle with
  | zero => rfl
  | succ cycle inductionHypothesis =>
    rw [occurrences_succ, occurrences_succ, agree cycle (Nat.lt_succ_self cycle),
      inductionHypothesis fun earlier ordered => agree earlier (Nat.lt_succ_of_lt ordered)]

theorem occurrences_le (event : Nat → Bool) (last cycle : Nat)
    (quiet : ∀ later, last ≤ later → event later = false) : occurrences event cycle ≤ last := by
  induction cycle with
  | zero => simp
  | succ cycle inductionHypothesis =>
    rw [occurrences_succ]
    by_cases early : cycle < last
    · have counted : occurrences event cycle ≤ cycle := Nat.count_le _
      have single := Bool.toNat_le (event cycle)
      omega
    · rw [quiet cycle (by omega)]
      exact inductionHypothesis

theorem exists_occurrence (event : Nat → Bool) (number cycle : Nat)
    (bound : number < occurrences event cycle) :
    ∃ earlier, earlier < cycle ∧ event earlier = true ∧ occurrences event earlier = number := by
  induction cycle with
  | zero => simp at bound
  | succ cycle inductionHypothesis =>
    by_cases before : number < occurrences event cycle
    · obtain ⟨earlier, ordered, happened⟩ := inductionHypothesis before
      exact ⟨earlier, Nat.lt_succ_of_lt ordered, happened⟩
    · rw [occurrences_succ] at bound
      cases happened : event cycle with
      | false => simp [happened] at bound; omega
      | true =>
        simp only [happened, Bool.toNat_true] at bound
        exact ⟨cycle, Nat.lt_succ_self cycle, happened, by omega⟩

/-- An event in each cycle of an interval. -/
theorem occurrences_interval (first last cycle : Nat) :
    occurrences (fun cycle => decide (first ≤ cycle) && decide (cycle < last)) cycle =
      min cycle last - first := by
  induction cycle with
  | zero => simp
  | succ cycle inductionHypothesis =>
    rw [occurrences_succ, inductionHypothesis]
    by_cases inside : first ≤ cycle ∧ cycle < last
    · simp [inside]
      omega
    · have outside : (decide (first ≤ cycle) && decide (cycle < last)) = false := by
        simpa using inside
      rw [outside, Bool.toNat_false]
      omega

/-- What stays until an event, and forces the event in some later cycle, leads to it. -/
theorem exists_event {state event : Nat → Prop} {start : Nat} (here : state start)
    (stays : ∀ cycle, start ≤ cycle → state cycle → ¬ event cycle → state (cycle + 1))
    (forced : ∃ cycle, start ≤ cycle ∧ (state cycle → event cycle)) :
    ∃ cycle, start ≤ cycle ∧ state cycle ∧ event cycle := by
  by_contra never
  have always : ∀ cycle, start ≤ cycle → state cycle := by
    intro cycle later
    induction cycle, later using Nat.le_induction with
    | base => exact here
    | succ cycle later inductionHypothesis =>
      exact stays cycle later inductionHypothesis fun happens =>
        never ⟨cycle, later, inductionHypothesis, happens⟩
  obtain ⟨cycle, later, forces⟩ := forced
  exact never ⟨cycle, later, always cycle later, forces (always cycle later)⟩

/-! ## Logs -/

def log {α : Type} (event : Nat → Option α) (last : Nat) : List α := (List.range last).filterMap event

theorem log_succ {α : Type} (event : Nat → Option α) (last : Nat) :
    log event (last + 1) = log event last ++ (event last).toList := by
  rw [log, log, List.range_succ, List.filterMap_append]
  cases logged : event last <;> simp [logged]

/-- Two logs whose entries tell their cycle are equal exactly when the streams are. -/
theorem log_eq_iff {α : Type} (stamp : α → Nat) {left right : Nat → Option α} (last : Nat)
    (leftStamp : ∀ cycle entry, left cycle = some entry → stamp entry = cycle)
    (rightStamp : ∀ cycle entry, right cycle = some entry → stamp entry = cycle) :
    log left last = log right last ↔ ∀ cycle, cycle < last → left cycle = right cycle := by
  -- the stamp of an entry tells where to find it in the other stream
  have find {first second : Nat → Option α} (same : log first last = log second last)
      (firstStamp : ∀ cycle entry, first cycle = some entry → stamp entry = cycle)
      (secondStamp : ∀ cycle entry, second cycle = some entry → stamp entry = cycle)
      {cycle : Nat} (bound : cycle < last) {entry : α} (logged : first cycle = some entry) :
      second cycle = some entry := by
    have member : entry ∈ log second last := by
      rw [← same]
      exact List.mem_filterMap.mpr ⟨cycle, List.mem_range.mpr bound, logged⟩
    obtain ⟨other, _, otherLogged⟩ := List.mem_filterMap.mp member
    obtain rfl : other = cycle :=
      (secondStamp other entry otherLogged).symm.trans (firstStamp cycle entry logged)
    exact otherLogged
  constructor
  · intro same cycle bound
    apply Option.ext
    intro entry
    exact ⟨find same leftStamp rightStamp bound, find same.symm rightStamp leftStamp bound⟩
  · intro agree
    exact List.filterMap_congr fun cycle member => agree cycle (List.mem_range.mp member)

/-! ## Requests and their answers -/

/-- Every answer comes in a later cycle than a request that still had none. -/
def Causal (request answer : Nat → Bool) : Prop :=
  ∀ cycle, answer cycle = true → occurrences answer cycle < occurrences request cycle

def inFlight (request answer : Nat → Bool) (cycle : Nat) : Nat :=
  occurrences request cycle - occurrences answer cycle

namespace Causal

variable {request answer : Nat → Bool}

theorem answers_le (causal : Causal request answer) (cycle : Nat) :
    occurrences answer cycle ≤ occurrences request cycle := by
  induction cycle with
  | zero => simp
  | succ cycle inductionHypothesis =>
    rw [occurrences_succ, occurrences_succ]
    cases answered : answer cycle with
    | false => simp only [Bool.toNat_false]; omega
    | true =>
      have outstanding := causal cycle answered
      simp only [Bool.toNat_true]
      omega

theorem inFlight_pos (causal : Causal request answer) {cycle : Nat} (answered : answer cycle = true) :
    0 < inFlight request answer cycle :=
  Nat.sub_pos_of_lt (causal cycle answered)

theorem inFlight_succ (causal : Causal request answer) (cycle : Nat) :
    inFlight request answer (cycle + 1) + (answer cycle).toNat =
      inFlight request answer cycle + (request cycle).toNat := by
  have before := causal.answers_le cycle
  have after := causal.answers_le (cycle + 1)
  simp only [inFlight, occurrences_succ] at *
  omega

theorem inFlight_pos_of_unanswered {earlier cycle : Nat} (ordered : earlier < cycle)
    (requested : request earlier = true)
    (unanswered : occurrences answer cycle ≤ occurrences request earlier) :
    0 < inFlight request answer cycle := by
  have counted := occurrences_mono request (Nat.succ_le_of_lt ordered)
  rw [Nat.succ_eq_add_one, occurrences_succ, requested] at counted
  simp only [Bool.toNat_true] at counted
  simp only [inFlight]
  omega

/-- Answers come in the order of the requests. -/
theorem exists_request (causal : Causal request answer) (cycle : Nat) (answered : answer cycle = true) :
    ∃ earlier, earlier < cycle ∧ request earlier = true ∧
      occurrences request earlier = occurrences answer cycle :=
  exists_occurrence request _ cycle (causal cycle answered)

end Causal

end IbexWb.Synchronous
