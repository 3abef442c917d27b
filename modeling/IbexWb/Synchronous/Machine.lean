import Mathlib.Logic.Basic

/-! # Synchronous machines

A synchronous circuit reads its inputs and drives its outputs once in a clock cycle, and loads
its registers at the end of it.  `Machine` is such a circuit, `Machine.run` the register
contents it has in each cycle of an infinite run, and `Machine.trace` the outputs it drives.

Three proof rules carry the inductions over cycles: `run_invariant` for a property of one run,
`run_relation` for a relation between two runs (of one machine or of two), and `Abstraction`
for a function that turns one machine into another.
-/

namespace IbexWb.Synchronous

variable {ι σ ο ι' σ' ο' : Type}

/-- `out` drives the outputs during a cycle, `next` loads the registers at its end. -/
structure Machine (ι σ ο : Type) where
  next : σ → ι → σ
  out : σ → ι → ο

namespace Machine

def run (machine : Machine ι σ ο) (reset : σ) (input : Nat → ι) : Nat → σ
  | 0 => reset
  | cycle + 1 => machine.next (machine.run reset input cycle) (input cycle)

def trace (machine : Machine ι σ ο) (reset : σ) (input : Nat → ι) (cycle : Nat) : ο :=
  machine.out (machine.run reset input cycle) (input cycle)

@[simp] theorem run_zero (machine : Machine ι σ ο) (reset : σ) (input : Nat → ι) :
    machine.run reset input 0 = reset := rfl

theorem run_succ (machine : Machine ι σ ο) (reset : σ) (input : Nat → ι) (cycle : Nat) :
    machine.run reset input (cycle + 1) =
      machine.next (machine.run reset input cycle) (input cycle) := rfl

/-- A property that holds after reset and survives every cycle before `last` holds up to it. -/
theorem run_invariant (machine : Machine ι σ ο) (reset : σ) (input : Nat → ι)
    (invariant : Nat → σ → Prop) (last : Nat) (initial : invariant 0 reset)
    (step : ∀ cycle, cycle < last → invariant cycle (machine.run reset input cycle) →
      invariant (cycle + 1) (machine.next (machine.run reset input cycle) (input cycle))) :
    ∀ cycle, cycle ≤ last → invariant cycle (machine.run reset input cycle) := by
  intro cycle
  induction cycle with
  | zero => exact fun _ => initial
  | succ cycle inductionHypothesis =>
    intro bound
    exact step cycle bound (inductionHypothesis (Nat.le_of_succ_le bound))

/-- A relation between the registers of two runs that survives every pair of cycles. -/
theorem run_relation (left : Machine ι σ ο) (right : Machine ι' σ' ο') (leftReset : σ)
    (rightReset : σ') (leftInput : Nat → ι) (rightInput : Nat → ι') (related : σ → σ' → Prop)
    (initial : related leftReset rightReset)
    (step : ∀ cycle leftState rightState, related leftState rightState →
      related (left.next leftState (leftInput cycle)) (right.next rightState (rightInput cycle))) :
    ∀ cycle, related (left.run leftReset leftInput cycle) (right.run rightReset rightInput cycle) := by
  intro cycle
  induction cycle with
  | zero => exact initial
  | succ cycle inductionHypothesis => exact step cycle _ _ inductionHypothesis

/-- `abstract` computes exactly what `concrete` does, seen through functions on registers,
inputs and outputs. -/
structure Abstraction (concrete : Machine ι σ ο) (abstract : Machine ι' σ' ο') where
  state : σ → σ'
  input : ι → ι'
  output : ο → ο'
  next_eq : ∀ registers signals,
    state (concrete.next registers signals) = abstract.next (state registers) (input signals)
  out_eq : ∀ registers signals,
    output (concrete.out registers signals) = abstract.out (state registers) (input signals)

namespace Abstraction

variable {concrete : Machine ι σ ο} {abstract : Machine ι' σ' ο'}

theorem run_eq (abstraction : Abstraction concrete abstract) (reset : σ) (input : Nat → ι)
    (cycle : Nat) :
    abstraction.state (concrete.run reset input cycle) =
      abstract.run (abstraction.state reset) (fun cycle => abstraction.input (input cycle)) cycle := by
  induction cycle with
  | zero => rfl
  | succ cycle inductionHypothesis =>
    rw [run_succ, run_succ, abstraction.next_eq, inductionHypothesis]

theorem trace_eq (abstraction : Abstraction concrete abstract) (reset : σ) (input : Nat → ι)
    (cycle : Nat) :
    abstraction.output (concrete.trace reset input cycle) =
      abstract.trace (abstraction.state reset) (fun cycle => abstraction.input (input cycle)) cycle := by
  rw [trace, trace, abstraction.out_eq, abstraction.run_eq]

end Abstraction

end Machine

end IbexWb.Synchronous
