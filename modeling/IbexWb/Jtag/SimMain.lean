import IbexWb.Jtag.Driver
import IbexWb.Synchronous.Events
import IbexWb.Synchronous.Machine

/-! # The main loop of the debug simulation

A time step toggles TCK when the time is a multiple of the half period, calls the driver while
there are transactions, and evaluates the design, whose TAP sees an edge when TCK rose.  The
queue is popped in the step after the driver has told that it is ready, and the transaction that
leaves it is driven once more in that step.

The loop is modelled from the step on in which the driver is first called.  The source takes `front`
in each of these steps, also of an empty queue, which C++ leaves undefined; here a step with an
empty queue goes on as if the value had not been taken.
-/

namespace IbexWb.Jtag

open IbexWb.Synchronous

structure Sim where
  time : Nat
  top : Pins
  driver : Driver
  seq : List Transaction
  tap : State
deriving DecidableEq, Repr

/-- `if (contextp->time() % half == 0) top->tck = ~top->tck` -/
def clock (half : Nat) (sim : Sim) : Sim :=
  let time := sim.time + 1
  { sim with
    time := time
    top := { sim.top with tck := if time % half = 0 then !sim.top.tck else sim.top.tck } }

/-- TCK toggles in the step. -/
abbrev Toggles (half : Nat) (sim : Sim) : Prop := (sim.time + 1) % half = 0

theorem clock_toggle {half : Nat} {sim : Sim} (toggles : Toggles half sim) : clock half sim =
    { sim with time := sim.time + 1, top := { sim.top with tck := !sim.top.tck } } := by
  simp only [clock, toggles, if_true]

theorem clock_hold {half : Nat} {sim : Sim} (quiet : ¬ Toggles half sim) :
    clock half sim = { sim with time := sim.time + 1 } := by
  simp only [clock, quiet, if_false]

theorem no_rise {half : Nat} {sim : Sim} (flat : ¬ (Toggles half sim ∧ sim.top.tck = false)) :
    sim.top.tck = true ∨ (clock half sim).top.tck = false := by
  cases tck : sim.top.tck with
  | true => exact Or.inl rfl
  | false =>
    rw [clock_hold fun toggles => flat ⟨toggles, tck⟩]
    exact Or.inr tck

/-- `txn = seq.front()`, a pop if the driver is ready, and the call. -/
def serve (sim : Sim) : Sim :=
  match sim.seq with
  | [] => sim
  | txn :: rest =>
    let called := drive ⟨sim.driver, sim.top, txn⟩
    { sim with
      driver := called.driver
      top := called.top
      seq := if sim.driver.rdy then rest else called.xaction :: rest }

/-- The TAP in `top->eval()`; `tck` is the clock at the evaluation before. -/
def eval (tck : Bool) (sim : Sim) : Sim :=
  if !tck && sim.top.tck then { sim with tap := sim.tap.next sim.top.tms } else sim

/-- What the TAP does in the evaluation. -/
def observe (tck : Bool) (sim : Sim) : Option Cycle :=
  if !tck && sim.top.tck then some (sim.tap.cycle sim.top.tdi) else none

def machine (half : Nat) : Machine Unit Sim (Option Cycle) where
  next sim _ := eval sim.top.tck (serve (clock half sim))
  out sim _ := observe sim.top.tck (serve (clock half sim))

theorem serve_tck (sim : Sim) : (serve sim).top.tck = sim.top.tck := by
  obtain ⟨time, top, driver, seq, tap⟩ := sim
  cases seq with
  | nil => rfl
  | cons txn rest => exact drive_tck _

theorem serve_time (sim : Sim) : (serve sim).time = sim.time := by
  obtain ⟨time, top, driver, seq, tap⟩ := sim
  cases seq <;> rfl

theorem eval_tck (tck : Bool) (sim : Sim) : (eval tck sim).top.tck = sim.top.tck := by
  rw [eval]
  split <;> rfl

theorem eval_time (tck : Bool) (sim : Sim) : (eval tck sim).time = sim.time := by
  rw [eval]
  split <;> rfl

section Run

variable (half : Nat) (initial : Sim)

def sim (step : Nat) : Sim := (machine half).run initial (fun _ => ()) step

/-- The cycles of the TAP before `step`. -/
def tapLog (step : Nat) : List Cycle := log ((machine half).trace initial fun _ => ()) step

theorem sim_succ (step : Nat) :
    sim half initial (step + 1) = (machine half).next (sim half initial step) () := rfl

theorem next_tck (sim : Sim) :
    ((machine half).next sim ()).top.tck = (clock half sim).top.tck :=
  (eval_tck _ _).trans (serve_tck _)

theorem next_time (sim : Sim) : ((machine half).next sim ()).time = sim.time + 1 :=
  (eval_time _ _).trans (serve_time _)

theorem sim_time (step : Nat) : (sim half initial step).time = initial.time + step := by
  induction step with
  | zero => rfl
  | succ step inductionHypothesis =>
    exact (next_time half _).trans (congrArg Nat.succ inductionHypothesis)

theorem tapLog_succ (step : Nat) : tapLog half initial (step + 1) =
    tapLog half initial step ++ ((machine half).out (sim half initial step) ()).toList :=
  log_succ _ step

end Run

/-- From every step on there is a first one in which TCK toggles. -/
theorem exists_toggle {half : Nat} (positive : 0 < half) (initial : Sim) (step : Nat) :
    ∃ count, Toggles half (sim half initial (step + count)) ∧
      ∀ earlier, earlier < count → ¬ Toggles half (sim half initial (step + earlier)) := by
  have eventually : ∃ count, Toggles half (sim half initial (step + count)) := by
    refine ⟨(half - 1) * (initial.time + step + 1), ?_⟩
    -- the time at the end of that step is a multiple of `half`
    have multiple : initial.time + (step + (half - 1) * (initial.time + step + 1)) + 1 =
        half * (initial.time + step + 1) := by
      obtain ⟨rest, rfl⟩ := Nat.exists_eq_succ_of_ne_zero positive.ne'
      rw [Nat.succ_sub_one, Nat.succ_mul]
      omega
    rw [Toggles, sim_time, multiple, Nat.mul_mod_right]
  exact ⟨Nat.find eventually, Nat.find_spec eventually, fun _ before =>
    Nat.find_min eventually before⟩

end IbexWb.Jtag
