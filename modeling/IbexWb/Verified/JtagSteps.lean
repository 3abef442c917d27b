import IbexWb.Jtag.SimMain
import IbexWb.Verified.JtagMoves

/-! # A step of the debug simulation

Between two edges the cycles that the TAP has yet to make are a function of the state of the
simulation (`pending`).  A rising edge makes the first of them, a falling edge only moves it from
the driver to the pins, and all other steps leave them alone.
-/

namespace IbexWb.Jtag

/-! ## The simulation between two steps -/

/-- The queue without a transaction that is done and about to be popped. -/
def Sim.current (sim : Sim) : List Transaction :=
  if sim.driver.rdy then sim.seq.tail else sim.seq

def upcoming (driver : Driver) : List Transaction → List Cycle
  | [] => []
  | txn :: rest => ongoing driver txn ++ rest.flatMap deliver

/-- The cycles that the TAP has yet to make: that of the next edge is on the pins while TCK is low. -/
def pending (sim : Sim) : List Cycle :=
  (if sim.top.tck then [] else [sim.tap.cycle sim.top.tdi]) ++ upcoming sim.driver sim.current

/-- The driver is where the TAP is, or where the next edge takes it. -/
structure InStep (sim : Sim) : Prop where
  state : sim.driver.state = if sim.top.tck then sim.tap else sim.tap.next sim.top.tms
  started : sim.driver.state ≠ .testLogicReset
  past : sim.seq ≠ [] → sim.driver.pastTck = sim.top.tck
  ready : sim.driver.rdy = true → sim.seq ≠ [] ∧ sim.top.tck = false
  fits : ∀ txn ∈ sim.current, txn.Fits
  inRange : ∀ txn rest, sim.current = txn :: rest → InRange sim.driver txn
  resting : sim.current = [] → sim.driver.state = .runTestIdle ∧ sim.top.tms = false

theorem upcoming_fresh {driver : Driver} (state : driver.state = .runTestIdle)
    (idle : driver.idle = 0) (queue : List Transaction) :
    upcoming driver queue = queue.flatMap deliver := by
  cases queue with
  | nil => rfl
  | cons txn rest =>
    rw [upcoming, ongoing, state, idle]
    rfl

theorem upcoming_ne_nil (driver : Driver) (txn : Transaction) (rest : List Transaction) :
    upcoming driver (txn :: rest) ≠ [] := by
  have busy : ongoing driver txn ≠ [] := by
    rw [ongoing]
    cases driver.state <;> simp [scanOut, shiftOut, leave]
  exact fun none => busy (List.append_eq_nil_iff.mp none).1

/-- A call that sees no falling edge takes `rdy` back, and what is done leaves the queue. -/
theorem serve_still {sim : Sim}
    (still : sim.seq ≠ [] → sim.driver.pastTck = true → sim.top.tck = true)
    (ready : sim.driver.rdy = true → sim.seq ≠ []) : ∃ pastTck,
      (sim.seq ≠ [] → pastTck = sim.top.tck) ∧ serve sim = { sim with
        driver := { sim.driver with rdy := false, pastTck := pastTck }
        seq := sim.current } := by
  obtain ⟨time, top, ⟨pastTck, rdy, bits, idle, state⟩, seq, tap⟩ := sim
  cases seq with
  | nil =>
    obtain rfl : rdy = false := Bool.eq_false_iff.mpr fun rdy => ready rdy rfl
    exact ⟨pastTck, absurd rfl, rfl⟩
  | cons txn rest =>
    refine ⟨top.tck, fun _ => rfl, ?_⟩
    simp only [serve, Sim.current]
    rw [drive_still (still (List.cons_ne_nil txn rest))]
    rfl

/-! ## What a step can do -/

section Step

variable {half : Nat} {sim : Sim}

/-- The driver is called and sees TCK fall. -/
structure DriverFalls (half : Nat) (sim : Sim) : Prop where
  called : sim.seq ≠ []
  past : sim.driver.pastTck = true
  low : (clock half sim).top.tck = false

/-- Neither a rising edge nor a move: the queue is popped if the driver was ready. -/
theorem next_still (edge : sim.top.tck = true ∨ (clock half sim).top.tck = false)
    (still : ¬ DriverFalls half sim) (ready : sim.driver.rdy = true → sim.seq ≠ []) :
    ∃ pastTck, (sim.seq ≠ [] → pastTck = (clock half sim).top.tck) ∧
      (machine half).next sim () = ⟨sim.time + 1, (clock half sim).top,
        { sim.driver with rdy := false, pastTck := pastTck }, sim.current, sim.tap⟩ ∧
      (machine half).out sim () = none := by
  obtain ⟨pastTck, called, served⟩ : ∃ pastTck, _ ∧ serve (clock half sim) = _ :=
    serve_still (fun busy past => Bool.eq_true_of_not_eq_false fun low => still ⟨busy, past, low⟩) ready
  have flat : (!sim.top.tck && (clock half sim).top.tck) = false := by
    obtain high | low := edge
    · rw [high]
      rfl
    · rw [low, Bool.and_false]
  refine ⟨pastTck, called, ?_, ?_⟩
  · show eval sim.top.tck (serve (clock half sim)) = _
    rw [served, eval, flat]
    rfl
  · show observe sim.top.tck (serve (clock half sim)) = _
    rw [served, observe, flat]
    rfl

theorem next_rise (rise : Toggles half sim) (low : sim.top.tck = false)
    (ready : sim.driver.rdy = true → sim.seq ≠ []) : ∃ pastTck,
      (sim.seq ≠ [] → pastTck = true) ∧
      (machine half).next sim () = ⟨sim.time + 1, { sim.top with tck := true },
        { sim.driver with rdy := false, pastTck := pastTck }, sim.current,
        sim.tap.next sim.top.tms⟩ ∧
      (machine half).out sim () = some (sim.tap.cycle sim.top.tdi) := by
  have clocked := clock_toggle rise
  rw [low] at clocked
  obtain ⟨pastTck, called, served⟩ : ∃ pastTck, _ ∧ serve (clock half sim) = _ :=
    serve_still (by rw [clocked]; exact fun _ _ => rfl) ready
  rw [clocked] at served called
  refine ⟨pastTck, called, ?_, ?_⟩
  · show eval sim.top.tck (serve (clock half sim)) = _
    rw [clocked, served, eval, low]
    rfl
  · show observe sim.top.tck (serve (clock half sim)) = _
    rw [clocked, served, observe, low]
    rfl

def Sim.moved (sim : Sim) (txn : Transaction) : Call :=
  move ⟨sim.driver, { sim.top with tck := false }, txn⟩

/-- The simulation after a move of the driver. -/
def Sim.after (sim : Sim) (txn : Transaction) (rest : List Transaction) : Sim :=
  ⟨sim.time + 1, (sim.moved txn).top, { (sim.moved txn).driver with pastTck := false },
    (sim.moved txn).xaction :: rest, sim.tap⟩

theorem moved_tck (sim : Sim) (txn : Transaction) : (sim.moved txn).top.tck = false := move_tck _

/-- The call in which the driver sees TCK fall, whether it just did or not. -/
theorem next_fall {txn : Transaction} {rest : List Transaction} (fall : DriverFalls half sim)
    (queue : sim.seq = txn :: rest) (busy : sim.driver.rdy = false) :
    (machine half).next sim () = sim.after txn rest ∧ (machine half).out sim () = none := by
  have low := moved_tck sim txn
  have clocked : clock half sim =
      { sim with time := sim.time + 1, top := { sim.top with tck := false } } := by
    rw [← fall.low]
    rfl
  have served : serve (clock half sim) = sim.after txn rest := by
    simp only [serve, clocked, queue, busy]
    rw [drive_fall fall.past rfl busy, ← Sim.moved, low]
    rfl
  have tck : (sim.after txn rest).top.tck = false := low
  constructor
  · show eval sim.top.tck (serve (clock half sim)) = _
    rw [served, eval, tck, Bool.and_false]
    rfl
  · show observe sim.top.tck (serve (clock half sim)) = _
    rw [served, observe, tck, Bool.and_false]
    rfl

end Step

/-! ## In step with the TAP -/

section InStep

variable {half : Nat} {sim : Sim}

theorem InStep.busy (inStep : InStep sim) (high : sim.top.tck = true) : sim.driver.rdy = false :=
  Bool.eq_false_iff.mpr fun rdy => Bool.false_ne_true ((inStep.ready rdy).2.symm.trans high)

theorem InStep.current_eq (inStep : InStep sim) (high : sim.top.tck = true) :
    sim.current = sim.seq := by
  rw [Sim.current, inStep.busy high, if_neg Bool.false_ne_true]

theorem seq_ne_nil (busy : sim.current ≠ []) : sim.seq ≠ [] := by
  intro empty
  apply busy
  rw [Sim.current, empty]
  exact ite_self _

theorem upcoming_settled (driver : Driver) (rdy pastTck : Bool) (queue : List Transaction) :
    upcoming { driver with rdy := rdy, pastTck := pastTck } queue = upcoming driver queue := by
  cases queue <;> rfl

/-- A step without a move keeps the driver where it was. -/
theorem InStep.settled (inStep : InStep sim) (time : Nat) {top : Pins} {pastTck : Bool} {tap : State}
    (state : sim.driver.state = if top.tck then tap else tap.next top.tms)
    (tms : top.tms = sim.top.tms) (past : sim.seq ≠ [] → pastTck = top.tck) :
    InStep ⟨time, top, { sim.driver with rdy := false, pastTck := pastTck }, sim.current, tap⟩ where
  state := state
  started := inStep.started
  past busy := past (seq_ne_nil busy)
  ready rdy := absurd rdy Bool.false_ne_true
  fits := inStep.fits
  inRange := inStep.inRange
  resting empty := ⟨(inStep.resting empty).1, tms.trans (inStep.resting empty).2⟩

theorem pending_settled (sim : Sim) (time : Nat) (top : Pins) (pastTck : Bool) (tap : State) :
    pending ⟨time, top, { sim.driver with rdy := false, pastTck := pastTck }, sim.current, tap⟩ =
      (if top.tck then [] else [tap.cycle top.tdi]) ++ upcoming sim.driver sim.current :=
  congrArg _ (upcoming_settled sim.driver false pastTck sim.current)

section Move

variable {txn : Transaction} {rest : List Transaction}

theorem current_after (sim : Sim) (txn : Transaction) (rest : List Transaction) :
    (sim.after txn rest).current =
      if (sim.moved txn).driver.rdy then rest else (sim.moved txn).xaction :: rest := rfl

/-- A move takes the driver one state ahead of the TAP. -/
theorem inStep_after (moves : Moves ⟨sim.driver, { sim.top with tck := false }, txn⟩ (sim.moved txn))
    (state : sim.driver.state.next (sim.moved txn).top.tms = sim.tap.next (sim.moved txn).top.tms)
    (fits : ∀ queued ∈ txn :: rest, queued.Fits) : InStep (sim.after txn rest) := by
  have low := moved_tck sim txn
  have restFits := (List.forall_mem_cons.mp fits).2
  have reached : (sim.moved txn).driver.state = if (sim.moved txn).top.tck then sim.tap else
      sim.tap.next (sim.moved txn).top.tms := by
    rw [low, if_neg Bool.false_ne_true, ← state, moves.state]
  cases rdy : (sim.moved txn).driver.rdy with
  | false =>
    have current : (sim.after txn rest).current = (sim.moved txn).xaction :: rest := by
      rw [current_after, rdy, if_neg Bool.false_ne_true]
    have lenFits : (sim.moved txn).xaction.Fits := by
      rw [Transaction.Fits, moves.len]
      exact (List.forall_mem_cons.mp fits).1
    refine ⟨reached, moves.started, fun _ => low.symm, fun ready => ?_, ?_, ?_, ?_⟩
    · exact absurd (rdy.symm.trans ready) Bool.false_ne_true
    · rw [current]
      exact List.forall_mem_cons.mpr ⟨lenFits, restFits⟩
    · intro head tail equal
      obtain ⟨rfl, rfl⟩ := List.cons.inj (current.symm.trans equal)
      exact moves.inRange rdy
    · exact fun empty => absurd (current.symm.trans empty) (List.cons_ne_nil _ _)
  | true =>
    obtain ⟨idle, fresh, tms⟩ := moves.ready rdy
    have current : (sim.after txn rest).current = rest := by
      rw [current_after, rdy, if_pos rfl]
    refine ⟨reached, moves.started, fun _ => low.symm, fun _ => ⟨List.cons_ne_nil _ _, low⟩, ?_, ?_,
      fun _ => ⟨idle, tms⟩⟩
    · rw [current]
      exact restFits
    · intro head tail _
      show InRange { (sim.moved txn).driver with pastTck := false } head
      simp [InRange, idle, fresh]

/-- A move takes the first of the cycles to come to the pins. -/
theorem pending_after
    (moves : Moves ⟨sim.driver, { sim.top with tck := false }, txn⟩ (sim.moved txn)) :
    pending (sim.after txn rest) = sim.tap.cycle (sim.moved txn).top.tdi ::
      (upcoming sim.driver (txn :: rest)).tail := by
  have low : (sim.after txn rest).top.tck = false := moved_tck sim txn
  rw [upcoming, moves.ongoing, pending, low, current_after]
  cases rdy : (sim.moved txn).driver.rdy with
  | false => rfl
  | true =>
    obtain ⟨idle, fresh, _⟩ := moves.ready rdy
    have queue : upcoming (sim.after txn rest).driver rest = rest.flatMap deliver :=
      upcoming_fresh idle fresh rest
    rw [if_pos rfl, queue]
    rfl

end Move

/-- A rising edge makes the first of the pending cycles. -/
theorem inStep_rise (inStep : InStep sim) (rise : Toggles half sim) (low : sim.top.tck = false) :
    InStep ((machine half).next sim ()) ∧
      (machine half).out sim () = some (sim.tap.cycle sim.top.tdi) ∧
      pending sim = sim.tap.cycle sim.top.tdi :: pending ((machine half).next sim ()) := by
  obtain ⟨pastTck, past, next, out⟩ := next_rise rise low fun rdy => (inStep.ready rdy).1
  have state := inStep.state
  rw [low, if_neg Bool.false_ne_true] at state
  rw [next]
  refine ⟨inStep.settled _ state rfl past, out, ?_⟩
  rw [pending_settled, pending, low]
  rfl

theorem inStep_quiet (inStep : InStep sim) (quiet : ¬ Toggles half sim) :
    InStep ((machine half).next sim ()) ∧ (machine half).out sim () = none ∧
      pending ((machine half).next sim ()) = pending sim := by
  have clocked := clock_hold quiet
  have still : ¬ DriverFalls half sim := by
    rintro ⟨called, past, low⟩
    rw [clocked] at low
    exact Bool.false_ne_true (low.symm.trans ((inStep.past called).symm.trans past))
  obtain ⟨pastTck, past, next, out⟩ := next_still (no_rise fun rise => quiet rise.1) still
    fun rdy => (inStep.ready rdy).1
  rw [next, clocked]
  rw [clocked] at past
  exact ⟨inStep.settled _ inStep.state rfl past, out, pending_settled _ _ _ _ _⟩

/-- A falling edge makes the driver move, if there is a transaction to move for. -/
theorem inStep_fall (inStep : InStep sim) (fall : Toggles half sim) (high : sim.top.tck = true) :
    InStep ((machine half).next sim ()) ∧ (machine half).out sim () = none ∧
      (sim.current ≠ [] → pending ((machine half).next sim ()) = pending sim) := by
  have here : sim.driver.state = sim.tap := by rw [inStep.state, high, if_pos rfl]
  have clocked := clock_toggle fall
  rw [high] at clocked
  cases queue : sim.seq with
  | nil =>
    have empty : sim.current = [] := (inStep.current_eq high).trans queue
    obtain ⟨idle, tms⟩ := inStep.resting empty
    obtain ⟨pastTck, past, next, out⟩ := next_still (Or.inl high)
      (fun falls => falls.called queue) fun rdy => (inStep.ready rdy).1
    rw [next, clocked]
    refine ⟨inStep.settled _ ?_ rfl (absurd queue), out, absurd empty⟩
    -- without transactions the TAP stays in Run-Test/Idle
    show sim.driver.state = sim.tap.next sim.top.tms
    rw [tms, ← here, idle]
    rfl
  | cons txn rest =>
    have current : sim.current = txn :: rest := (inStep.current_eq high).trans queue
    have fits : ∀ queued ∈ txn :: rest, queued.Fits := current ▸ inStep.fits
    have moves : Moves ⟨sim.driver, { sim.top with tck := false }, txn⟩ (sim.moved txn) :=
      move_moves (fits txn List.mem_cons_self) (inStep.inRange txn rest current) (inStep.busy high)
    have called : sim.seq ≠ [] := queue ▸ List.cons_ne_nil txn rest
    have falls : DriverFalls half sim :=
      ⟨called, (inStep.past called).trans high, by rw [clocked]; rfl⟩
    obtain ⟨next, out⟩ := next_fall falls queue (inStep.busy high)
    rw [next]
    refine ⟨inStep_after moves (by rw [here]) fits, out, fun _ => (pending_after moves).trans ?_⟩
    rw [pending, high, current, upcoming, moves.ongoing, here]
    rfl

/-- The driver stays in step. -/
theorem next_inStep (inStep : InStep sim) : InStep ((machine half).next sim ()) := by
  by_cases toggles : Toggles half sim
  · cases tck : sim.top.tck with
    | false => exact (inStep_rise inStep toggles tck).1
    | true => exact (inStep_fall inStep toggles tck).1
  · exact (inStep_quiet inStep toggles).1

end InStep

/-! ## Before the first move -/

/-- The driver has not moved yet, and the TAP is where TMS low keeps it. -/
structure Reset (sim : Sim) : Prop where
  state : sim.driver.state = .testLogicReset
  busy : sim.driver.rdy = false
  tms : sim.top.tms = false
  tap : sim.tap = .testLogicReset ∨ sim.tap = .runTestIdle
  fits : ∀ txn ∈ sim.seq, txn.Fits

/-- A cycle that the TAP may make before the first transaction. -/
def Lead (cycle : Cycle) : Prop := cycle = .visit .testLogicReset ∨ cycle = .visit .runTestIdle

section Reset

variable {half : Nat} {sim : Sim}

theorem Reset.current_eq (reset : Reset sim) : sim.current = sim.seq := by
  rw [Sim.current, reset.busy, if_neg Bool.false_ne_true]

theorem Reset.lead (reset : Reset sim) (tdi : Bool) : Lead (sim.tap.cycle tdi) := by
  obtain tap | tap := reset.tap <;> rw [tap]
  · exact Or.inl rfl
  · exact Or.inr rfl

theorem Reset.next_tap (reset : Reset sim) : sim.tap.next false = .runTestIdle := by
  obtain tap | tap := reset.tap <;> rw [tap] <;> rfl

/-- A step in which the driver sees no falling edge. -/
theorem reset_next (reset : Reset sim) (still : ¬ DriverFalls half sim) :
    Reset ((machine half).next sim ()) ∧ ((machine half).next sim ()).seq = sim.seq ∧
      (sim.seq ≠ [] → ((machine half).next sim ()).driver.pastTck =
        ((machine half).next sim ()).top.tck) ∧
      ∀ cycle ∈ (machine half).out sim (), Lead cycle := by
  have ready : sim.driver.rdy = true → sim.seq ≠ [] := fun rdy =>
    absurd (reset.busy.symm.trans rdy) Bool.false_ne_true
  have fits : ∀ txn ∈ sim.current, txn.Fits := by
    rw [reset.current_eq]
    exact reset.fits
  by_cases rise : Toggles half sim ∧ sim.top.tck = false
  · obtain ⟨pastTck, past, next, out⟩ := next_rise rise.1 rise.2 ready
    rw [next, out, reset.tms, reset.next_tap]
    refine ⟨⟨reset.state, rfl, reset.tms, Or.inr rfl, fits⟩, reset.current_eq, past, ?_⟩
    intro cycle made
    obtain rfl := Option.some.inj made
    exact reset.lead _
  · obtain ⟨pastTck, past, next, out⟩ := next_still (no_rise rise) still ready
    rw [next, out]
    exact ⟨⟨reset.state, rfl, reset.tms, reset.tap, fits⟩, reset.current_eq, past, nofun⟩

/-- The first move: it takes the TAP to Run-Test/Idle, for the first transaction. -/
theorem reset_fall (reset : Reset sim) (fall : DriverFalls half sim) :
    InStep ((machine half).next sim ()) ∧ (machine half).out sim () = none ∧
      ∃ cycle, Lead cycle ∧
        pending ((machine half).next sim ()) = cycle :: sim.seq.flatMap deliver := by
  obtain ⟨txn, rest, queue⟩ := List.exists_cons_of_ne_nil fall.called
  have fits : ∀ queued ∈ txn :: rest, queued.Fits := queue ▸ reset.fits
  have range : InRange sim.driver txn := by
    rw [InRange, reset.state]
    trivial
  have moves : Moves ⟨sim.driver, { sim.top with tck := false }, txn⟩ (sim.moved txn) :=
    move_moves (fits txn List.mem_cons_self) range reset.busy
  have tms : (sim.moved txn).top.tms = false := by
    rw [Sim.moved, move]
    simp only [reset.state]
  obtain ⟨next, out⟩ := next_fall fall queue reset.busy
  rw [next, queue]
  refine ⟨inStep_after moves ?_ fits, out, _, reset.lead (sim.moved txn).top.tdi, ?_⟩
  · rw [tms, reset.state, reset.next_tap]
    rfl
  · rw [pending_after moves, upcoming, ongoing, reset.state]
    rfl

end Reset

/-! ## After the last transaction -/

structure Resting (sim : Sim) : Prop where
  seq : sim.seq = []
  busy : sim.driver.rdy = false
  tms : sim.top.tms = false
  tap : sim.tap = .runTestIdle

theorem resting_next {half : Nat} {sim : Sim} (resting : Resting sim) :
    Resting ((machine half).next sim ()) ∧
      ∃ count, ((machine half).out sim ()).toList = List.replicate count (.visit .runTestIdle) := by
  have ready : sim.driver.rdy = true → sim.seq ≠ [] := fun rdy =>
    absurd (resting.busy.symm.trans rdy) Bool.false_ne_true
  have current : sim.current = [] := by
    rw [Sim.current, resting.busy, if_neg Bool.false_ne_true, resting.seq]
  by_cases rise : Toggles half sim ∧ sim.top.tck = false
  · obtain ⟨pastTck, past, next, out⟩ := next_rise rise.1 rise.2 ready
    rw [next, out, resting.tms, resting.tap]
    exact ⟨⟨current, rfl, resting.tms, rfl⟩, 1, rfl⟩
  · obtain ⟨pastTck, past, next, out⟩ := next_still (no_rise rise)
      (fun falls => falls.called resting.seq) ready
    rw [next, out]
    exact ⟨⟨current, rfl, resting.tms, resting.tap⟩, 0, rfl⟩

theorem reset_rise {half : Nat} {sim : Sim} (reset : Reset sim) (empty : sim.seq = [])
    (rise : Toggles half sim) (low : sim.top.tck = false) :
    Resting ((machine half).next sim ()) := by
  obtain ⟨pastTck, past, next, out⟩ := next_rise rise low fun rdy =>
    absurd (reset.busy.symm.trans rdy) Bool.false_ne_true
  rw [next, reset.tms, reset.next_tap]
  exact ⟨reset.current_eq.trans empty, rfl, reset.tms, rfl⟩

theorem InStep.resting_of_pending {sim : Sim} (inStep : InStep sim) (done : pending sim = []) :
    Resting sim := by
  have high : sim.top.tck = true := by
    cases tck : sim.top.tck with
    | true => rfl
    | false =>
      rw [pending, tck] at done
      exact absurd done (List.cons_ne_nil _ _)
  have empty : sim.current = [] := by
    by_contra busy
    obtain ⟨txn, rest, current⟩ := List.exists_cons_of_ne_nil busy
    rw [pending, current] at done
    exact upcoming_ne_nil _ _ _ (List.append_eq_nil_iff.mp done).2
  obtain ⟨idle, tms⟩ := inStep.resting empty
  refine ⟨(inStep.current_eq high).symm.trans empty, inStep.busy high, tms, ?_⟩
  rw [← idle, inStep.state, high, if_pos rfl]

end IbexWb.Jtag
