import IbexWb.Rtl.Core2wb
import IbexWb.Soc.AddressMap
import IbexWb.Soc.Slaves

/-! # The shared-bus system

Every master is a `core2wb` converter and the slaves are of the kinds of `Slave`.  The signals of
one cycle are computed in the order in which they depend on each other: the requests of the
converters, the requests routed to the slaves, the answers of the slaves, the answers routed to
the converters.
-/

namespace IbexWb.System

open IbexWb.Synchronous SharedBus

structure State (pending numm nums : Nat) where
  counts : Fin numm → Core2wb.Counts pending
  bus : SharedBus.State numm nums
  slaves : Fin nums → Slave

/-- What the cores drive, and what a debug module behind slave `j` would read. -/
structure Input (numm nums : Nat) where
  core : Fin numm → CoreMaster
  rdata : Fin nums → Dat

variable {pending numm nums : Nat}

def State.reset (slaves : Fin nums → Slave) : State pending numm nums where
  counts := fun _ => 0
  bus := SharedBus.State.reset
  slaves := slaves

/-! ## The signals of one cycle

`wbm i` and `wbs j` are the requests as the converters and the interconnect drive them, `answer j`
and `routed i` the answers as the slaves and the interconnect drive them, `core i` is what the
core behind master `i` sees. -/

section Signals

variable (params : Params nums) (state : State pending numm nums) (input : Input numm nums)

def wbm (i : Fin numm) : WbMaster := Core2wb.wb (state.counts i) (input.core i)

def wbs (j : Fin nums) : WbMaster := toSlave params (wbm state input) j

def answer (j : Fin nums) : WbSlave := (state.slaves j).out (input.rdata j) (wbs params state input j)

def routed (i : Fin numm) : WbSlave :=
  toMaster state.bus (wbm state input) (answer params state input) i

def core (i : Fin numm) : CoreSlave :=
  Core2wb.core (state.counts i) (input.core i) (routed params state input i)

def next : State pending numm nums where
  counts i := Core2wb.next (state.counts i) (input.core i) (routed params state input i)
  bus := SharedBus.next params state.bus (wbm state input)
  slaves j := (state.slaves j).next (input.rdata j) (wbs params state input j)

end Signals

def machine (pending numm : Nat) (params : Params nums) :
    Machine (Input numm nums) (State pending numm nums) (Fin numm → CoreSlave) where
  next := next params
  out := core params

section Run

variable (params : Params nums) (slaves : Fin nums → Slave) (input : Nat → Input numm nums)
  (pending : Nat)

/-- The registers in each cycle of the run from reset. -/
def reached (cycle : Nat) : State pending numm nums :=
  (machine pending numm params).run (State.reset slaves) input cycle

/-- What the cores see in each cycle of the run from reset. -/
def seen (cycle : Nat) : Fin numm → CoreSlave :=
  (machine pending numm params).trace (State.reset slaves) input cycle

end Run

/-! ## One cycle -/

section Cycle

variable (params : Params nums) (state : State pending numm nums) (input : Input numm nums)

/-- The request of master `i` is granted: its converter owns the bus and the core requests. -/
def granted (i : Fin numm) : Bool := gnt (wbm state input) i && (input.core i).req

/-- An answer is on its way to master `i`. -/
def due (i : Fin numm) : Bool :=
  state.bus.gnt1 i && decide (∃ j, (state.slaves j).pending = true)

def decoded (adr : Adr) : Bool := decide (∃ j, ss params adr j = true)

variable {state input}

theorem granted_eq_true {i : Fin numm} :
    granted state input i = true ↔ Owner (wbm state input) i ∧ (input.core i).req = true := by
  rw [granted, Bool.and_eq_true, gnt_eq_true]

theorem granted_unique {i j : Fin numm} (left : granted state input i = true)
    (right : granted state input j = true) : i = j :=
  (granted_eq_true.mp left).1.unique (granted_eq_true.mp right).1

theorem request_of_granted {i : Fin numm} (taken : granted state input i = true) :
    request (wbm state input) = wbm state input i :=
  request_of_owner (granted_eq_true.mp taken).1

theorem request_strobes_iff :
    (request (wbm state input)).strobes = true ↔ ∃ i, granted state input i = true := by
  rw [request_strobes]
  exact exists_congr fun i => granted_eq_true.symm

theorem wbs_strobes {j : Fin nums} :
    (wbs params state input j).strobes = true ↔
      ∃ i, granted state input i = true ∧ ss params (input.core i).addr j = true := by
  rw [wbs, toSlave_strobes_iff]
  apply exists_congr
  intro i
  rw [granted_eq_true, and_assoc]
  rfl

theorem next_slaves_of_granted {i : Fin numm} {j : Fin nums} (taken : granted state input i = true)
    (selected : ss params (input.core i).addr j = true) :
    (next params state input).slaves j =
      (state.slaves j).next (input.rdata j) (wbm state input i) := by
  show (state.slaves j).next (input.rdata j) (toSlave params (wbm state input) j) = _
  rw [toSlave_of_owner params (granted_eq_true.mp taken).1 selected]

/-- The read data of the slave that the granted request selects comes back in the next cycle,
whoever owns the bus then. -/
theorem routed_datS_next {i : Fin numm} {j : Fin nums} (taken : granted state input i = true)
    (oneHot : ∀ k, ss params (input.core i).addr k = true ↔ k = j) (later : Input numm nums) :
    (routed params (next params state input) later i).datS =
      (answer params (next params state input) later j).datS := by
  have owns := (granted_eq_true.mp taken).1
  have registers : (next params state input).bus =
      ⟨gnt (wbm state input), ss params (input.core i).addr⟩ := by
    have strobed := request_strobes_iff.mpr ⟨i, taken⟩
    exact (next_of_strobe params state.bus (wbm state input) strobed).trans
      (by rw [request_of_granted taken]; rfl)
  rw [routed, registers]
  simp only [toMaster, gnt_eq_true.mpr owns, if_true]
  exact response_datS_of_oneHot _ oneHot

variable (state input)

theorem routed_stall (i : Fin numm) :
    (routed params state input i).stall = !gnt (wbm state input) i := by
  have quiet (j : Fin nums) : (answer params state input j).stall = false := Slave.out_stall _ _ _
  have stalled := toMaster_stall state.bus (wbm state input) (answer params state input) i
  rw [and_iff_left quiet, ← gnt_eq_true] at stalled
  rw [routed]
  cases owns : gnt (wbm state input) i <;> simpa [owns] using stalled

theorem routed_err (i : Fin numm) : (routed params state input i).err = false := by
  have quiet := not_congr (toMaster_err state.bus (wbm state input) (answer params state input) i)
  simpa [routed, answer] using quiet

theorem routed_ack (i : Fin numm) (held : (wbm state input i).cyc = true) :
    (routed params state input i).ack = due state i := by
  have shared : (request (wbm state input)).cyc = true := request_cyc.mpr ⟨i, held⟩
  -- the debug port gates its answer by the shared `cyc`, which is high now
  have acked (j : Fin nums) : (answer params state input j).ack = (state.slaves j).pending :=
    Slave.out_ack _ _ _ shared
  rw [Bool.eq_iff_iff, routed, toMaster_ack]
  simp only [acked, due, Bool.and_eq_true, decide_eq_true_eq]

/-- After a cycle an answer is due to the master granted in it, if its address selects a slave. -/
theorem next_due (i : Fin numm) :
    due (next params state input) i =
      (granted state input i && decoded params (input.core i).addr) := by
  have owed (j : Fin nums) : ((next params state input).slaves j).pending = true ↔
      (request (wbm state input)).strobes = true ∧
        ss params (request (wbm state input)).adr j = true := by
    rw [next, Slave.next_pending]
    exact toSlave_strobes params (wbm state input) j
  rw [Bool.eq_iff_iff]
  simp only [due, decoded, owed, Bool.and_eq_true, decide_eq_true_eq]
  cases strobed : (request (wbm state input)).strobes with
  | false =>
    -- `gnt1` may be stale, but no slave owes an answer
    have none : ¬ granted state input i = true := fun taken => by
      simpa [strobed] using request_strobes_iff.mpr ⟨i, taken⟩
    simp [none]
  | true =>
    obtain ⟨owner, taken⟩ := request_strobes_iff.mp strobed
    have registers : (next params state input).bus.gnt1 = gnt (wbm state input) :=
      congrArg SharedBus.State.gnt1 (next_of_strobe params state.bus (wbm state input) strobed)
    have address : (request (wbm state input)).adr = (input.core owner).addr :=
      congrArg WbMaster.adr (request_of_granted taken)
    rw [registers, gnt_oneHot (granted_eq_true.mp taken).1, address]
    constructor
    · rintro ⟨rfl, j, -, selected⟩
      exact ⟨taken, j, selected⟩
    · rintro ⟨other, j, selected⟩
      obtain rfl := granted_unique other taken
      exact ⟨rfl, j, rfl, selected⟩

end Cycle

end IbexWb.System
