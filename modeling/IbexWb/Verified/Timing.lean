import IbexWb.Soc.System

/-! # The timing of the shared-bus system

What a core sees of the handshake does not depend on data, on the slaves' registers or on
`gnt1` and `ss1` one by one.  `Timing` keeps, for each master, its converter and one bit: whether
an answer is due.  Its bus is ideal: it grants the lowest-indexed converter that holds it, and
answers it in the next cycle if the address selects a slave.

`System.timing` shows that the system computes exactly this, whatever the slaves are and
whatever the masters do.  The grant law, the fate of unmapped requests and the independence from
lower-priority masters are then statements about `Timing`.
-/

namespace IbexWb.Timing

open IbexWb.Synchronous SharedBus

structure State (pending numm : Nat) where
  counts : Fin numm → Core2wb.Counts pending
  due : Fin numm → Bool

/-- What the cores drive, and whether the address of each selects a slave. -/
structure Input (numm : Nat) where
  core : Fin numm → CoreMaster
  decoded : Fin numm → Bool

@[ext] structure Handshake where
  gnt : Bool
  rvalid : Bool
  err : Bool
deriving DecidableEq, Repr

def Handshake.ofCore (core : CoreSlave) : Handshake := ⟨core.gnt, core.rvalid, core.err⟩

variable {pending numm : Nat}

/-- The handshake looks at `stall` and `err`, and at `ack` only while the converter holds `cyc`. -/
theorem Handshake.ofCore_congr {counts : Core2wb.Counts pending} {core : CoreMaster}
    {left right : WbSlave} (stall : left.stall = right.stall) (err : left.err = right.err)
    (ack : Core2wb.cyc counts core = true → left.ack = right.ack) :
    ofCore (Core2wb.core counts core left) = ofCore (Core2wb.core counts core right) := by
  simp only [ofCore, Core2wb.core, stall, err, mk.injEq, true_and, and_true]
  cases held : Core2wb.cyc counts core with
  | false => rfl
  | true => rw [ack held]

def State.reset : State pending numm := ⟨fun _ => 0, fun _ => false⟩

section Cycle

variable (state : State pending numm) (input : Input numm)

def wbm (i : Fin numm) : WbMaster := Core2wb.wb (state.counts i) (input.core i)

def granted (i : Fin numm) : Bool := gnt (wbm state input) i && (input.core i).req

def answer (i : Fin numm) : WbSlave where
  ack := state.due i
  err := false
  stall := !gnt (wbm state input) i
  datS := 0

def out (i : Fin numm) : Handshake :=
  .ofCore (Core2wb.core (state.counts i) (input.core i) (answer state input i))

def next : State pending numm where
  counts i := Core2wb.next (state.counts i) (input.core i) (answer state input i)
  due i := granted state input i && input.decoded i

end Cycle

def machine (pending numm : Nat) :
    Machine (Input numm) (State pending numm) (Fin numm → Handshake) where
  next := next
  out := out

end Timing

namespace System

open IbexWb.Synchronous SharedBus

variable {pending numm nums : Nat} (params : Params nums)

def timingState (state : State pending numm nums) : Timing.State pending numm :=
  ⟨state.counts, due state⟩

def timingInput (input : Input numm nums) : Timing.Input numm :=
  ⟨input.core, fun i => decoded params (input.core i).addr⟩

theorem timingState_next (state : State pending numm nums) (input : Input numm nums) :
    timingState (next params state input) =
      Timing.next (timingState state) (timingInput params input) := by
  have counts : (next params state input).counts =
      (Timing.next (timingState state) (timingInput params input)).counts := by
    funext i
    exact Core2wb.next_congr (routed_stall params state input i) (routed_ack params state input i)
  exact congrArg₂ Timing.State.mk counts (funext (next_due params state input))

theorem ofCore_core (state : State pending numm nums) (input : Input numm nums) (i : Fin numm) :
    Timing.Handshake.ofCore (core params state input i) =
      Timing.out (timingState state) (timingInput params input) i :=
  Timing.Handshake.ofCore_congr (routed_stall params state input i)
    (routed_err params state input i) (routed_ack params state input i)

/-- The system's handshakes are those of the ideal bus. -/
def timing : (machine pending numm params).Abstraction (Timing.machine pending numm) where
  state := timingState
  input := timingInput params
  output core i := .ofCore (core i)
  next_eq := timingState_next params
  out_eq state input := funext (ofCore_core params state input)

end System

namespace Timing

open IbexWb.Synchronous SharedBus

variable {pending numm : Nat}

/-! ## One cycle on the ideal bus -/

section Cycle

variable (state : State pending numm) (input : Input numm)

theorem out_gnt (i : Fin numm) : (out state input i).gnt = granted state input i := by
  simp [out, Handshake.ofCore, Core2wb.core, answer, granted, Bool.and_comm]

theorem out_err (i : Fin numm) : (out state input i).err = false := rfl

theorem out_rvalid (i : Fin numm) :
    (out state input i).rvalid = ((wbm state input i).cyc && state.due i) := by
  simp [out, Handshake.ofCore, Core2wb.core, answer, wbm]

/-- The counter's balance in one cycle, modulo its width. -/
theorem next_counts (i : Fin numm) :
    (next state input).counts i + BitVec.ofNat _ ((wbm state input i).cyc && state.due i).toNat =
      state.counts i + BitVec.ofNat _ (granted state input i).toNat := by
  have balance := Core2wb.next_balance (state.counts i) (input.core i) (answer state input i)
  simpa [next, answer, wbm, granted, Bool.and_comm] using balance

end Cycle

end Timing

/-! ## One cycle of the system -/

namespace System

open SharedBus

variable {pending numm nums : Nat} (params : Params nums) (state : State pending numm nums)
  (input : Input numm nums)

theorem core_gnt (i : Fin numm) : (core params state input i).gnt = granted state input i :=
  (congrArg Timing.Handshake.gnt (ofCore_core params state input i)).trans
    (Timing.out_gnt (timingState state) (timingInput params input) i)

theorem core_rvalid (i : Fin numm) :
    (core params state input i).rvalid = ((wbm state input i).cyc && due state i) :=
  (congrArg Timing.Handshake.rvalid (ofCore_core params state input i)).trans
    (Timing.out_rvalid (timingState state) (timingInput params input) i)

theorem core_err (i : Fin numm) : (core params state input i).err = false :=
  congrArg Timing.Handshake.err (ofCore_core params state input i)

/-! ## Runs of the system -/

section Run

open IbexWb.Synchronous

variable {numm nums : Nat} (params : Params nums) (slaves : Fin nums → Slave)
  (input : Nat → Input numm nums) (pending : Nat)

theorem reached_timing (cycle : Nat) :
    timingState (reached params slaves input pending cycle) =
      (Timing.machine pending numm).run Timing.State.reset
        (fun cycle => timingInput params (input cycle)) cycle :=
  (timing params).run_eq (State.reset slaves) input cycle

theorem seen_timing (cycle : Nat) (i : Fin numm) :
    Timing.Handshake.ofCore (seen params slaves input pending cycle i) =
      (Timing.machine pending numm).trace Timing.State.reset
        (fun cycle => timingInput params (input cycle)) cycle i :=
  congrFun ((timing params).trace_eq (State.reset slaves) input cycle) i

end Run

end System

end IbexWb
