import IbexWb.Soc.IbexSoc
import IbexWb.Verified.GrantLaw

/-! # Isolation from lower-priority masters

Two runs in which the cores up to master `k` behave alike drive the shared signals differently:
`cyc`, `gnt1`, `ss1` and the answer of the debug port all depend on the masters above `k`.  On the
ideal bus of `Timing` none of them is left.  There the converters up to `k` and the answers due to
them form a system of their own, and `AgreeUpTo` is preserved by every cycle.
-/

namespace IbexWb.Timing

open IbexWb.Synchronous SharedBus

variable {pending numm : Nat}

structure AgreeUpTo (k : Fin numm) (left right : State pending numm) : Prop where
  counts : ∀ i, i ≤ k → left.counts i = right.counts i
  due : ∀ i, i ≤ k → left.due i = right.due i

/-- The cores up to `k` drive the same signals, and the decoder treats them alike. -/
structure Input.AgreeUpTo (k : Fin numm) (left right : Input numm) : Prop where
  core : ∀ i, i ≤ k → left.core i = right.core i
  decoded : ∀ i, i ≤ k → left.decoded i = right.decoded i

namespace AgreeUpTo

variable {k : Fin numm} {left right : State pending numm} {leftInput rightInput : Input numm}

theorem wbm_eq (agree : AgreeUpTo k left right) (inputs : leftInput.AgreeUpTo k rightInput)
    {i : Fin numm} (bound : i ≤ k) : wbm left leftInput i = wbm right rightInput i := by
  rw [wbm, wbm, agree.counts i bound, inputs.core i bound]

theorem gnt_eq (agree : AgreeUpTo k left right) (inputs : leftInput.AgreeUpTo k rightInput)
    {i : Fin numm} (bound : i ≤ k) :
    gnt (wbm left leftInput) i = gnt (wbm right rightInput) i := by
  rw [Bool.eq_iff_iff, gnt_eq_true, gnt_eq_true]
  -- the arbiter looks at the masters before `i` only
  apply IsFirst.congr
  intro other before
  rw [agree.wbm_eq inputs (before.trans bound)]

theorem answer_eq (agree : AgreeUpTo k left right) (inputs : leftInput.AgreeUpTo k rightInput)
    {i : Fin numm} (bound : i ≤ k) : answer left leftInput i = answer right rightInput i := by
  rw [answer, answer, agree.due i bound, agree.gnt_eq inputs bound]

theorem out_eq (agree : AgreeUpTo k left right) (inputs : leftInput.AgreeUpTo k rightInput)
    {i : Fin numm} (bound : i ≤ k) : out left leftInput i = out right rightInput i := by
  rw [out, out, agree.counts i bound, inputs.core i bound, agree.answer_eq inputs bound]

theorem next (agree : AgreeUpTo k left right) (inputs : leftInput.AgreeUpTo k rightInput) :
    AgreeUpTo k (Timing.next left leftInput) (Timing.next right rightInput) := by
  constructor
  · intro i bound
    show Core2wb.next (left.counts i) (leftInput.core i) (answer left leftInput i) =
      Core2wb.next (right.counts i) (rightInput.core i) (answer right rightInput i)
    rw [agree.counts i bound, inputs.core i bound, agree.answer_eq inputs bound]
  · intro i bound
    show (granted left leftInput i && leftInput.decoded i) =
      (granted right rightInput i && rightInput.decoded i)
    rw [granted, granted, agree.gnt_eq inputs bound, inputs.core i bound, inputs.decoded i bound]

end AgreeUpTo

section Run

variable (pending) (k : Fin numm) (left right : Nat → Input numm)

theorem run_agree (inputs : ∀ cycle, (left cycle).AgreeUpTo k (right cycle)) :
    ∀ cycle, AgreeUpTo k ((machine pending numm).run State.reset left cycle)
      ((machine pending numm).run State.reset right cycle) := by
  apply Machine.run_relation _ _ _ _ _ _ (AgreeUpTo k)
  · exact ⟨fun _ _ => rfl, fun _ _ => rfl⟩
  · intro cycle leftState rightState agree
    exact agree.next (inputs cycle)

theorem trace_agree (inputs : ∀ cycle, (left cycle).AgreeUpTo k (right cycle)) (cycle : Nat)
    {i : Fin numm} (bound : i ≤ k) :
    (machine pending numm).trace State.reset left cycle i =
      (machine pending numm).trace State.reset right cycle i :=
  (run_agree pending k left right inputs cycle).out_eq (inputs cycle) bound

end Run

end IbexWb.Timing

namespace IbexWb.System

open IbexWb.Synchronous SharedBus

variable {numm nums : Nat} (params : Params nums) (pending : Nat)

theorem timingInput_agree (k : Fin numm) {left right : Input numm nums}
    (same : ∀ i, i ≤ k → left.core i = right.core i) :
    (timingInput params left).AgreeUpTo k (timingInput params right) := by
  refine ⟨same, fun i bound => ?_⟩
  simp only [timingInput, same i bound]

/-- What the cores up to master `k` see of the handshakes, and the counters of their converters,
are functions of what these cores drive: the cores above `k`, the contents of the RAM and the data
of the debug module have no influence on them. -/
theorem isolated_up_to (k : Fin numm) (leftSlaves rightSlaves : Fin nums → Slave)
    (left right : Nat → Input numm nums)
    (same : ∀ cycle i, i ≤ k → (left cycle).core i = (right cycle).core i) (cycle : Nat)
    (i : Fin numm) (bound : i ≤ k) :
    (seen params leftSlaves left pending cycle i).gnt =
        (seen params rightSlaves right pending cycle i).gnt ∧
      (seen params leftSlaves left pending cycle i).rvalid =
        (seen params rightSlaves right pending cycle i).rvalid ∧
      (seen params leftSlaves left pending cycle i).err =
        (seen params rightSlaves right pending cycle i).err ∧
      (reached params leftSlaves left pending cycle).counts i =
        (reached params rightSlaves right pending cycle).counts i := by
  have inputs (cycle : Nat) :
      (timingInput params (left cycle)).AgreeUpTo k (timingInput params (right cycle)) :=
    timingInput_agree params k (same cycle)
  have handshake : Timing.Handshake.ofCore (seen params leftSlaves left pending cycle i) =
      Timing.Handshake.ofCore (seen params rightSlaves right pending cycle i) := by
    rw [seen_timing, seen_timing]
    exact Timing.trace_agree pending k _ _ inputs cycle bound
  have agree : Timing.AgreeUpTo k (timingState (reached params leftSlaves left pending cycle))
      (timingState (reached params rightSlaves right pending cycle)) := by
    rw [reached_timing, reached_timing]
    exact Timing.run_agree pending k _ _ inputs cycle
  exact ⟨congrArg Timing.Handshake.gnt handshake, congrArg Timing.Handshake.rvalid handshake,
    congrArg Timing.Handshake.err handshake, agree.counts i bound⟩

def polling (cycle : Nat) : CoreMaster :=
  { CoreMaster.idle with req := cycle % 2 = 0, addr := IbexSoc.dmBaseAddr }

def undisturbed (cycle : Nat) : Input 3 3 := ⟨![polling cycle, .idle, .idle], fun _ => 0⟩

/-- The same next to a data port that reads an unmapped address. -/
def disturbed (cycle : Nat) : Input 3 3 :=
  ⟨![polling cycle, { CoreMaster.idle with req := true, addr := 0x20000000 }, .idle], fun _ => 0⟩

theorem isolated_up_to_disturbed :
    (seen IbexSoc.params (IbexSoc.slaves .cleared) disturbed Core2wb.defaultPending 41 0).rvalid =
      (seen IbexSoc.params (IbexSoc.slaves .cleared) undisturbed Core2wb.defaultPending 41 0).rvalid :=
  (isolated_up_to IbexSoc.params Core2wb.defaultPending 0 _ _ disturbed undisturbed
    (fun cycle i bound => by
      obtain rfl : i = 0 := Fin.le_zero_iff.mp bound
      rfl) 41 0 le_rfl).2.1

end IbexWb.System
