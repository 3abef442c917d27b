import IbexWb.Rtl.Checker
import IbexWb.Verified.GrantLaw

/-! # The checker on the ports of the shared-bus system

With a `wb_checker` on every port of the interconnect, none of them reports anything as long as
the cores hold their requests and request mapped addresses only.  A slave's registered `ack` is
no answer by itself: it needs the shared `cyc`, which the master of the request keeps up.
-/

namespace IbexWb.System

open IbexWb.Synchronous SharedBus
open Core2wb (defaultPending)

variable {numm nums : Nat} (params : Params nums) (slaves : Fin nums → Slave)
  (input : Nat → Input numm nums)

/-! ## The ports -/

/-- The registers of the system with default converters. -/
def stateAt (cycle : Nat) : State defaultPending numm nums :=
  reached params slaves input defaultPending cycle

def masterPort (i : Fin numm) (cycle : Nat) : WbMaster :=
  wbm (stateAt params slaves input cycle) (input cycle) i

def masterAnswer (i : Fin numm) (cycle : Nat) : WbSlave :=
  routed params (stateAt params slaves input cycle) (input cycle) i

def slavePort (j : Fin nums) (cycle : Nat) : WbMaster :=
  wbs params (stateAt params slaves input cycle) (input cycle) j

def slaveAnswer (j : Fin nums) (cycle : Nat) : WbSlave :=
  answer params (stateAt params slaves input cycle) (input cycle) j

def gntAt (i : Fin numm) (cycle : Nat) : Bool := (seen params slaves input defaultPending cycle i).gnt

/-- All requests that are granted go to mapped addresses. -/
def MappedRun : Prop :=
  ∀ cycle i, gntAt params slaves input i cycle = true → params.Mapped ((input cycle).core i).addr

variable {params slaves input}

theorem MappedRun.settled (mapped : MappedRun params slaves input) (below : params.BelowTop)
    (cycle : Nat) : Timing.Settled (timingState (stateAt params slaves input cycle))
      (grantedBefore params slaves input defaultPending cycle) := by
  refine reached_settled params slaves input defaultPending (by decide) cycle
    (fun earlier _ i granted => ?_) cycle le_rfl
  obtain ⟨j, covers⟩ := mapped earlier i granted
  exact decide_eq_true ⟨j, below.ss_iff.mpr covers⟩

theorem MappedRun.cyc_of_granted (mapped : MappedRun params slaves input) (below : params.BelowTop)
    {cycle : Nat} {i : Fin numm} (granted : gntAt params slaves input i cycle = true) :
    (masterPort params slaves input i (cycle + 1)).cyc = true :=
  ((mapped.settled below (cycle + 1)).cyc (by decide)
    (timingInput params (input (cycle + 1))) i).mpr (Or.inr granted)

/-! ## The ports of the masters -/

theorem accepted_master (i : Fin numm) (cycle : Nat) :
    accepted (masterPort params slaves input i) (masterAnswer params slaves input i) cycle =
      gntAt params slaves input i cycle := by
  rw [gntAt, seen_gnt, accepted, masterAnswer, routed_stall, Bool.not_not, granted, Bool.and_comm]
  exact congrArg _ (Core2wb.wb_strobes _ _)

theorem answered_master (i : Fin numm) (cycle : Nat) :
    answered (masterPort params slaves input i) (masterAnswer params slaves input i) cycle =
      (seen params slaves input defaultPending cycle i).rvalid := rfl

/-- Before the first cycle no request was granted, so nothing is answered in it. -/
theorem seen_rvalid_zero (i : Fin numm) :
    (seen params slaves input defaultPending 0 i).rvalid = false := by
  rw [seen_rvalid]
  exact Bool.and_false _

theorem MappedRun.handshake_master (mapped : MappedRun params slaves input)
    (below : params.BelowTop) (i : Fin numm) :
    AnsweredWithin (accepted (masterPort params slaves input i) (masterAnswer params slaves input i))
      (answered (masterPort params slaves input i) (masterAnswer params slaves input i))
      1 maxWaits := by
  -- each answer comes one cycle after its request was accepted
  refine answeredWithin_delayed (seen_rvalid_zero i) (fun cycle => ?_) (by decide)
  rw [answered_master, accepted_master]
  refine seen_rvalid_succ params slaves input defaultPending (by decide) cycle
    (fun earlier _ k granted => ?_) i
  obtain ⟨j, covers⟩ := mapped earlier k granted
  exact decide_eq_true ⟨j, below.ss_iff.mpr covers⟩

theorem MappedRun.checked_master (mapped : MappedRun params slaves input) (below : params.BelowTop)
    {i : Fin numm} (holds : CoreHoldRule (fun cycle => (input cycle).core i)
      (gntAt params slaves input i)) :
    Checked (masterPort params slaves input i) (masterAnswer params slaves input i) where
  handshake := mapped.handshake_master below i
  exclusive := by
    intro cycle
    rw [masterAnswer, routed_err, Bool.and_false]
  hold := (Core2wb.holdRule_iff_core (fun cycle => (stateAt params slaves input cycle).counts i)
    _ _).mpr holds

/-! ## The ports of the slaves -/

theorem accepted_slave (j : Fin nums) (cycle : Nat) :
    accepted (slavePort params slaves input j) (slaveAnswer params slaves input j) cycle =
      (slavePort params slaves input j cycle).strobes := by
  rw [accepted, slaveAnswer, answer, Slave.out_stall, Bool.not_false, Bool.and_true]

theorem answered_slave (j : Fin nums) (cycle : Nat) :
    answered (slavePort params slaves input j) (slaveAnswer params slaves input j) cycle =
      ((slavePort params slaves input j cycle).cyc &&
        ((stateAt params slaves input cycle).slaves j).pending) := by
  rw [answered, slaveAnswer, answer, Slave.out_err, Bool.or_false]
  cases held : (slavePort params slaves input j cycle).cyc with
  | false => rfl
  | true => exact congrArg _ (Slave.out_ack _ _ _ held)

theorem pending_succ (j : Fin nums) (cycle : Nat) :
    ((stateAt params slaves input (cycle + 1)).slaves j).pending =
      (slavePort params slaves input j cycle).strobes :=
  Slave.next_pending _ _ _

/-- The shared `cyc` is high for the answer to every strobe. -/
theorem MappedRun.cyc_of_strobes (mapped : MappedRun params slaves input) (below : params.BelowTop)
    {j : Fin nums} {cycle : Nat} (strobe : (slavePort params slaves input j cycle).strobes = true) :
    (slavePort params slaves input j (cycle + 1)).cyc = true := by
  obtain ⟨i, taken, _⟩ := (wbs_strobes params).mp strobe
  exact request_cyc.mpr ⟨i, mapped.cyc_of_granted below ((seen_gnt _ _ _ _ _ _).trans taken)⟩

theorem MappedRun.checked_slave (mapped : MappedRun params slaves input) (below : params.BelowTop)
    {j : Fin nums} (reset : (slaves j).pending = false) :
    Checked (slavePort params slaves input j) (slaveAnswer params slaves input j) where
  handshake := by
    refine answeredWithin_delayed ?_ (fun cycle => ?_) (by decide)
    · rw [answered_slave]
      exact (congrArg _ reset).trans (Bool.and_false _)
    · rw [answered_slave, accepted_slave, pending_succ]
      cases strobe : (slavePort params slaves input j cycle).strobes with
      | false => exact Bool.and_false _
      | true => rw [mapped.cyc_of_strobes below strobe, Bool.and_self]
  exclusive := by
    intro cycle
    rw [slaveAnswer, answer, Slave.out_err, Bool.and_false]
  hold := by
    intro cycle _ stalled
    exact absurd ((Slave.out_stall _ _ _).symm.trans stalled) Bool.noConfusion

/-! ## All ports -/

/-- No checker of the system reports anything. -/
theorem ports_checked (below : params.BelowTop) (reset : ∀ j, (slaves j).pending = false)
    (mapped : MappedRun params slaves input)
    (holds : ∀ i, CoreHoldRule (fun cycle => (input cycle).core i) (gntAt params slaves input i)) :
    (∀ i, Checked (masterPort params slaves input i) (masterAnswer params slaves input i)) ∧
      ∀ j, Checked (slavePort params slaves input j) (slaveAnswer params slaves input j) :=
  ⟨fun i => mapped.checked_master below (holds i), fun j => mapped.checked_slave below (reset j)⟩

/-- Two cores that request forever: the second one is stalled and holds its request. -/
theorem ports_checked_contending :
    Checked (masterPort ledAtZero (fun _ => .led 4 ⟨0, false⟩) contending (1 : Fin 2))
      (masterAnswer ledAtZero (fun _ => .led 4 ⟨0, false⟩) contending (1 : Fin 2)) :=
  (ports_checked (by decide) (fun _ => rfl)
    (fun _ _ _ => ⟨0, (by decide : ledAtZero.Covers 0 0)⟩)
    fun _ _ _ _ => ⟨rfl, rfl, rfl, fun _ => rfl, fun _ => rfl⟩).1 1

end IbexWb.System
