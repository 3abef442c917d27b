import IbexWb.Verified.Timing
import Mathlib.Data.List.FinRange

/-! # The grant law of the shared-bus system

As long as every granted request is answered, a converter's counter and the answer due to it say
the same: whether its request was granted in the cycle before.  `Settled` is this invariant.  In
a settled state a converter holds the bus for its new request or for its last one only, which
gives the arbiter's decision as a law about the cores' requests.
-/

namespace IbexWb.Timing

open IbexWb.Synchronous SharedBus

variable {pending numm : Nat}

/-- `last` tells which requests were granted in the cycle before. -/
structure Settled (state : State pending numm) (last : Fin numm → Bool) : Prop where
  counts : ∀ i, state.counts i = BitVec.ofNat _ (last i).toNat
  due : ∀ i, state.due i = last i

theorem settled_reset : Settled (State.reset : State pending numm) fun _ => false :=
  ⟨fun _ => rfl, fun _ => rfl⟩

namespace Settled

variable {state : State pending numm} {last : Fin numm → Bool}

theorem cyc (settled : Settled state last) (capacity : 1 < 2 ^ Nat.clog 2 pending)
    (input : Input numm) (i : Fin numm) :
    (wbm state input i).cyc = true ↔ (input.core i).req = true ∨ last i = true := by
  -- a counter of 1 needs a bit besides the sign
  have fits : (last i).toNat < 2 ^ Nat.clog 2 pending :=
    lt_of_le_of_lt (Bool.toNat_le (last i)) capacity
  have value : (state.counts i).toInt = (last i).toNat := by
    rw [settled.counts i]
    exact Core2wb.toInt_ofNat fits
  have positive : 0 < (state.counts i).toInt ↔ last i = true := by
    rw [value]
    cases last i <;> simp
  rw [wbm, Core2wb.wb_cyc, Core2wb.cyc_eq_true, positive]

/-- Every granted request finds its answer due, so the counter falls back by itself. -/
theorem next (settled : Settled state last) (capacity : 1 < 2 ^ Nat.clog 2 pending)
    {input : Input numm}
    (decoded : ∀ i, granted state input i = true → input.decoded i = true) :
    Settled (Timing.next state input) (granted state input) := by
  constructor
  · intro i
    -- the balance of the cycle takes off exactly what the last one has put on
    have answered : ((wbm state input i).cyc && state.due i) = last i := by
      rw [Bool.eq_iff_iff, Bool.and_eq_true, settled.cyc capacity, settled.due]
      exact and_iff_right_of_imp Or.inr
    have balance := next_counts state input i
    rw [answered, settled.counts i, BitVec.add_comm] at balance
    exact (BitVec.add_right_inj _).mp balance
  · intro i
    show (granted state input i && input.decoded i) = granted state input i
    cases taken : granted state input i with
    | false => rfl
    | true => exact decoded i taken

theorem granted_iff (settled : Settled state last) (capacity : 1 < 2 ^ Nat.clog 2 pending)
    (input : Input numm) (i : Fin numm) :
    granted state input i = true ↔ (input.core i).req = true ∧
      ∀ lower, lower < i → (input.core lower).req = false ∧ last lower = false := by
  have free (lower : Fin numm) : ¬ (wbm state input lower).cyc = true ↔
      (input.core lower).req = false ∧ last lower = false := by
    rw [settled.cyc capacity input lower]
    simp
  rw [granted, Bool.and_eq_true, gnt_eq_true]
  constructor
  · rintro ⟨owner, requested⟩
    exact ⟨requested, fun lower below => (free lower).mp (owner.2 lower below)⟩
  · rintro ⟨requested, lowest⟩
    refine ⟨⟨(settled.cyc capacity input i).mpr (Or.inl requested), ?_⟩, requested⟩
    exact fun lower below => (free lower).mpr (lowest lower below)

end Settled

end IbexWb.Timing

namespace IbexWb.System

open IbexWb.Synchronous SharedBus

section Run

variable {numm nums : Nat} (params : Params nums) (slaves : Fin nums → Slave)
  (input : Nat → Input numm nums) (pending : Nat)

/-- Whether the core behind master `i` saw its request granted in the cycle before. -/
def grantedBefore : Nat → Fin numm → Bool
  | 0, _ => false
  | cycle + 1, i => (seen params slaves input pending cycle i).gnt

theorem seen_gnt (cycle : Nat) (i : Fin numm) :
    (seen params slaves input pending cycle i).gnt =
      granted (reached params slaves input pending cycle) (input cycle) i :=
  core_gnt params _ _ i

theorem seen_rvalid (cycle : Nat) (i : Fin numm) :
    (seen params slaves input pending cycle i).rvalid =
      ((wbm (reached params slaves input pending cycle) (input cycle) i).cyc &&
        due (reached params slaves input pending cycle) i) :=
  core_rvalid params _ _ i

theorem seen_err (cycle : Nat) (i : Fin numm) :
    (seen params slaves input pending cycle i).err = false :=
  core_err params _ _ i

theorem reached_due_succ (cycle : Nat) (i : Fin numm) :
    due (reached params slaves input pending (cycle + 1)) i =
      ((seen params slaves input pending cycle i).gnt &&
        decoded params ((input cycle).core i).addr) := by
  rw [seen_gnt]
  exact next_due params _ _ i

theorem reached_settled (capacity : 1 < 2 ^ Nat.clog 2 pending) (last : Nat)
    (decodes : ∀ cycle, cycle < last → ∀ i,
      (seen params slaves input pending cycle i).gnt = true →
        decoded params ((input cycle).core i).addr = true) :
    ∀ cycle, cycle ≤ last →
      Timing.Settled (timingState (reached params slaves input pending cycle))
        (grantedBefore params slaves input pending cycle) := by
  apply (machine pending numm params).run_invariant _ _ (fun cycle state =>
    Timing.Settled (timingState state) (grantedBefore params slaves input pending cycle)) last
  · exact Timing.settled_reset
  · intro cycle bound settled
    have grants : grantedBefore params slaves input pending (cycle + 1) =
        Timing.granted (timingState (reached params slaves input pending cycle))
          (timingInput params (input cycle)) :=
      funext fun i => seen_gnt params slaves input pending cycle i
    rw [grants]
    show Timing.Settled (timingState (next params _ (input cycle))) _
    rw [timingState_next]
    refine settled.next capacity fun i taken => decodes cycle bound i ?_
    exact (seen_gnt params slaves input pending cycle i).trans taken

theorem decoded_of_rvalid {cycle : Nat} {i : Fin numm}
    (answered : (seen params slaves input pending (cycle + 1) i).rvalid = true) :
    decoded params ((input cycle).core i).addr = true := by
  rw [seen_rvalid, reached_due_succ] at answered
  simp only [Bool.and_eq_true] at answered
  exact answered.2.2

/-- As long as the granted requests are decoded, each of them is answered in the next cycle, and
nothing else is. -/
theorem seen_rvalid_succ (capacity : 1 < 2 ^ Nat.clog 2 pending) (cycle : Nat)
    (decodes : ∀ earlier, earlier < cycle + 1 → ∀ i,
      (seen params slaves input pending earlier i).gnt = true →
        decoded params ((input earlier).core i).addr = true) (i : Fin numm) :
    (seen params slaves input pending (cycle + 1) i).rvalid =
      (seen params slaves input pending cycle i).gnt := by
  have settled := reached_settled params slaves input pending capacity (cycle + 1) decodes
    (cycle + 1) le_rfl
  have held := settled.cyc capacity (timingInput params (input (cycle + 1))) i
  have owed := settled.due i
  simp only [timingState] at owed
  rw [seen_rvalid, owed, Bool.eq_iff_iff, Bool.and_eq_true]
  exact and_iff_right_of_imp fun granted => held.mpr (Or.inr granted)

/-- The requests granted before `cycle`, in the order of their grants. -/
def grantLog (cycle : Nat) : List CoreMaster :=
  (List.range cycle).flatMap fun earlier =>
    ((List.finRange numm).filter fun i => (seen params slaves input pending earlier i).gnt).map
      (input earlier).core

theorem seen_gnt_unique {cycle : Nat} {i j : Fin numm}
    (left : (seen params slaves input pending cycle i).gnt = true)
    (right : (seen params slaves input pending cycle j).gnt = true) : i = j := by
  rw [seen_gnt] at left right
  exact granted_unique left right

theorem grantLog_of_granted {cycle : Nat} {i : Fin numm}
    (granted : (seen params slaves input pending cycle i).gnt = true) :
    grantLog params slaves input pending (cycle + 1) =
      grantLog params slaves input pending cycle ++ [(input cycle).core i] := by
  have single : ((List.finRange numm).filter fun j => (seen params slaves input pending cycle j).gnt) =
      [i] := by
    have only : (fun j => (seen params slaves input pending cycle j).gnt) = fun j => decide (j = i) := by
      funext j
      rw [Bool.eq_iff_iff, decide_eq_true_eq]
      constructor
      · intro other
        exact seen_gnt_unique params slaves input pending other granted
      · rintro rfl
        exact granted
    rw [only, List.filter_eq, List.count_eq_one_of_mem (List.nodup_finRange numm) (List.mem_finRange i),
      List.replicate_one]
  rw [grantLog, List.range_succ, List.flatMap_append, List.flatMap_singleton, single]
  rfl

theorem grantLog_of_idle {cycle : Nat}
    (idle : ∀ i, (seen params slaves input pending cycle i).gnt = false) :
    grantLog params slaves input pending (cycle + 1) = grantLog params slaves input pending cycle := by
  have none : ((List.finRange numm).filter fun j => (seen params slaves input pending cycle j).gnt) =
      [] := List.filter_eq_nil_iff.mpr fun i _ => by simp [idle i]
  rw [grantLog, List.range_succ, List.flatMap_append, List.flatMap_singleton, none]
  exact List.append_nil _

end Run

/-! ## The law -/

open Core2wb (defaultPending)

variable {numm nums : Nat}

/-- Up to the first granted request outside all regions, the counter of master `k` is 1 exactly
in the cycle after a grant, and its request is granted exactly when no master before it requests
or was granted in the cycle before.  The regions need not be disjoint for this, and the registers
of the slaves may start with any contents. -/
theorem grant_law (params : Params nums) (below : params.BelowTop) (slaves : Fin nums → Slave)
    (input : Nat → Input numm nums) (cycle : Nat)
    (mapped : ∀ earlier, earlier < cycle → ∀ i,
      (seen params slaves input defaultPending earlier i).gnt = true →
        params.Mapped ((input earlier).core i).addr)
    (k : Fin numm) :
    ((reached params slaves input defaultPending cycle).counts k).toInt =
        (if grantedBefore params slaves input defaultPending cycle k then 1 else 0) ∧
      ((seen params slaves input defaultPending cycle k).gnt = true ↔
        ((input cycle).core k).req = true ∧ ∀ i, i < k → ((input cycle).core i).req = false ∧
          grantedBefore params slaves input defaultPending cycle i = false) := by
  have settled := reached_settled params slaves input defaultPending (by decide) cycle
    (fun earlier bound i granted => by
      obtain ⟨j, covers⟩ := mapped earlier bound i granted
      exact decide_eq_true ⟨j, below.ss_iff.mpr covers⟩) cycle le_rfl
  constructor
  · have counted := settled.counts k
    simp only [timingState] at counted
    rw [counted]
    cases grantedBefore params slaves input defaultPending cycle k <;> decide
  · rw [seen_gnt]
    exact settled.granted_iff (by decide) (timingInput params (input cycle)) k

def contending (_ : Nat) : Input 2 1 := ⟨fun _ => { CoreMaster.idle with req := true }, fun _ => 0⟩

def ledAtZero : Params 1 := ⟨fun _ => 0, fun _ => 0x1000⟩

theorem grant_law_contending :
    (seen ledAtZero (fun _ => .led 4 ⟨0, false⟩) contending defaultPending 3 1).gnt = false := by
  have law := grant_law ledAtZero (by decide) (fun _ => .led 4 ⟨0, false⟩) contending 3
    (fun _ _ _ _ => ⟨0, (by decide : ledAtZero.Covers 0 0)⟩) 1
  rw [Bool.eq_false_iff]
  intro granted
  have blocked := (law.2.mp granted).2 0 (by decide)
  exact absurd blocked.1 (by decide)

end IbexWb.System
