import IbexWb.Verified.PortChecks

/-! # How long a master waits

A master is kept off the bus by requests of the masters before it and by their answers, so each
cycle in which one of them requests costs it two cycles at most.  There is no other bound: a master
that requests in every cycle locks out all masters behind it.
-/

namespace IbexWb.System

open IbexWb.Synchronous SharedBus
open Core2wb (defaultPending)

variable {numm nums : Nat} (params : Params nums) (slaves : Fin nums → Slave)
  (input : Nat → Input numm nums)

/-- A master of higher priority requests. -/
def contended (k : Fin numm) (cycle : Nat) : Bool :=
  decide (∃ i, i < k ∧ ((input cycle).core i).req = true)

variable {params slaves input}

/-- A request that is not granted is behind a request of higher priority or the answer to one. -/
theorem MappedRun.contended_of_refused (mapped : MappedRun params slaves input)
    (below : params.BelowTop) {k : Fin numm} {cycle : Nat}
    (requested : ((input cycle).core k).req = true)
    (refused : gntAt params slaves input k cycle = false) :
    contended input k cycle = true ∨ previously (contended input k) cycle = true := by
  have law := (mapped.settled below cycle).granted_iff (by decide)
    (timingInput params (input cycle)) k
  have taken : granted (stateAt params slaves input cycle) (input cycle) k = false :=
    (seen_gnt params slaves input defaultPending cycle k).symm.trans refused
  have blocked := mt law.mpr (Bool.eq_false_iff.mp taken)
  by_contra quiet
  obtain ⟨here, before⟩ := not_or.mp quiet
  refine blocked ⟨requested, fun i lower => ⟨?_, ?_⟩⟩
  · exact Bool.eq_false_iff.mpr fun busy => here (decide_eq_true ⟨i, lower, busy⟩)
  · refine Bool.eq_false_iff.mpr fun busy => before ?_
    cases cycle with
    | zero => exact absurd busy Bool.noConfusion
    | succ cycle =>
      have grant : granted (stateAt params slaves input cycle) (input cycle) i = true :=
        (seen_gnt _ _ _ _ _ _).symm.trans busy
      exact decide_eq_true ⟨i, lower, (granted_eq_true.mp grant).2⟩

/-- While a request waits, every two cycles of waiting have one with a request of higher priority. -/
theorem MappedRun.wait_le (mapped : MappedRun params slaves input) (below : params.BelowTop)
    {k : Fin numm} {first count : Nat}
    (requested : ∀ offset, offset < count → ((input (first + offset)).core k).req = true)
    (refused : ∀ offset, offset < count → gntAt params slaves input k (first + offset) = false) :
    count ≤ 2 * (occurrences (contended input k) (first + count) -
      occurrences (contended input k) first) + 1 := by
  have window := window_le fun offset bound =>
    mapped.contended_of_refused below (requested offset bound) (refused offset bound)
  have single := Bool.toNat_le (previously (contended input k) first)
  omega

/-- A request that the core holds is granted within `2 * busy + 2` cycles if in these at most
`busy` have a request of higher priority. -/
theorem granted_within (below : params.BelowTop) (mapped : MappedRun params slaves input)
    {k : Fin numm} (holds : CoreHoldRule (fun cycle => (input cycle).core k)
      (gntAt params slaves input k)) {first : Nat}
    (requested : ((input first).core k).req = true) {busy : Nat}
    (light : occurrences (contended input k) (first + (2 * busy + 2)) ≤
      occurrences (contended input k) first + busy) :
    ∃ wait, wait < 2 * busy + 2 ∧ gntAt params slaves input k (first + wait) = true := by
  by_contra never
  have refused : ∀ offset, offset < 2 * busy + 2 →
      gntAt params slaves input k (first + offset) = false := fun offset bound =>
    Bool.eq_false_iff.mpr fun granted => never ⟨offset, bound, granted⟩
  have held : ∀ offset, offset < 2 * busy + 2 → ((input (first + offset)).core k).req = true := by
    intro offset
    induction offset with
    | zero => exact fun _ => requested
    | succ offset inductionHypothesis =>
      intro bound
      have before := Nat.lt_of_succ_lt bound
      exact (holds (first + offset) (inductionHypothesis before) (refused offset before)).req
  have wait := mapped.wait_le below held refused
  omega

/-- One request before, and its answer: the second core is served in the third cycle. -/
def once (cycle : Nat) : Input 2 1 :=
  ⟨fun i => { CoreMaster.idle with req := decide (0 < i.val ∨ cycle = 0) }, fun _ => 0⟩

theorem granted_within_once : ∃ wait, wait < 4 ∧
    gntAt ledAtZero (fun _ => .led 4 ⟨0, false⟩) once 1 (0 + wait) = true := by
  have mapped : MappedRun ledAtZero (fun _ => .led 4 ⟨0, false⟩) once := fun _ _ _ =>
    ⟨0, (by decide : ledAtZero.Covers 0 0)⟩
  have holds : CoreHoldRule (fun cycle => (once cycle).core 1)
      (gntAt ledAtZero (fun _ => .led 4 ⟨0, false⟩) once 1) :=
    fun _ _ _ => ⟨rfl, rfl, rfl, fun _ => rfl, fun _ => rfl⟩
  have light : occurrences (contended once 1) (0 + (2 * 1 + 2)) ≤
      occurrences (contended once 1) 0 + 1 := by decide
  exact granted_within (by decide) mapped holds rfl light

end IbexWb.System
