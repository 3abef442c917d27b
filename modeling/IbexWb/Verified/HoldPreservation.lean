import IbexWb.Soc.AddressMap

/-! # The hold rule through the shared bus

Masters that present a stalled request again do not make the slave ports do so: the arbiter
decides anew in every cycle, and a master of higher priority may take the bus over while the
addressed slave stalls the request of another one.
-/

namespace IbexWb.SharedBus

variable {numm nums : Nat} (params : Params nums) (wbm : Nat → Fin numm → WbMaster)
  (wbs : Nat → Fin nums → WbSlave)

def slavePort (i : Fin nums) (cycle : Nat) : WbMaster := toSlave params (wbm cycle) i

/-- Every master obeys the hold rule for the stalls that the interconnect gives it. -/
def MastersHold : Prop :=
  ∀ m, HoldRule (fun cycle => wbm cycle m)
    (fun cycle => (toMaster (registers params wbm wbs cycle) (wbm cycle) (wbs cycle) m).stall)

/-- Every slave sees its request until it lets it through. -/
def SlavesHold : Prop :=
  ∀ i, HoldUntilAccepted (slavePort params wbm i) (fun cycle => (wbs cycle i).stall)

/-- After a cycle in which the addressed slave stalls the owner's request, no master of higher
priority owns the bus, unless with the very same request. -/
def NotTakenOver (cycle : Nat) : Prop :=
  ∀ owner i, Owner (wbm cycle) owner → (wbm cycle owner).stb = true →
    ss params (wbm cycle owner).adr i = true → (wbs cycle i).stall = true →
      ∀ first, first < owner → Owner (wbm (cycle + 1)) first →
        (wbm cycle owner).SameRequest (wbm (cycle + 1) first)

variable {params wbm wbs}

theorem sameRequest_slavePort_iff {cycle : Nat} {owner first : Fin numm} {i : Fin nums}
    (owns : Owner (wbm cycle) owner) (selected : ss params (wbm cycle owner).adr i = true)
    (later : Owner (wbm (cycle + 1)) first) :
    (slavePort params wbm i cycle).SameRequest (slavePort params wbm i (cycle + 1)) ↔
      (wbm cycle owner).SameRequest (wbm (cycle + 1) first) := by
  rw [slavePort, slavePort, toSlave_of_owner params owns selected]
  constructor
  · intro same
    obtain ⟨other, otherOwns, _, otherSelected⟩ := (toSlave_strobes_iff params).mp same.strobes
    obtain rfl := otherOwns.unique later
    rwa [toSlave_of_owner params later otherSelected] at same
  · intro same
    rw [← same.adr] at selected
    rwa [toSlave_of_owner params later selected]

/-- One cycle: the stalled request of the owner is held at the slave port exactly if the bus is
not taken over. -/
theorem hold_step (hold : MastersHold params wbm wbs) {cycle : Nat} {owner : Fin numm} {i : Fin nums}
    (owns : Owner (wbm cycle) owner) (strobe : (wbm cycle owner).stb = true)
    (selected : ss params (wbm cycle owner).adr i = true) (stalled : (wbs cycle i).stall = true) :
    (slavePort params wbm i cycle).SameRequest (slavePort params wbm i (cycle + 1)) ↔
      ∀ first, first < owner → Owner (wbm (cycle + 1)) first →
        (wbm cycle owner).SameRequest (wbm (cycle + 1) first) := by
  -- the stall of the slave reaches the owner, which presents its request again
  have told : (toMaster (registers params wbm wbs cycle) (wbm cycle) (wbs cycle) owner).stall =
      true := by
    rw [← Bool.not_eq_false, toMaster_stall]
    rintro ⟨_, quiet⟩
    exact absurd (quiet i) (by simp [stalled])
  have again : (wbm cycle owner).SameRequest (wbm (cycle + 1) owner) :=
    hold owner cycle (WbMaster.strobes_eq_true.mpr ⟨owns.1, strobe⟩) told
  -- so the next owner is this master or one before it
  obtain ⟨next, ordered, nextOwns⟩ := exists_owner owner again.cyc
  rw [sameRequest_slavePort_iff owns selected nextOwns]
  constructor
  · intro same first _ firstOwns
    obtain rfl := firstOwns.unique nextOwns
    exact same
  · intro notTaken
    rcases lt_or_eq_of_le ordered with above | rfl
    · exact notTaken next above nextOwns
    · exact again

/-- In every run of masters that obey the hold rule, the slave ports obey it exactly if no stalled
request loses the bus to another one. -/
theorem slavesHold_iff (params : Params nums) (wbm : Nat → Fin numm → WbMaster)
    (wbs : Nat → Fin nums → WbSlave) (hold : MastersHold params wbm wbs) :
    SlavesHold params wbm wbs ↔ ∀ cycle, NotTakenOver params wbm wbs cycle := by
  simp only [SlavesHold, ← holdRule_iff]
  constructor
  · intro slavesHold cycle owner i owns strobe selected stalled
    refine (hold_step hold owns strobe selected stalled).mp (slavesHold i cycle ?_ stalled)
    exact (toSlave_strobes_iff params).mpr ⟨owner, owns, strobe, selected⟩
  · intro notTaken i cycle seen stalled
    obtain ⟨owner, owns, strobe, selected⟩ := (toSlave_strobes_iff params).mp seen
    exact (hold_step hold owns strobe selected stalled).mpr
      (notTaken cycle owner i owns strobe selected stalled)

/-! ## Two runs -/

def stallsUntil (last cycle : Nat) : Fin 1 → WbSlave :=
  fun _ => { WbSlave.idle with stall := decide (cycle < last) }

/-- Master 1 presents one request in every cycle, master 0 another one from cycle `start` on. -/
def takeover (start cycle : Nat) : Fin 2 → WbMaster
  | 0 => if cycle < start then .idle else ⟨true, true, false, 8, 15, 0⟩
  | 1 => ⟨true, true, false, 4, 15, 0⟩

theorem takeover_mastersHold (start : Nat) (wbs : Nat → Fin 1 → WbSlave) :
    MastersHold oneRegion (takeover start) wbs := by
  intro m
  apply holdRule_of_constant
  intro cycle strobe
  match m with
  | 0 =>
    by_cases early : cycle < start
    · simp [takeover, early, WbMaster.idle, WbMaster.strobes] at strobe
    · simp [takeover, early, show ¬ cycle + 1 < start by omega]
  | 1 => rfl

/-- The slave lets the request of master 1 through in cycle 3, before the bus is taken over. -/
theorem slavesHold_persistent : SlavesHold oneRegion (takeover 4) (stallsUntil 3) := by
  refine (slavesHold_iff oneRegion (takeover 4) (stallsUntil 3) (takeover_mastersHold 4 _)).mpr ?_
  intro cycle owner i _ _ _ stalled first below owns
  have early : cycle < 3 := of_decide_eq_true stalled
  obtain rfl : first = 0 := Fin.ext (by omega)
  have requests := owns.1
  simp [takeover, show cycle + 1 < 4 by omega, WbMaster.idle] at requests

/-- The slave stalls a request to address 4 in cycle 0 and sees one to address 8 in cycle 1. -/
theorem takeover_not_held :
    MastersHold oneRegion (takeover 1) (stallsUntil 1) ∧
      ¬ SlavesHold oneRegion (takeover 1) (stallsUntil 1) := by
  refine ⟨takeover_mastersHold 1 _, fun hold => ?_⟩
  have same := holdRule_iff.mpr (hold 0) 0 (by decide) (by decide)
  exact absurd same.adr (by decide)

end IbexWb.SharedBus
