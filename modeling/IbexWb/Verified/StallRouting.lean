import IbexWb.Soc.AddressMap
import Mathlib.Data.Fin.VecNotation
import Mathlib.Tactic.FinCases

/-! # Acceptance on both sides of the shared bus

A request is accepted where it is strobed and not stalled.  The master that owns the bus is
stalled by any slave, but its strobe reaches only the addressed one, which looks at its own
`stall`.  The two sides therefore agree on a request exactly when no slave stalls next to an
addressed slave that does not.
-/

namespace IbexWb.SharedBus

variable {numm nums : Nat} (params : Params nums) (state : State numm nums)
  (wbm : Fin numm → WbMaster) (wbs : Fin nums → WbSlave)

/-- What both sides of a port take for an accepted request. -/
def Accepted (port : WbMaster) (stall : Bool) : Prop := port.strobes = true ∧ stall = false

instance (port : WbMaster) (stall : Bool) : Decidable (Accepted port stall) :=
  inferInstanceAs (Decidable (_ ∧ _))

abbrev MasterAccepted (m : Fin numm) : Prop := Accepted (wbm m) (toMaster state wbm wbs m).stall

abbrev SlaveAccepted (i : Fin nums) : Prop := Accepted (toSlave params wbm i) (wbs i).stall

/-- The masters and the slaves agree in one cycle on what is accepted. -/
structure AcceptanceAgrees : Prop where
  agree : ∀ owner i, Owner wbm owner → (wbm owner).stb = true → params.Covers i (wbm owner).adr →
    ((toMaster state wbm wbs owner).stall = false ↔ SlaveAccepted params wbm wbs i)
  performed : ∀ i, SlaveAccepted params wbm wbs i →
    ∃! m, MasterAccepted state wbm wbs m ∧ params.Covers i (wbm m).adr ∧ toSlave params wbm i = wbm m
  taken : ∀ m i, MasterAccepted state wbm wbs m → params.Covers i (wbm m).adr →
    ∀ j, SlaveAccepted params wbm wbs j ↔ j = i

/-- Whenever the owner addresses a selectable region, a stall of any slave comes with one of the
addressed slave.  A region that ends at the top of the address space or behind it is never
selected: its requests must be stalled by some slave. -/
def StallsAgree : Prop :=
  ∀ owner i, Owner wbm owner → (wbm owner).stb = true → params.Covers i (wbm owner).adr →
    if params.limit i < 2 ^ 32 then (∃ j, (wbs j).stall = true) → (wbs i).stall = true
    else ∃ j, (wbs j).stall = true

variable {params state wbm wbs}

theorem masterAccepted_iff {m : Fin numm} :
    MasterAccepted state wbm wbs m ↔
      Owner wbm m ∧ (wbm m).stb = true ∧ ∀ j, (wbs j).stall = false := by
  rw [MasterAccepted, Accepted, WbMaster.strobes_eq_true, toMaster_stall]
  constructor
  · rintro ⟨strobe, owns, quiet⟩
    exact ⟨owns, strobe.2, quiet⟩
  · rintro ⟨owns, strobe, quiet⟩
    exact ⟨⟨owns.1, strobe⟩, owns, quiet⟩

theorem slaveAccepted_iff {i : Fin nums} :
    SlaveAccepted params wbm wbs i ↔
      ∃ owner, Owner wbm owner ∧ (wbm owner).stb = true ∧
        (params.Covers i (wbm owner).adr ∧ params.limit i < 2 ^ 32) ∧ (wbs i).stall = false := by
  rw [SlaveAccepted, Accepted, toSlave_strobes_iff]
  simp only [ss_eq_true]
  constructor
  · intro accessed
    obtain ⟨⟨owner, owns, strobe, selected⟩, quiet⟩ := accessed
    exact ⟨owner, owns, strobe, selected, quiet⟩
  · intro accessed
    obtain ⟨owner, owns, strobe, selected, quiet⟩ := accessed
    exact ⟨⟨owner, owns, strobe, selected⟩, quiet⟩

theorem slaveAccepted_of_owner {owner : Fin numm} (owns : Owner wbm owner)
    (strobe : (wbm owner).stb = true) {i : Fin nums} :
    SlaveAccepted params wbm wbs i ↔
      (params.Covers i (wbm owner).adr ∧ params.limit i < 2 ^ 32) ∧ (wbs i).stall = false := by
  rw [slaveAccepted_iff]
  constructor
  · intro accessed
    obtain ⟨other, otherOwns, _, selected⟩ := accessed
    exact otherOwns.unique owns ▸ selected
  · intro selected
    exact ⟨owner, owns, strobe, selected⟩

theorem agree_iff {owner : Fin numm} {i : Fin nums} (owns : Owner wbm owner)
    (strobe : (wbm owner).stb = true) (covers : params.Covers i (wbm owner).adr) :
    ((toMaster state wbm wbs owner).stall = false ↔ SlaveAccepted params wbm wbs i) ↔
      if params.limit i < 2 ^ 32 then (∃ j, (wbs j).stall = true) → (wbs i).stall = true
      else ∃ j, (wbs j).stall = true := by
  rw [toMaster_stall, and_iff_right owns, slaveAccepted_of_owner owns strobe, and_iff_right covers]
  -- the owner looks at all slaves, the addressed slave at itself
  have quiet : (∀ j, (wbs j).stall = false) ↔ ¬ ∃ j, (wbs j).stall = true := by simp
  rw [quiet]
  split
  · next selectable =>
    rw [and_iff_right selectable, ← Bool.not_eq_true]
    refine not_iff_not.trans ⟨Iff.mp, fun stalls => ⟨stalls, fun stalled => ⟨i, stalled⟩⟩⟩
  · next wrapped =>
    -- the sum of base and size wraps, and no strobe gets through
    have unselected : ¬ (params.limit i < 2 ^ 32 ∧ (wbs i).stall = false) := fun selected =>
      wrapped selected.1
    rw [iff_false_right unselected, not_not]

theorem acceptanceAgrees_iff (disjoint : params.Disjoint) :
    AcceptanceAgrees params state wbm wbs ↔ StallsAgree params wbm wbs := by
  constructor
  · intro agrees owner i owns strobe covers
    exact (agree_iff owns strobe covers).mp (agrees.agree owner i owns strobe covers)
  · intro stalls
    have agree (owner : Fin numm) (i : Fin nums) (owns : Owner wbm owner)
        (strobe : (wbm owner).stb = true) (covers : params.Covers i (wbm owner).adr) :
        (toMaster state wbm wbs owner).stall = false ↔ SlaveAccepted params wbm wbs i :=
      (agree_iff owns strobe covers).mpr (stalls owner i owns strobe covers)
    refine ⟨agree, ?_, ?_⟩
    · intro i accessed
      obtain ⟨owner, owns, strobe, selected, _⟩ := slaveAccepted_iff.mp accessed
      have accepted : MasterAccepted state wbm wbs owner :=
        ⟨WbMaster.strobes_eq_true.mpr ⟨owns.1, strobe⟩,
          (agree owner i owns strobe selected.1).mpr accessed⟩
      have forwarded := toSlave_of_owner params owns ((ss_eq_true params).mpr selected)
      refine ⟨owner, ⟨accepted, selected.1, forwarded⟩, fun other accepts => ?_⟩
      exact (masterAccepted_iff.mp accepts.1).1.unique owns
    · intro m i accepted covers j
      obtain ⟨owns, strobe, _⟩ := masterAccepted_iff.mp accepted
      constructor
      · intro other
        exact disjoint j i _ ((slaveAccepted_of_owner owns strobe).mp other).1.1 covers
      · intro equal
        rw [equal]
        exact (agree m i owns strobe covers).mp accepted.2

/-! ## Runs -/

/-- In every run the two sides agree on the accepted requests of all cycles before `last` exactly
when the stalls of all these cycles agree. -/
theorem acceptance_agrees_iff (params : Params nums) (disjoint : params.Disjoint)
    (wbm : Nat → Fin numm → WbMaster) (wbs : Nat → Fin nums → WbSlave) (last : Nat) :
    (∀ cycle, cycle < last →
      AcceptanceAgrees params (registers params wbm wbs cycle) (wbm cycle) (wbs cycle)) ↔
      ∀ cycle, cycle < last → StallsAgree params (wbm cycle) (wbs cycle) :=
  forall₂_congr fun _ _ => acceptanceAgrees_iff disjoint

def twoRegions : Params 2 := ⟨![0, 16], ![16, 16]⟩

theorem twoRegions_disjoint : twoRegions.Disjoint := by
  intro i j adr left right
  fin_cases i <;> fin_cases j <;>
    simp [twoRegions, Params.Covers, Params.limit] at left right ⊢ <;> omega

/-- One master strobes the first region, while the slave of the second one stalls. -/
def bystanderStall (cycle : Nat) : Fin 2 → WbSlave :=
  ![.idle, { WbSlave.idle with stall := decide (cycle = 0) }]

def readFirst (_ : Nat) : Fin 1 → WbMaster := fun _ => ⟨true, true, false, 0, 15, 0⟩

/-- The slave of the first region stalls its request for two cycles, the other one for one. -/
def addressedStall (cycle : Nat) : Fin 2 → WbSlave :=
  ![{ WbSlave.idle with stall := decide (cycle < 2) },
    { WbSlave.idle with stall := decide (cycle = 0) }]

theorem addressedStall_agrees (cycle : Nat) :
    StallsAgree twoRegions (readFirst cycle) (addressedStall cycle) := by
  intro owner i _ _ covers
  fin_cases i
  · simp [twoRegions, Params.limit, addressedStall, WbSlave.idle]
    omega
  · exact absurd covers (by simp [twoRegions, Params.Covers, readFirst])

/-- The master waits in cycle 1 and both sides accept in cycle 2. -/
theorem acceptance_agrees_iff_quiet :
    AcceptanceAgrees twoRegions (registers twoRegions readFirst addressedStall 1) (readFirst 1)
        (addressedStall 1) ∧
      AcceptanceAgrees twoRegions (registers twoRegions readFirst addressedStall 2) (readFirst 2)
        (addressedStall 2) := by
  have agrees := (acceptance_agrees_iff twoRegions twoRegions_disjoint readFirst addressedStall
    3).mpr fun cycle _ => addressedStall_agrees cycle
  exact ⟨agrees 1 (by decide), agrees 2 (by decide)⟩

/-- The slave takes the access in cycle 0 and its master is told to present it again. -/
theorem bystanderStall_disagrees :
    ¬ AcceptanceAgrees twoRegions (registers twoRegions readFirst bystanderStall 0) (readFirst 0)
      (bystanderStall 0) := by
  intro agrees
  have owns : Owner (readFirst 0) 0 := by decide
  have told := (agrees.agree 0 0 owns rfl (by decide)).mpr (by decide)
  exact absurd ((toMaster_stall _ _ _ _).mp told).2 (by decide)

end IbexWb.SharedBus
