import IbexWb.Rtl.Interfaces
import IbexWb.Synchronous.Loop
import IbexWb.Synchronous.Machine

/-! # `wb_interconnect_sharedbus`: one bus for all masters and slaves

The lowest-indexed master with `cyc` high owns the bus.  Its address selects the slaves by a
range comparison, and the grant and the selection of the last strobe are kept in `gnt1` and
`ss1` to route the response, which is assumed to come in the next cycle.

The shared signals are a `WbMaster` (`dat_wr` is its `datM`) and a `WbSlave` (`dat_rd` is its
`datS`).  A block of the source that runs over an index with a dependence between the rounds is
a `forLoop`; one that assigns each index on its own is a function of the index.
-/

namespace IbexWb.SharedBus

open IbexWb.Synchronous

structure Params (nums : Nat) where
  baseAddr : Fin nums → BitVec 32
  size : Fin nums → BitVec 32

@[ext] structure State (numm nums : Nat) where
  gnt1 : Fin numm → Bool
  ss1 : Fin nums → Bool

variable {numm nums : Nat}

def State.reset : State numm nums := ⟨fun _ => false, fun _ => false⟩

/-! ## The blocks of the module

`ss` is the slave address select and `gnt` the priority arbiter.  `request` and `response` are the
shared bus signals of the masters and of the slaves, one round of their loops is `drive` and
`collect`.  `toMaster` and `toSlave` are the signals driven to the ports. -/

def ss (params : Params nums) (adr : Adr) : Fin nums → Bool := fun i =>
  decide (adr ≥ params.baseAddr i) && decide (adr < params.baseAddr i + params.size i)

def gnt (wbm : Fin numm → WbMaster) : Fin numm → Bool :=
  forBreak numm
    (fun i gnt => if (wbm i).cyc then .done (Function.update gnt i true) else .yield gnt)
    (fun _ => false)

def drive (wbm : Fin numm → WbMaster) (i : Fin numm) (bus : WbMaster) : WbMaster :=
  let bus := { bus with cyc := bus.cyc || (wbm i).cyc }
  if gnt wbm i then
    { bus with
      adr := (wbm i).adr
      stb := (wbm i).stb
      we := (wbm i).we
      sel := (wbm i).sel
      datM := (wbm i).datM }
  else bus

def request (wbm : Fin numm → WbMaster) : WbMaster :=
  forLoop numm (drive wbm) WbMaster.idle

def collect (ss1 : Fin nums → Bool) (wbs : Fin nums → WbSlave) (i : Fin nums) (bus : WbSlave) :
    WbSlave where
  ack := bus.ack || (wbs i).ack
  err := bus.err || (wbs i).err
  stall := bus.stall || (wbs i).stall
  datS := if ss1 i then (wbs i).datS else bus.datS

def response (ss1 : Fin nums → Bool) (wbs : Fin nums → WbSlave) : WbSlave :=
  forLoop nums (collect ss1 wbs) WbSlave.idle

def toMaster (state : State numm nums) (wbm : Fin numm → WbMaster) (wbs : Fin nums → WbSlave) :
    Fin numm → WbSlave := fun i =>
  let bus := response state.ss1 wbs
  -- `stall` responds immediately, the answer comes one cycle after the request
  { stall := if gnt wbm i then bus.stall else true
    ack := if state.gnt1 i then bus.ack else false
    err := if state.gnt1 i then bus.err else false
    datS := if state.gnt1 i then bus.datS else 0 }

def toSlave (params : Params nums) (wbm : Fin numm → WbMaster) : Fin nums → WbMaster := fun i =>
  let bus := request wbm
  { cyc := bus.cyc
    we := bus.we
    adr := if ss params bus.adr i then bus.adr else 0
    stb := if ss params bus.adr i then bus.cyc && bus.stb else false
    sel := if ss params bus.adr i then bus.sel else 0
    datM := if ss params bus.adr i then bus.datM else 0 }

def next (params : Params nums) (state : State numm nums) (wbm : Fin numm → WbMaster) :
    State numm nums :=
  let bus := request wbm
  { ss1 := if bus.cyc && bus.stb then ss params bus.adr else state.ss1
    gnt1 := if bus.cyc && bus.stb then gnt wbm else state.gnt1 }

def machine (params : Params nums) :
    Machine ((Fin numm → WbMaster) × (Fin nums → WbSlave)) (State numm nums)
      ((Fin numm → WbSlave) × (Fin nums → WbMaster)) where
  next state ports := next params state ports.1
  out state ports := (toMaster state ports.1 ports.2, toSlave params ports.1)

/-- `gnt1` and `ss1` in each cycle of the run from reset. -/
def registers (params : Params nums) (wbm : Nat → Fin numm → WbMaster)
    (wbs : Nat → Fin nums → WbSlave) (cycle : Nat) : State numm nums :=
  (machine params).run State.reset (fun cycle => (wbm cycle, wbs cycle)) cycle

/-! ## The arbiter -/

/-- Master `i` owns the bus: it is the lowest-indexed one with `cyc` high. -/
abbrev Owner (wbm : Fin numm → WbMaster) (i : Fin numm) : Prop :=
  IsFirst (fun i => (wbm i).cyc = true) i

theorem exists_owner {wbm : Fin numm → WbMaster} (i : Fin numm) (active : (wbm i).cyc = true) :
    ∃ owner, owner ≤ i ∧ Owner wbm owner :=
  IsFirst.exists_le (fun i => (wbm i).cyc = true) i active

theorem gnt_eq_true {wbm : Fin numm → WbMaster} {i : Fin numm} :
    gnt wbm i = true ↔ Owner wbm i := by
  by_cases active : ∃ m, (wbm m).cyc = true
  · obtain ⟨m, requesting⟩ := active
    obtain ⟨first, _, isFirst⟩ := exists_owner m requesting
    rw [gnt, forBreak_first (fun i => (wbm i).cyc) _ _ first isFirst, Function.update_apply]
    constructor
    · intro chosen
      obtain rfl : i = first := by simpa using chosen
      exact isFirst
    · intro owner
      simp [owner.unique isFirst]
  · have idle : ∀ m, (wbm m).cyc = false := by simpa using active
    rw [gnt, forBreak_none (fun i => (wbm i).cyc) _ _ idle]
    simp [Owner, IsFirst, idle]

theorem gnt_oneHot {wbm : Fin numm → WbMaster} {owner : Fin numm} (owns : Owner wbm owner)
    (i : Fin numm) : gnt wbm i = true ↔ i = owner := by
  rw [gnt_eq_true]
  exact ⟨fun other => other.unique owns, fun equal => equal ▸ owns⟩

/-! ## The shared request -/

theorem request_cyc {wbm : Fin numm → WbMaster} :
    (request wbm).cyc = true ↔ ∃ i, (wbm i).cyc = true := by
  rw [request, forLoop_fuse WbMaster.cyc _ (fun i value => value || (wbm i).cyc), forLoop_or]
  · simp [WbMaster.idle]
  · intro i bus
    simp only [drive]
    split <;> rfl

/-- The bus carries the signals of its owner. -/
theorem request_of_owner {wbm : Fin numm → WbMaster} {owner : Fin numm} (owns : Owner wbm owner) :
    request wbm = wbm owner := by
  -- `cyc` is an or over all masters, the other signals are a multiplexer
  have payload : { request wbm with cyc := true } = { wbm owner with cyc := true } := by
    have fused := forLoop_fuse (fun bus : WbMaster => { bus with cyc := true }) (drive wbm)
      (fun i bus => if gnt wbm i then { wbm i with cyc := true } else bus)
      (fun i bus => by simp only [drive]; split <;> rfl) WbMaster.idle
    exact fused.trans (forLoop_select (gnt wbm) (fun i _ => { wbm i with cyc := true }) _ owner
      (gnt_oneHot owns))
  have held : (request wbm).cyc = true := request_cyc.mpr ⟨owner, owns.1⟩
  simp only [WbMaster.mk.injEq, true_and] at payload
  exact WbMaster.ext (held.trans owns.1.symm) payload.1 payload.2.1 payload.2.2.1
    payload.2.2.2.1 payload.2.2.2.2

theorem request_idle {wbm : Fin numm → WbMaster} (idle : ∀ i, (wbm i).cyc = false) :
    request wbm = WbMaster.idle := by
  refine forLoop_const _ _ fun i bus => ?_
  have released : ¬ gnt wbm i = true := fun granted => by
    simpa [idle i] using (gnt_eq_true.mp granted).1
  simp [drive, idle i, released]

theorem request_strobes {wbm : Fin numm → WbMaster} :
    (request wbm).strobes = true ↔ ∃ owner, Owner wbm owner ∧ (wbm owner).stb = true := by
  by_cases active : ∃ i, (wbm i).cyc = true
  · obtain ⟨i, requesting⟩ := active
    obtain ⟨owner, _, owns⟩ := exists_owner i requesting
    rw [request_of_owner owns, WbMaster.strobes_eq_true]
    constructor
    · exact fun strobe => ⟨owner, owns, strobe.2⟩
    · rintro ⟨other, otherOwns, strobe⟩
      exact ⟨owns.1, owns.unique otherOwns ▸ strobe⟩
  · have idle : ∀ i, (wbm i).cyc = false := by simpa using active
    rw [request_idle idle]
    simp [Owner, IsFirst, idle]

/-! ## The shared response -/

section Response

variable (ss1 : Fin nums → Bool) (wbs : Fin nums → WbSlave)

theorem response_ack : (response ss1 wbs).ack = true ↔ ∃ i, (wbs i).ack = true := by
  rw [response, forLoop_fuse WbSlave.ack _ (fun i value => value || (wbs i).ack) fun _ _ => rfl,
    forLoop_or]
  simp [WbSlave.idle]

theorem response_err : (response ss1 wbs).err = true ↔ ∃ i, (wbs i).err = true := by
  rw [response, forLoop_fuse WbSlave.err _ (fun i value => value || (wbs i).err) fun _ _ => rfl,
    forLoop_or]
  simp [WbSlave.idle]

theorem response_stall : (response ss1 wbs).stall = true ↔ ∃ i, (wbs i).stall = true := by
  rw [response, forLoop_fuse WbSlave.stall _ (fun i value => value || (wbs i).stall) fun _ _ => rfl,
    forLoop_or]
  simp [WbSlave.idle]

theorem response_datS : (response ss1 wbs).datS =
    forLoop nums (fun i data => if ss1 i then (wbs i).datS else data) 0 :=
  forLoop_fuse WbSlave.datS _ _ (fun _ _ => rfl) _

variable {ss1}

theorem response_datS_of_oneHot {chosen : Fin nums} (oneHot : ∀ i, ss1 i = true ↔ i = chosen) :
    (response ss1 wbs).datS = (wbs chosen).datS := by
  rw [response_datS]
  exact forLoop_select ss1 (fun i _ => (wbs i).datS) _ chosen oneHot

theorem response_datS_of_none (none : ∀ i, ss1 i = false) : (response ss1 wbs).datS = 0 := by
  rw [response_datS]
  exact forLoop_const _ _ fun i _ => if_neg (by simp [none i])

end Response

/-! ## The signals of each port -/

section Ports

variable (params : Params nums) (state : State numm nums) (wbm : Fin numm → WbMaster)
  (wbs : Fin nums → WbSlave)

theorem toMaster_stall (i : Fin numm) :
    (toMaster state wbm wbs i).stall = false ↔ Owner wbm i ∧ ∀ j, (wbs j).stall = false := by
  have stalled := response_stall state.ss1 wbs
  simp only [toMaster, ← gnt_eq_true]
  cases granted : gnt wbm i with
  | false => simp
  | true => simpa [granted] using not_congr stalled

theorem toMaster_ack (i : Fin numm) :
    (toMaster state wbm wbs i).ack = true ↔ state.gnt1 i = true ∧ ∃ j, (wbs j).ack = true := by
  simp [toMaster, response_ack]

theorem toMaster_err (i : Fin numm) :
    (toMaster state wbm wbs i).err = true ↔ state.gnt1 i = true ∧ ∃ j, (wbs j).err = true := by
  simp [toMaster, response_err]

theorem toSlave_strobes (i : Fin nums) :
    (toSlave params wbm i).strobes = true ↔
      (request wbm).strobes = true ∧ ss params (request wbm).adr i = true := by
  cases selected : ss params (request wbm).adr i <;> simp [toSlave, selected]

theorem toSlave_of_selected {i : Fin nums} (selected : ss params (request wbm).adr i = true)
    (held : (request wbm).cyc = true) : toSlave params wbm i = request wbm := by
  simp [toSlave, selected, held, WbMaster.ext_iff]

variable {wbm}

theorem toSlave_of_owner {owner : Fin numm} (owns : Owner wbm owner) {i : Fin nums}
    (selected : ss params (wbm owner).adr i = true) : toSlave params wbm i = wbm owner := by
  have bus := request_of_owner owns
  rw [← bus] at selected
  rw [toSlave_of_selected params wbm selected (request_cyc.mpr ⟨owner, owns.1⟩), bus]

/-- A slave is strobed by the owner of the bus, if the address selects it. -/
theorem toSlave_strobes_iff {i : Fin nums} :
    (toSlave params wbm i).strobes = true ↔
      ∃ owner, Owner wbm owner ∧ (wbm owner).stb = true ∧ ss params (wbm owner).adr i = true := by
  rw [toSlave_strobes, request_strobes]
  constructor
  · intro strobed
    obtain ⟨⟨owner, owns, strobe⟩, selected⟩ := strobed
    rw [request_of_owner owns] at selected
    exact ⟨owner, owns, strobe, selected⟩
  · intro strobed
    obtain ⟨owner, owns, strobe, selected⟩ := strobed
    rw [request_of_owner owns]
    exact ⟨⟨owner, owns, strobe⟩, selected⟩

variable (wbm)

/-- The strobe of a cycle is remembered until the next strobe. -/
theorem next_of_strobe (strobe : (request wbm).strobes = true) :
    next params state wbm = ⟨gnt wbm, ss params (request wbm).adr⟩ := by
  rw [WbMaster.strobes] at strobe
  simp [next, strobe]

theorem next_of_idle (idle : (request wbm).strobes = false) : next params state wbm = state := by
  rw [WbMaster.strobes] at idle
  simp [next, idle]

end Ports

end IbexWb.SharedBus
