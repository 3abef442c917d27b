import IbexWb.Rtl.Core2wb
import IbexWb.Rtl.Wb2core
import IbexWb.Synchronous.Events

/-! # `core2wb` followed by `wb2core` is transparent

A `core2wb` master drives a `wb2core` slave directly.  `requester` is the core in front of the
pair, `target` the core side behind it, in each cycle.

The two converters keep registers of their own.  As long as the target answers in the cycle
after a grant, the counter is one exactly while `resp` is up (`Registers.Coupled`), so the bus is
held for the answer and the pair does no more than delay the grant by a cycle.
-/

namespace IbexWb.Transparency

open IbexWb.Synchronous

/-! ## The pair of converters -/

@[ext] structure Registers (pending : Nat) where
  counts : Core2wb.Counts pending
  resp : Bool

variable {pending : Nat}

def Registers.reset : Registers pending := ⟨0, false⟩

section Cycle

variable (registers : Registers pending) (requester : CoreMaster) (target : CoreSlave)

/-- The two directions of the bus between the converters. -/
def wbm : WbMaster := Core2wb.wb registers.counts requester

def wbs : WbSlave := Wb2core.wb registers.resp (wbm registers requester) target

def next : Registers pending where
  counts := Core2wb.next registers.counts requester (wbs registers requester target)
  resp := Wb2core.next registers.resp (wbm registers requester) target

def toTarget : CoreMaster := Wb2core.core (wbm registers requester)

def toRequester : CoreSlave :=
  Core2wb.core registers.counts requester (wbs registers requester target)

end Cycle

def machine (pending : Nat) :
    Machine (CoreMaster × CoreSlave) (Registers pending) (CoreMaster × CoreSlave) where
  next registers port := next registers port.1 port.2
  out registers port := (toTarget registers port.1, toRequester registers port.1 port.2)

/-! ## One cycle -/

section Step

variable {registers : Registers pending} {requester : CoreMaster} {target : CoreSlave}

/-- Requests go through the pair, with all bytes enabled for a read. -/
theorem toTarget_eq : toTarget registers requester =
    { requester with be := if requester.we then requester.be else BitVec.allOnes 4 } := by
  have strobe := Core2wb.wb_strobes registers.counts requester
  rw [WbMaster.strobes] at strobe
  simp only [toTarget, wbm, Wb2core.core, strobe]
  rfl

theorem toRequester_gnt :
    (toRequester registers requester target).gnt = (requester.req && target.gnt) := by
  simp [toRequester, Core2wb.core, wbs, Wb2core.wb]

theorem next_resp :
    (next registers requester target).resp = (requester.req && target.gnt) := by
  have taken := Wb2core.next_eq registers.resp (wbm registers requester) target
  rw [← toTarget, toTarget_eq] at taken
  exact taken

/-- The counter holds the request whose answer `resp` waits for. -/
def Registers.Coupled (registers : Registers pending) : Prop :=
  registers.counts = BitVec.ofNat _ registers.resp.toNat

/-- The target answers while `resp` is up; when it is down it may do anything. -/
def Answered (registers : Registers pending) (target : CoreSlave) : Prop :=
  registers.resp = true → target.rvalid = true ∧ target.err = false

theorem Registers.Coupled.cyc (wide : 1 < pending) (coupled : registers.Coupled)
    (waiting : registers.resp = true) : Core2wb.cyc registers.counts requester = true := by
  -- one request is within the range of the signed counter
  have fits : 1 < 2 ^ Nat.clog 2 pending :=
    Nat.one_lt_two_pow (Nat.clog_pos (Nat.lt_succ_self 1) wide).ne'
  have shown : registers.counts.toInt = (1 : Nat) := by
    rw [coupled, waiting]
    exact Core2wb.toInt_ofNat fits
  exact Core2wb.cyc_eq_true.mpr (Or.inr (by rw [shown]; decide))

theorem wbs_answer (wide : 1 < pending) (coupled : registers.Coupled)
    (answered : Answered registers target) :
    (wbs registers requester target).ack = registers.resp ∧
      (wbs registers requester target).err = false := by
  cases waiting : registers.resp with
  | false => simp [wbs, Wb2core.wb, waiting]
  | true =>
    obtain ⟨valid, good⟩ := answered waiting
    simp [wbs, wbm, Wb2core.wb, waiting, valid, good, coupled.cyc wide waiting]

theorem cyc_and_resp (wide : 1 < pending) (coupled : registers.Coupled) :
    (Core2wb.cyc registers.counts requester && registers.resp) = registers.resp := by
  cases waiting : registers.resp with
  | false => exact Bool.and_false _
  | true => rw [coupled.cyc wide waiting, Bool.and_self]

theorem toRequester_eq (wide : 1 < pending) (coupled : registers.Coupled)
    (answered : Answered registers target) :
    toRequester registers requester target =
      ⟨requester.req && target.gnt, registers.resp, target.rdata, false⟩ := by
  have bus : (wbs registers requester target).ack = registers.resp ∧
      (wbs registers requester target).err = false := wbs_answer wide coupled answered
  obtain ⟨ack, err⟩ := bus
  refine CoreSlave.ext toRequester_gnt ?_ rfl err
  simp only [toRequester, Core2wb.core, ack, err, Bool.or_false]
  exact cyc_and_resp wide coupled

theorem coupled_next (wide : 1 < pending) (coupled : registers.Coupled)
    (answered : Answered registers target) : (next registers requester target).Coupled := by
  have balance :=
    Core2wb.next_balance registers.counts requester (wbs registers requester target)
  have moved : (requester.req && !(wbs registers requester target).stall) =
      (next registers requester target).resp := by
    rw [next_resp, wbs, Wb2core.wb, Bool.not_not]
  rw [(wbs_answer wide coupled answered).1, cyc_and_resp wide coupled, moved] at balance
  -- the answer takes from the counter what it held, the grant puts back the new request
  calc (next registers requester target).counts
      = registers.counts + BitVec.ofNat _ (next registers requester target).resp.toNat -
          BitVec.ofNat _ registers.resp.toNat := BitVec.eq_sub_iff_add_eq.mpr balance
    _ = BitVec.ofNat _ (next registers requester target).resp.toNat := by
        rw [show registers.counts = _ from coupled, BitVec.add_comm, BitVec.add_sub_cancel]

end Step

/-! ## Runs -/

variable (requester : Nat → CoreMaster) (target : Nat → CoreSlave)

def registers (pending : Nat) (cycle : Nat) : Registers pending :=
  (machine pending).run Registers.reset (fun cycle => (requester cycle, target cycle)) cycle

def atTarget (pending : Nat) (cycle : Nat) : CoreMaster :=
  toTarget (registers requester target pending cycle) (requester cycle)

def atRequester (pending : Nat) (cycle : Nat) : CoreSlave :=
  toRequester (registers requester target pending cycle) (requester cycle) (target cycle)

/-- A core interface takes a request. -/
def taken (master : Nat → CoreMaster) (slave : Nat → CoreSlave) (cycle : Nat) : Bool :=
  (master cycle).req && (slave cycle).gnt

/-- The target answers each request it grants in the next cycle, without an error. -/
def AnswersNext (master : Nat → CoreMaster) (target : Nat → CoreSlave) : Prop :=
  ∀ cycle, taken master target cycle = true →
    (target (cycle + 1)).rvalid = true ∧ (target (cycle + 1)).err = false

/-- What the two ends of a transparent pair see, cycle by cycle and summed over a run. -/
structure Transparent (atTarget : Nat → CoreMaster) (atRequester : Nat → CoreSlave) : Prop where
  req : ∀ cycle, (atTarget cycle).req = (requester cycle).req
  we : ∀ cycle, (atTarget cycle).we = (requester cycle).we
  addr : ∀ cycle, (atTarget cycle).addr = (requester cycle).addr
  wdata : ∀ cycle, (atTarget cycle).wdata = (requester cycle).wdata
  be_write : ∀ cycle, (requester cycle).we = true → (atTarget cycle).be = (requester cycle).be
  be_read : ∀ cycle, (requester cycle).we = false → (atTarget cycle).be = BitVec.allOnes 4
  gnt : ∀ cycle, (atRequester cycle).gnt = true ↔
    (requester cycle).req = true ∧ (target cycle).gnt = true
  rvalid : ∀ cycle, (atRequester cycle).rvalid = true ↔
    ∃ earlier, cycle = earlier + 1 ∧ taken requester atRequester earlier = true
  rdata : ∀ cycle, (atRequester cycle).rdata = (target cycle).rdata
  err : ∀ cycle, (atRequester cycle).err = false
  taken : ∀ cycle, Transparency.taken requester atRequester cycle =
    Transparency.taken atTarget target cycle
  answers : ∀ last, occurrences (fun cycle => (atRequester cycle).rvalid) (last + 1) =
    occurrences (Transparency.taken requester atRequester) last

variable {requester target}

theorem taken_atTarget (pending : Nat) (cycle : Nat) :
    taken (atTarget requester target pending) target cycle =
      ((requester cycle).req && (target cycle).gnt) := by
  rw [taken, atTarget, toTarget_eq]

theorem taken_atRequester (pending : Nat) (cycle : Nat) :
    taken requester (atRequester requester target pending) cycle =
      ((requester cycle).req && (target cycle).gnt) := by
  rw [taken, atRequester, toRequester_gnt, ← Bool.and_assoc, Bool.and_self]

theorem resp_succ (pending : Nat) (cycle : Nat) :
    (registers requester target pending (cycle + 1)).resp =
      taken (atTarget requester target pending) target cycle := by
  rw [taken_atTarget]
  exact next_resp

theorem answered (answers : AnswersNext (atTarget requester target pending) target) (cycle : Nat) :
    Answered (registers requester target pending cycle) (target cycle) := by
  intro waiting
  cases cycle with
  | zero => exact absurd waiting Bool.false_ne_true
  | succ cycle => exact answers cycle (by rwa [resp_succ] at waiting)

theorem registers_coupled (wide : 1 < pending)
    (answers : AnswersNext (atTarget requester target pending) target) (cycle : Nat) :
    (registers requester target pending cycle).Coupled := by
  induction cycle with
  | zero => rfl
  | succ cycle inductionHypothesis =>
    exact coupled_next wide inductionHypothesis (answered answers cycle)

theorem atRequester_eq (wide : 1 < pending)
    (answers : AnswersNext (atTarget requester target pending) target) (cycle : Nat) :
    atRequester requester target pending cycle =
      ⟨(requester cycle).req && (target cycle).gnt,
        (registers requester target pending cycle).resp, (target cycle).rdata, false⟩ :=
  toRequester_eq wide (registers_coupled wide answers cycle) (answered answers cycle)

theorem atRequester_rvalid_succ (wide : 1 < pending)
    (answers : AnswersNext (atTarget requester target pending) target) (cycle : Nat) :
    (atRequester requester target pending (cycle + 1)).rvalid =
      taken requester (atRequester requester target pending) cycle := by
  rw [atRequester_eq wide answers, taken_atRequester, resp_succ, taken_atTarget]

theorem atRequester_rvalid_zero (wide : 1 < pending)
    (answers : AnswersNext (atTarget requester target pending) target) :
    (atRequester requester target pending 0).rvalid = false := by
  rw [atRequester_eq wide answers]
  rfl

theorem transparent_of_pending (wide : 1 < pending)
    (answers : AnswersNext (atTarget requester target pending) target) :
    Transparent requester target (atTarget requester target pending)
      (atRequester requester target pending) where
  req cycle := by rw [atTarget, toTarget_eq]
  we cycle := by rw [atTarget, toTarget_eq]
  addr cycle := by rw [atTarget, toTarget_eq]
  wdata cycle := by rw [atTarget, toTarget_eq]
  be_write cycle write := by rw [atTarget, toTarget_eq, write]; rfl
  be_read cycle read := by rw [atTarget, toTarget_eq, read]; rfl
  gnt cycle := by rw [atRequester_eq wide answers, Bool.and_eq_true]
  rvalid cycle := by
    cases cycle with
    | zero => simp [atRequester_rvalid_zero wide answers]
    | succ cycle => simp [atRequester_rvalid_succ wide answers]
  rdata cycle := by rw [atRequester_eq wide answers]
  err cycle := by rw [atRequester_eq wide answers]
  taken cycle := by rw [taken_atRequester, taken_atTarget]
  answers last := by
    induction last with
    | zero => simp [occurrences_succ, atRequester_rvalid_zero wide answers]
    | succ last inductionHypothesis =>
      rw [occurrences_succ, inductionHypothesis, atRequester_rvalid_succ wide answers,
        occurrences_succ]

/-- The default counter is wide enough for the single request in flight. -/
theorem transparent
    (answers : AnswersNext (atTarget requester target Core2wb.defaultPending) target) :
    Transparent requester target (atTarget requester target Core2wb.defaultPending)
      (atRequester requester target Core2wb.defaultPending) :=
  transparent_of_pending (by decide) answers

/-! ## A target with its handshake tied high -/

/-- A core that reads in every cycle, from a target that grants always and keeps `rvalid` high. -/
def reading (cycle : Nat) : CoreMaster :=
  { CoreMaster.idle with req := true, addr := BitVec.ofNat 32 cycle }

def tiedHigh (cycle : Nat) : CoreSlave := ⟨true, true, BitVec.ofNat 32 cycle, false⟩

theorem transparent_tiedHigh :
    AnswersNext (atTarget reading tiedHigh Core2wb.defaultPending) tiedHigh ∧
      Transparent reading tiedHigh (atTarget reading tiedHigh Core2wb.defaultPending)
        (atRequester reading tiedHigh Core2wb.defaultPending) :=
  ⟨fun _ _ => ⟨rfl, rfl⟩, transparent fun _ _ => ⟨rfl, rfl⟩⟩

end IbexWb.Transparency
