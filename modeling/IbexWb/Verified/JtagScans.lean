import IbexWb.Jtag.DebugDefs
import IbexWb.Jtag.Registers
import IbexWb.Verified.JtagDelivery

/-! # What the transactions do to the registers of the chip

TCK has a period of two half periods whatever the driver does, so the cycles that are pending are
made by a time that depends on their number only, and the queue runs empty.  A chip that makes them
updates the register of each transaction with its bits.
-/

namespace IbexWb.Jtag

open Binary

/-! ## The deadline -/

section Deadline

variable {half : Nat} {initial : Sim}

/-- In each period the TAP makes one cycle. -/
theorem periods (positive : 0 < half) (initial : Sim) (step count : Nat) :
    (tapLog half initial (step + 2 * half * count)).length =
      (tapLog half initial step).length + count := by
  induction count with
  | zero => rfl
  | succ count inductionHypothesis =>
    have split : step + 2 * half * (count + 1) = step + 2 * half * count + half + half := by
      rw [Nat.mul_succ]
      omega
    obtain ⟨level, first⟩ := half_period positive initial (step + 2 * half * count)
    obtain ⟨_, second⟩ := half_period positive initial (step + 2 * half * count + half)
    rw [split, second, first, level, inductionHypothesis]
    cases (sim half initial (step + 2 * half * count)).top.tck <;> simp [Nat.add_assoc]

/-- Behind a step the pending cycles are made, and after them only the resting ones. -/
structure Accounts (half : Nat) (initial : Sim) (cycles : List Cycle) (step : Nat) : Prop where
  state : Resting (sim half initial step) ∧ (∃ count, tapLog half initial step =
      cycles ++ List.replicate count (.visit .runTestIdle)) ∨
    InStep (sim half initial step) ∧
      tapLog half initial step ++ pending (sim half initial step) = cycles

theorem accounts_resting {cycles : List Cycle} {step : Nat}
    (resting : Resting (sim half initial step)) (count : Nat)
    (logged : tapLog half initial step = cycles ++ List.replicate count (.visit .runTestIdle)) :
    Accounts half initial cycles (step + 1) := by
  obtain ⟨after, more, made⟩ := resting_next resting
  refine ⟨Or.inl ⟨after, count + more, ?_⟩⟩
  rw [tapLog_succ, logged, made, List.append_assoc, List.replicate_append_replicate]

theorem accounts_next {cycles : List Cycle} {step : Nat}
    (accounts : Accounts half initial cycles step) : Accounts half initial cycles (step + 1) := by
  obtain ⟨resting, count, logged⟩ | ⟨inStep, rfl⟩ := accounts.state
  · exact accounts_resting resting count logged
  -- with nothing left to deliver the driver only adds resting cycles
  by_cases done : pending (sim half initial step) = []
  · refine accounts_resting (inStep.resting_of_pending done) 0 ?_
    rw [done, List.append_nil]
    exact (List.append_nil _).symm
  refine ⟨Or.inr ⟨next_inStep inStep, ?_⟩⟩
  rw [tapLog_succ, List.append_assoc]
  refine congrArg _ ?_
  rw [sim_succ]
  by_cases toggles : Toggles half (sim half initial step)
  · cases tck : (sim half initial step).top.tck with
    | false =>
      obtain ⟨_, out, made⟩ := inStep_rise inStep toggles tck
      rw [out, made]
      rfl
    | true =>
      obtain ⟨_, out, kept⟩ := inStep_fall inStep toggles tck
      rw [out, kept]
      · rfl
      · intro empty
        rw [pending, tck, empty] at done
        exact done rfl
  · obtain ⟨_, out, kept⟩ := inStep_quiet inStep toggles
    rw [out, kept]
    rfl

theorem accounts_later {cycles : List Cycle} {step : Nat}
    (accounts : Accounts half initial cycles step) (count : Nat) :
    Accounts half initial cycles (step + count) := by
  induction count with
  | zero => exact accounts
  | succ count inductionHypothesis => exact accounts_next inductionHypothesis

/-- What is pending takes a period for each cycle. -/
theorem done_after (positive : 0 < half) {step : Nat} (inStep : InStep (sim half initial step)) :
    Resting (sim half initial (step + 2 * half * (pending (sim half initial step)).length)) := by
  have accounts : Accounts half initial
      (tapLog half initial step ++ pending (sim half initial step)) step := ⟨Or.inr ⟨inStep, rfl⟩⟩
  obtain ⟨resting, _⟩ | ⟨there, total⟩ :=
    (accounts_later accounts (2 * half * (pending (sim half initial step)).length)).state
  · exact resting
  · -- as many cycles were made as were pending, so none is left
    have lengths := congrArg List.length total
    rw [List.length_append, List.length_append, periods positive] at lengths
    exact there.resting_of_pending (List.length_eq_zero_iff.mp
      (Nat.add_left_cancel (lengths.trans (Nat.add_zero _).symm)))

/-- The driver waits, or the queue is accounted for behind the cycles that led to it. -/
theorem waits_or_accounts (start : Reset initial) (step : Nat) : Waits half initial step ∨
    ∃ lead, (∀ cycle ∈ lead, Lead cycle) ∧
      Accounts half initial (lead ++ initial.seq.flatMap deliver) step := by
  obtain ⟨waits, _⟩ | ⟨first, before, waits, falls⟩ := waits_or_fell start step
  · exact Or.inl waits
  · obtain ⟨inStep, out, cycle, lead, waiting⟩ := reset_fall waits.reset falls
    obtain ⟨count, rfl⟩ := Nat.exists_eq_add_of_le (Nat.succ_le_of_lt before)
    have inStep : InStep (sim half initial (first + 1)) := inStep
    refine Or.inr ⟨tapLog half initial first ++ [cycle], waits.leads_append lead,
      accounts_later ⟨Or.inr ⟨inStep, ?_⟩⟩ count⟩
    rw [tapLog_succ, out, sim_succ, waiting, waits.seq]
    simp

/-- The queue is empty for the first time.  Up to here the loop is defined: the step behind calls
`front` on the empty queue. -/
structure Empties (half : Nat) (initial : Sim) (last : Nat) : Prop where
  empty : (sim half initial last).seq = []
  before : ∀ step, step < last → (sim half initial step).seq ≠ []

/-- The queue runs empty by then. -/
def deadline (half : Nat) (queue : List Transaction) : Nat :=
  2 * half * ((queue.flatMap deliver).length + 2) + 1

theorem empty_by_deadline (positive : 0 < half) (start : Reset initial) :
    ∃ step, step ≤ deadline half initial.seq ∧ (sim half initial step).seq = [] := by
  by_cases busy : initial.seq = []
  · exact ⟨0, Nat.zero_le _, busy⟩
  · -- one period until the driver moves, and one for the cycle that it makes before the queue
    obtain ⟨first, soon, waits, falls⟩ := exists_fall_within positive start busy
    obtain ⟨inStep, _, cycle, _, waiting⟩ := reset_fall waits.reset falls
    have inStep : InStep (sim half initial (first + 1)) := inStep
    have resting := done_after positive inStep
    rw [sim_succ, waiting, waits.seq, List.length_cons] at resting
    refine ⟨_, ?_, resting.seq⟩
    rw [deadline, Nat.mul_succ, Nat.mul_succ, Nat.mul_succ]
    omega

theorem exists_empties (positive : 0 < half) (start : Reset initial) :
    ∃ last, last ≤ deadline half initial.seq ∧ Empties half initial last := by
  obtain ⟨step, early, empty⟩ := empty_by_deadline positive start
  have eventually : ∃ step, (sim half initial step).seq = [] := ⟨step, empty⟩
  exact ⟨Nat.find eventually, (Nat.find_min' eventually empty).trans early,
    Nat.find_spec eventually, fun _ => Nat.find_min eventually⟩

end Deadline

/-! ## Scans -/

theorem setWidth_of_low {width : Nat} {x y : BitVec 64} (same : low width x = low width y) :
    x.setWidth width = y.setWidth width := by
  apply BitVec.eq_of_getLsbD_eq
  intro place inside
  have bits := congrArg (·.getLsbD place) same
  simp only [getLsbD_low, decide_eq_true inside, Bool.and_true] at bits
  rw [BitVec.getLsbD_setWidth, BitVec.getLsbD_setWidth, bits]

/-- The instruction behind a transaction. -/
def Transaction.instr (txn : Transaction) (instr : BitVec 5) : BitVec 5 :=
  match txn.mode with
  | .ir => txn.req.setWidth 5
  | .dr => instr

def Transaction.update (txn : Transaction) (instr : BitVec 5) : Update :=
  match txn.mode with
  | .ir => .instr (txn.req.setWidth 5)
  | .dr => .data instr (low txn.len.toNat txn.req)

/-- The updates that transactions ask for. -/
def requested : BitVec 5 → List Transaction → List Update
  | _, [] => []
  | instr, txn :: rest => txn.update instr :: requested (txn.instr instr) rest

namespace Chip

variable (chip : Chip)

/-- Each transaction has the length of the register that it scans. -/
def Addressed : BitVec 5 → List Transaction → Prop
  | _, [] => True
  | instr, txn :: rest =>
    txn.len.toNat = chip.scanned instr txn.mode ∧ Addressed (txn.instr instr) rest

def start (shift : BitVec 64) : Registers := ⟨chip.reset, shift, []⟩

theorem run_cons (registers : Registers) (cycle : Cycle) (rest : List Cycle) :
    chip.run registers (cycle :: rest) = chip.run (chip.next registers cycle) rest := rfl

theorem run_idle (registers : Registers) (count : Nat) :
    chip.run registers (List.replicate count (.visit .runTestIdle)) = registers := by
  induction count with
  | zero => rfl
  | succ count inductionHypothesis => exact inductionHypothesis

theorem run_lead (shift : BitVec 64) (lead : List Cycle) (leads : ∀ cycle ∈ lead, Lead cycle) :
    chip.run (chip.start shift) lead = chip.start shift := by
  induction lead with
  | nil => rfl
  | cons cycle rest inductionHypothesis =>
    obtain ⟨first, others⟩ := List.forall_mem_cons.mp leads
    obtain rfl | rfl := first <;> exact inductionHypothesis others

theorem run_shifts (registers : Registers) (scan : Scan) (bits : List Bool) :
    chip.run registers (bits.map (.shift scan)) = { registers with
      shift := bits.foldl (shiftIn (chip.scanned registers.instr scan)) registers.shift } := by
  induction bits generalizing registers with
  | nil => rfl
  | cons bit rest inductionHypothesis => exact inductionHypothesis _

theorem next_update (registers : Registers) {txn : Transaction}
    (length : txn.len.toNat = chip.scanned registers.instr txn.mode)
    (scanned : low txn.len.toNat registers.shift = low txn.len.toNat txn.req) :
    chip.next registers (.visit (.update txn.mode)) = { registers with
      instr := txn.instr registers.instr
      updates := registers.updates ++ [txn.update registers.instr] } := by
  obtain ⟨mode, req, len⟩ := txn
  cases mode with
  | ir =>
    have five : len.toNat = 5 := length
    have value : registers.shift.setWidth 5 = req.setWidth 5 := setWidth_of_low (five ▸ scanned)
    simp only [next, Transaction.instr, Transaction.update, value]
  | dr =>
    have whole : low (chip.width registers.instr) registers.shift = low len.toNat req := by
      rw [← scanned]
      exact congrArg (low · registers.shift) length.symm
    simp only [next, Transaction.instr, Transaction.update, whole]

/-- A transaction of the length of its register is one update. -/
theorem run_deliver (registers : Registers) {txn : Transaction} (fits : txn.Fits)
    (length : txn.len.toNat = chip.scanned registers.instr txn.mode) : ∃ shift,
      chip.run registers (deliver txn) = ⟨txn.instr registers.instr, shift,
        registers.updates ++ [txn.update registers.instr]⟩ := by
  have scanning : shifts txn.mode txn.req (txn.len.toNat - 0) =
      ((List.range txn.len.toNat).map txn.req.getLsbD).map (.shift txn.mode) := by
    rw [List.map_map]
    rfl
  -- the states on the way to the scan and back change nothing but the shift register
  have selecting : chip.run registers (select txn.mode) = registers := by
    cases txn.mode <;> rfl
  have leaving (behind : Registers) : chip.run behind (leave txn.mode) =
      chip.next behind (.visit (.update txn.mode)) := rfl
  have capturing : chip.next registers (.visit (.capture txn.mode)) =
      { registers with shift := chip.captured txn.mode registers } := rfl
  rw [deliver, run_append, run_idle, scanOut, run_append, selecting, run_cons, capturing, shiftOut,
    scanning, run_append, run_shifts, leaving]
  refine ⟨_, chip.next_update _ length ?_⟩
  rw [← length]
  exact low_shiftIns fits.2 txn.req _

theorem run_queue (queue : List Transaction) (fits : ∀ txn ∈ queue, txn.Fits)
    (registers : Registers) (addressed : chip.Addressed registers.instr queue) :
    (chip.run registers (queue.flatMap deliver)).updates =
      registers.updates ++ requested registers.instr queue := by
  induction queue generalizing registers with
  | nil => exact (List.append_nil _).symm
  | cons txn rest inductionHypothesis =>
    obtain ⟨length, later⟩ := addressed
    obtain ⟨first, others⟩ := List.forall_mem_cons.mp fits
    obtain ⟨shift, made⟩ := chip.run_deliver registers first length
    rw [List.flatMap_cons, run_append, made, inductionHypothesis others _ later, requested,
      List.append_assoc]
    rfl

end Chip

section Latch

variable {half : Nat} {initial : Sim}

/-- The cycles of the TAP before a step, with the one whose TCK is still low: an update register
takes its value when TCK falls. -/
def begun (half : Nat) (initial : Sim) (step : Nat) : List Cycle :=
  tapLog half initial step ++ if (sim half initial step).top.tck then []
    else [(sim half initial step).tap.cycle (sim half initial step).top.tdi]

theorem begun_waits {step : Nat} (waits : Waits half initial step) :
    ∀ cycle ∈ begun half initial step, Lead cycle := by
  rw [begun]
  cases (sim half initial step).top.tck with
  | true => exact (List.append_nil (tapLog half initial step)).symm ▸ waits.leads
  | false => exact waits.leads_append (waits.reset.lead _)

theorem begun_resting {cycles : List Cycle} {step count : Nat}
    (resting : Resting (sim half initial step))
    (logged : tapLog half initial step = cycles ++ List.replicate count (.visit .runTestIdle)) :
    ∃ more, begun half initial step = cycles ++ List.replicate more (.visit .runTestIdle) := by
  rw [begun, logged, List.append_assoc, resting.tap]
  cases (sim half initial step).top.tck with
  | true => exact ⟨count, congrArg (cycles ++ ·) (List.append_nil _)⟩
  | false => exact ⟨count + 1, congrArg (cycles ++ ·) List.replicate_succ'.symm⟩

/-- With an empty queue all cycles have begun. -/
theorem begun_of_empty {cycles : List Cycle} {step : Nat}
    (accounts : Accounts half initial cycles step) (empty : (sim half initial step).seq = []) :
    ∃ count, begun half initial step = cycles ++ List.replicate count (.visit .runTestIdle) := by
  obtain ⟨resting, count, logged⟩ | ⟨_, rfl⟩ := accounts.state
  · exact begun_resting resting logged
  · have current : (sim half initial step).current = [] := by
      by_contra busy
      exact seq_ne_nil busy empty
    refine ⟨0, ?_⟩
    rw [begun, pending, current]
    simp [upcoming]

theorem begun_prefix {cycles : List Cycle} {step : Nat}
    (accounts : Accounts half initial cycles step) : begun half initial step <+: cycles ∨
      ∃ count, begun half initial step = cycles ++ List.replicate count (.visit .runTestIdle) := by
  obtain ⟨resting, count, logged⟩ | ⟨_, rfl⟩ := accounts.state
  · exact Or.inr (begun_resting resting logged)
  · refine Or.inl ⟨upcoming (sim half initial step).driver (sim half initial step).current, ?_⟩
    rw [begun, pending, List.append_assoc]

variable (chip : Chip) (shift : BitVec 64)

/-- The updates of the chip before a step. -/
def latched (half : Nat) (initial : Sim) (chip : Chip) (shift : BitVec 64) (step : Nat) :
    List Update :=
  (chip.run (chip.start shift) (begun half initial step)).updates

theorem latched_waits {step : Nat} (waits : Waits half initial step) :
    latched half initial chip shift step = [] := by
  rw [latched, chip.run_lead shift _ (begun_waits waits)]
  rfl

/-- Leading and resting cycles update nothing. -/
theorem updates_delivered {queue : List Transaction} (fits : ∀ txn ∈ queue, txn.Fits)
    (addressed : chip.Addressed chip.reset queue) {lead : List Cycle}
    (leads : ∀ cycle ∈ lead, Lead cycle) (count : Nat) :
    (chip.run (chip.start shift) (lead ++ queue.flatMap deliver ++
      List.replicate count (.visit .runTestIdle))).updates = requested chip.reset queue := by
  rw [Chip.run_append, Chip.run_append, Chip.run_idle, chip.run_lead shift lead leads]
  exact chip.run_queue queue fits (chip.start shift) addressed

theorem latched_le (start : Reset initial) (addressed : chip.Addressed chip.reset initial.seq)
    (step : Nat) : latched half initial chip shift step <+: requested chip.reset initial.seq := by
  obtain waits | ⟨lead, leads, accounts⟩ := @waits_or_accounts half initial start step
  · rw [latched_waits chip shift waits]
    exact List.nil_prefix
  obtain ⟨rest, all⟩ | ⟨count, all⟩ := begun_prefix accounts
  · -- what is still to come only adds updates
    rw [← updates_delivered chip shift start.fits addressed leads 0, ← all, latched,
      List.append_assoc, Chip.run_append]
    exact chip.run_updates _ _
  · rw [latched, all, updates_delivered chip shift start.fits addressed leads]

theorem latched_of_empty (start : Reset initial) (addressed : chip.Addressed chip.reset initial.seq)
    {step : Nat} (empty : (sim half initial step).seq = []) :
    latched half initial chip shift step = requested chip.reset initial.seq := by
  obtain waits | ⟨lead, leads, accounts⟩ := @waits_or_accounts half initial start step
  · rw [latched_waits chip shift waits, ← waits.seq, empty]
    rfl
  · obtain ⟨count, all⟩ := begun_of_empty accounts empty
    rw [latched, all, updates_delivered chip shift start.fits addressed leads]

/-- The queue runs empty in bounded time.  Then the chip has made the updates that the transactions
ask for, in the order of the queue, and at any time before a part of them and no other update. -/
theorem latches (positive : 0 < half) (start : Reset initial)
    (addressed : chip.Addressed chip.reset initial.seq) :
    ∃ last, last ≤ deadline half initial.seq ∧ Empties half initial last ∧
      latched half initial chip shift last = requested chip.reset initial.seq ∧
      ∀ step, step ≤ last →
        latched half initial chip shift step <+: requested chip.reset initial.seq := by
  obtain ⟨last, early, empties⟩ := exists_empties positive start
  exact ⟨last, early, empties, latched_of_empty chip shift start addressed empties.empty,
    fun step _ => latched_le chip shift start addressed step⟩

end Latch

/-- A chip with the registers of `debug_defs.hpp` that captures zeros. -/
def dtm : Chip where
  reset := Instr.IDCODE.setWidth 5
  width instr :=
    if instr = Instr.IDCODE.setWidth 5 ∨ instr = Instr.DTMCS.setWidth 5 then 32
    else if instr = Instr.DMI.setWidth 5 then 41 else 1
  captured _ _ := 0

theorem latches_twoScans : ∃ last, last ≤ 3000 ∧ Empties 10 twoScans last ∧
    latched 10 twoScans dtm 0 last = [.instr 1, .data 1 0] := by
  have start : Reset twoScans := ⟨rfl, rfl, rfl, Or.inl rfl, by
    simp only [twoScans, List.forall_mem_cons]
    exact ⟨⟨by decide, by decide⟩, ⟨by decide, by decide⟩, List.forall_mem_nil _⟩⟩
  obtain ⟨last, early, empties, all, _⟩ :=
    latches dtm 0 (show 0 < 10 by decide) start ⟨by decide, by decide, trivial⟩
  exact ⟨last, early.trans (by decide), empties, all⟩

/-! ## The scans of the debugger -/

/-- The fields are in the low 41 bits. -/
theorem bits_low (reg : BitVec 64) : Dmi.bits (low 41 reg) = Dmi.bits reg := by
  have field (first width : Nat) (inside : first + width ≤ 41) :
      (low 41 reg).extractLsb' first width = reg.extractLsb' first width := by
    apply BitVec.eq_of_getLsbD_eq
    intro place bound
    rw [BitVec.getLsbD_extractLsb', BitVec.getLsbD_extractLsb', getLsbD_low,
      decide_eq_true (by omega : first + place < 41), Bool.and_true]
  simp only [Dmi.bits, field 0 2 (by decide), field 2 32 (by decide), field 34 7 (by decide)]

theorem Item.fits (item : Item) : item.transaction.Fits := by
  cases item with
  | instr value => exact (by decide : 1 ≤ (5 : BitVec 64).toNat ∧ (5 : BitVec 64).toNat ≤ 64)
  | idcode data => exact (by decide : 1 ≤ (32 : BitVec 64).toNat ∧ (32 : BitVec 64).toNat ≤ 64)
  | dtmcs data => exact (by decide : 1 ≤ (32 : BitVec 64).toNat ∧ (32 : BitVec 64).toNat ≤ 64)
  | dmi data => exact (by decide : 1 ≤ (41 : BitVec 64).toNat ∧ (41 : BitVec 64).toNat ≤ 64)

def Item.dmi? : Item → Option (BitVec 64)
  | dmi data => some data
  | _ => none

/-- Each register is scanned under its instruction. -/
def Matched : BitVec 5 → List Item → Prop
  | _, [] => True
  | _, .instr value :: rest => Matched (value.setWidth 5) rest
  | instr, .idcode _ :: rest => instr = Instr.IDCODE.setWidth 5 ∧ Matched instr rest
  | instr, .dtmcs _ :: rest => instr = Instr.DTMCS.setWidth 5 ∧ Matched instr rest
  | instr, .dmi _ :: rest => instr = Instr.DMI.setWidth 5 ∧ Matched instr rest

/-- The registers have the widths of their types. -/
structure Chip.Widths (chip : Chip) : Prop where
  idcode : chip.width (Instr.IDCODE.setWidth 5) = 32
  dtmcs : chip.width (Instr.DTMCS.setWidth 5) = 32
  dmi : chip.width (Instr.DMI.setWidth 5) = 41

/-- What the DMI register holds at its updates.  An operation of `DTM_NOP` asks nothing of the debug
module; such a scan is here too. -/
def dmiScans (updates : List Update) : List Dmi :=
  updates.filterMap fun update =>
    match update with
    | .data instr value => if instr = Instr.DMI.setWidth 5 then some (Dmi.bits value) else none
    | .instr _ => none

theorem setWidth_instr (value : BitVec 8) : (value.setWidth 64).setWidth 5 = value.setWidth 5 :=
  BitVec.setWidth_setWidth_of_le value (by decide)

theorem addressed_of_matched {chip : Chip} (widths : chip.Widths) (instr : BitVec 5)
    (items : List Item) (matched : Matched instr items) :
    chip.Addressed instr (items.map Item.transaction) := by
  induction items generalizing instr with
  | nil => trivial
  | cons item rest inductionHypothesis =>
    cases item with
    | instr value =>
      refine ⟨rfl, ?_⟩
      show chip.Addressed ((value.setWidth 64).setWidth 5) _
      rw [setWidth_instr]
      exact inductionHypothesis _ matched
    | idcode data => exact ⟨(matched.1 ▸ widths.idcode).symm, inductionHypothesis _ matched.2⟩
    | dtmcs data => exact ⟨(matched.1 ▸ widths.dtmcs).symm, inductionHypothesis _ matched.2⟩
    | dmi data => exact ⟨(matched.1 ▸ widths.dmi).symm, inductionHypothesis _ matched.2⟩

theorem dmiScans_cons (update : Update) (updates : List Update) :
    dmiScans (update :: updates) = dmiScans [update] ++ dmiScans updates :=
  List.filterMap_append (l := [update])

theorem dmiScans_requested (instr : BitVec 5) (items : List Item) (matched : Matched instr items) :
    dmiScans (requested instr (items.map Item.transaction)) =
      (items.filterMap Item.dmi?).map Dmi.bits := by
  induction items generalizing instr with
  | nil => rfl
  | cons item rest inductionHypothesis =>
    rw [List.map_cons, requested, dmiScans_cons]
    cases item with
    | instr value =>
      -- the instruction is no request, and it selects the register of the next items
      have others := inductionHypothesis _ matched
      rw [← setWidth_instr] at others
      exact others
    | idcode data =>
      obtain ⟨rfl, later⟩ := matched
      exact inductionHypothesis _ later
    | dtmcs data =>
      obtain ⟨rfl, later⟩ := matched
      exact inductionHypothesis _ later
    | dmi data =>
      obtain ⟨rfl, later⟩ := matched
      have first : dmiScans [(Item.dmi data).transaction.update (Instr.DMI.setWidth 5)] =
          [Dmi.bits (low 41 data)] := rfl
      have same := inductionHypothesis (Instr.DMI.setWidth 5) later
      rw [first, bits_low]
      exact congrArg (Dmi.bits data :: ·) same

section Scans

variable {half : Nat} {initial : Sim} {items : List Item} {scans : List Dmi}

end Scans

/-- `main` fills its queue and calls the driver from time 100 on, after some clocks with TMS low. -/
def mainStart : Sim where
  time := 100
  top := ⟨false, false, false⟩
  driver := ⟨false, false, 0, 0, .testLogicReset⟩
  seq := seq.map Item.transaction
  tap := .runTestIdle

def mainScans : List Dmi :=
  [⟨DTM_READ, 0, DMSTATUS⟩, ⟨DTM_NOP, 0, 0⟩, ⟨DTM_WRITE, 1, DMCONTROL⟩,
    ⟨DTM_WRITE, 0x80000001, DMCONTROL⟩, ⟨DTM_WRITE, 0x207b0, COMMAND⟩, ⟨DTM_READ, 0x207b0, DATA0⟩,
    ⟨DTM_NOP, 0, 0⟩]

end IbexWb.Jtag
