import IbexWb.Rtl.Wb2core
import IbexWb.Synchronous.Events

/-! # The response flag of `wb2core`

`wb` and `core` are what the bus master and the core side drive in each cycle.  The converter
passes an answer on only in the cycle after it took a strobe.  An answer that comes later finds
`resp` low, unless another strobe was taken meanwhile, and is lost.
-/

namespace IbexWb.Wb2core

open IbexWb.Synchronous

variable (wb : Nat → WbMaster) (core : Nat → CoreSlave)

/-- The core side grants a request; on the bus, a strobe is accepted. -/
def granted (cycle : Nat) : Bool := (Wb2core.core (wb cycle)).req && (core cycle).gnt

def valid (cycle : Nat) : Bool := (core cycle).rvalid

def resp (cycle : Nat) : Bool := machine.run false (fun cycle => (wb cycle, core cycle)) cycle

def port (cycle : Nat) : WbSlave := Wb2core.wb (resp wb core cycle) (wb cycle) (core cycle)

/-- The core side answers each granted request once, in a later cycle, and the bus master holds
`cyc` while an accepted strobe is not answered. -/
structure AnswersLater : Prop where
  causal : Causal (granted wb core) (valid core)
  held : ∀ cycle, 0 < inFlight (granted wb core) (valid core) cycle → (wb cycle).cyc = true

@[ext] structure Answer where
  cycle : Nat
  ack : Bool
  err : Bool
  data : Dat
deriving DecidableEq

def busAnswer (cycle : Nat) : Option Answer :=
  let port := port wb core cycle
  if port.ack || port.err then some ⟨cycle, port.ack, port.err, port.datS⟩ else none

def coreAnswer (cycle : Nat) : Option Answer :=
  let core := core cycle
  if core.rvalid then some ⟨cycle, !core.err, core.err, core.rdata⟩ else none

theorem resp_succ (cycle : Nat) : resp wb core (cycle + 1) = granted wb core cycle :=
  next_eq (resp wb core cycle) (wb cycle) (core cycle)

variable {wb core}

theorem resp_eq_true {cycle : Nat} :
    resp wb core cycle = true ↔ ∃ earlier, cycle = earlier + 1 ∧ granted wb core earlier = true := by
  cases cycle with
  | zero => simp [resp]
  | succ cycle =>
    rw [resp_succ]
    constructor
    · exact fun taken => ⟨cycle, rfl, taken⟩
    · rintro ⟨earlier, equal, taken⟩
      obtain rfl : cycle = earlier := by omega
      exact taken

/-- In a cycle both sides show the same answer exactly when the flag is up for it. -/
theorem busAnswer_eq_iff (slave : AnswersLater wb core) (cycle : Nat) :
    busAnswer wb core cycle = coreAnswer core cycle ↔
      ((core cycle).rvalid = true → resp wb core cycle = true) := by
  cases answered : (core cycle).rvalid with
  | false => simp [busAnswer, coreAnswer, port, Wb2core.wb, answered]
  | true =>
    -- the request of this answer is in flight, so the master holds the bus
    have held := slave.held cycle (slave.causal.inFlight_pos answered)
    cases flag : resp wb core cycle with
    | false => simp [busAnswer, coreAnswer, port, Wb2core.wb, answered, flag]
    | true =>
      cases erroneous : (core cycle).err <;>
        simp [busAnswer, coreAnswer, port, Wb2core.wb, answered, flag, held, erroneous]

/-- The answers on the bus before `last` are those of the core side, one by one and in the same
cycles, exactly when each of them comes in the cycle after a granted request. -/
theorem answers_eq_iff (slave : AnswersLater wb core) (last : Nat) :
    log (busAnswer wb core) last = log (coreAnswer core) last ↔
      ∀ cycle, cycle < last → (core cycle).rvalid = true →
        ∃ earlier, cycle = earlier + 1 ∧ granted wb core earlier = true := by
  have busStamp : ∀ cycle answer, busAnswer wb core cycle = some answer → answer.cycle = cycle := by
    intro cycle answer shown
    simp only [busAnswer, Option.ite_none_right_eq_some, Option.some.injEq] at shown
    exact shown.2 ▸ rfl
  have coreStamp : ∀ cycle answer, coreAnswer core cycle = some answer → answer.cycle = cycle := by
    intro cycle answer shown
    simp only [coreAnswer, Option.ite_none_right_eq_some, Option.some.injEq] at shown
    exact shown.2 ▸ rfl
  rw [log_eq_iff Answer.cycle last busStamp coreStamp]
  simp only [busAnswer_eq_iff slave, resp_eq_true]

/-! ## Back to back -/

/-- Strobes in the cycles 0 to 2. -/
def backToBack (cycle : Nat) : WbMaster :=
  { WbMaster.idle with cyc := true, stb := decide (0 ≤ cycle) && decide (cycle < 3) }

/-- A core side that answers each request in the next cycle, the second one with `err`. -/
def pipelined (cycle : Nat) : CoreSlave :=
  ⟨true, decide (1 ≤ cycle) && decide (cycle < 4), BitVec.ofNat 32 cycle, decide (cycle = 2)⟩

theorem granted_backToBack :
    granted backToBack pipelined = fun cycle => decide (0 ≤ cycle) && decide (cycle < 3) := by
  funext cycle
  simp [granted, Wb2core.core, backToBack, pipelined]

theorem backToBack_answersLater : AnswersLater backToBack pipelined := by
  refine ⟨fun cycle answer => ?_, fun _ _ => rfl⟩
  have inside : 1 ≤ cycle ∧ cycle < 4 := by simpa [valid, pipelined] using answer
  have answers : occurrences (valid pipelined) cycle = min cycle 4 - 1 :=
    occurrences_interval 1 4 cycle
  rw [answers, granted_backToBack, occurrences_interval]
  omega

theorem answers_eq_iff_next : log (busAnswer backToBack pipelined) 5 =
    [⟨1, true, false, 1⟩, ⟨2, false, true, 2⟩, ⟨3, true, false, 3⟩] := by
  have same := (answers_eq_iff backToBack_answersLater 5).mpr fun cycle _ answer => by
    have inside : 1 ≤ cycle ∧ cycle < 4 := by simpa [pipelined] using answer
    refine ⟨cycle - 1, by omega, ?_⟩
    rw [granted_backToBack]
    simp only [Bool.and_eq_true, decide_eq_true_eq]
    omega
  exact same.trans (by decide)

/-! ## A late answer -/

def strobe (cycle : Nat) : WbMaster := { WbMaster.idle with cyc := true, stb := decide (cycle = 0) }

/-- A core side that grants at once and answers in cycle `latency`. -/
def delayed (latency cycle : Nat) : CoreSlave := ⟨true, decide (cycle = latency), 0, false⟩

theorem delayed_answersLater {latency : Nat} (later : 0 < latency) :
    AnswersLater strobe (delayed latency) := by
  refine ⟨fun cycle answer => ?_, fun _ _ => rfl⟩
  obtain rfl : cycle = latency := by simpa [valid, delayed] using answer
  have first : occurrences (valid (delayed cycle)) cycle = 0 := by
    rw [occurrences, Nat.count_iff_forall_not]
    intro earlier ordered
    simp [valid, delayed, Nat.ne_of_lt ordered]
  have taken : occurrences (granted strobe (delayed cycle)) 1 = 1 := by
    rw [occurrences_succ]
    rfl
  have counted : occurrences (granted strobe (delayed cycle)) 1 ≤
      occurrences (granted strobe (delayed cycle)) cycle := occurrences_mono _ later
  rw [first]
  exact Nat.lt_of_lt_of_le (taken ▸ Nat.one_pos) counted

/-- With a latency of two cycles the only answer is lost. -/
theorem delayed_lost :
    AnswersLater strobe (delayed 2) ∧ log (coreAnswer (delayed 2)) 3 = [⟨2, true, false, 0⟩] ∧
      log (busAnswer strobe (delayed 2)) 3 = [] :=
  ⟨delayed_answersLater Nat.two_pos, by decide, by decide⟩

end IbexWb.Wb2core
