import IbexWb.Rtl.Core2wb
import IbexWb.Synchronous.Events

/-! # The outstanding requests of `core2wb`

`core` and `wb` are what the core and the slave drive in each cycle.  The counter is the number
of requests in flight modulo its width, as long as every answer is an `ack` and none is ignored
(`counts_eq`).  Two things can separate the two: an `err`, which the counter does not see, and
more requests in flight than the signed counter can show as a positive number.
-/

namespace IbexWb.Core2wb

open IbexWb.Synchronous

variable (pending : Nat) (core : Nat → CoreMaster) (wb : Nat → WbSlave)

/-! ## A run -/

def accepted (cycle : Nat) : Bool := (core cycle).req && !(wb cycle).stall

def acked (cycle : Nat) : Bool := (wb cycle).ack

def answered (cycle : Nat) : Bool := (wb cycle).ack || (wb cycle).err

def counts (cycle : Nat) : Counts pending :=
  (machine pending).run 0 (fun cycle => (core cycle, wb cycle)) cycle

def port (cycle : Nat) : WbMaster := Core2wb.wb (counts pending core wb cycle) (core cycle)

def seen (cycle : Nat) : CoreSlave :=
  Core2wb.core (counts pending core wb cycle) (core cycle) (wb cycle)

/-- `accepted` is the handshake of the bus, and that of the core. -/
theorem accepted_eq (cycle : Nat) :
    accepted core wb cycle = ((port pending core wb cycle).strobes && !(wb cycle).stall) ∧
      accepted core wb cycle = ((core cycle).req && (seen pending core wb cycle).gnt) := by
  constructor
  · rw [port, wb_strobes, accepted]
  · simp [accepted, seen, Core2wb.core]

theorem counts_succ (cycle : Nat) :
    counts pending core wb (cycle + 1) + BitVec.ofNat _ ((port pending core wb cycle).cyc &&
        (wb cycle).ack).toNat =
      counts pending core wb cycle + BitVec.ofNat _ (accepted core wb cycle).toNat :=
  next_balance (counts pending core wb cycle) (core cycle) (wb cycle)

theorem port_cyc {cycle number : Nat}
    (shown : (counts pending core wb cycle).toInt = number) :
    (port pending core wb cycle).cyc = true ↔ (core cycle).req = true ∨ 0 < number := by
  rw [port, wb_cyc, cyc_eq_true, shown, Int.natCast_pos]

/-- As long as each answer is an `ack` and the requests in flight fit, the counter holds them. -/
theorem counts_eq (answer : Nat → Bool) (causal : Causal (accepted core wb) answer) (last : Nat)
    (fits : ∀ cycle, cycle < last →
      inFlight (accepted core wb) answer cycle < 2 ^ Nat.clog 2 pending)
    (acks : ∀ cycle, cycle < last → answer cycle = (wb cycle).ack) :
    ∀ cycle, cycle ≤ last →
      counts pending core wb cycle = BitVec.ofNat _ (inFlight (accepted core wb) answer cycle) := by
  intro cycle
  induction cycle with
  | zero =>
    intro _
    simp [counts, inFlight]
  | succ cycle inductionHypothesis =>
    intro bound
    have before := inductionHypothesis (Nat.le_of_succ_le bound)
    have shown : (counts pending core wb cycle).toInt = _ :=
      before ▸ toInt_ofNat (fits cycle bound)
    -- an answer needs a request in flight, for which the converter holds the bus
    have taken : ((port pending core wb cycle).cyc && (wb cycle).ack) = answer cycle := by
      rw [acks cycle bound, Bool.eq_iff_iff, Bool.and_eq_true]
      refine and_iff_right_of_imp fun ack => (port_cyc pending core wb shown).mpr (Or.inr ?_)
      exact causal.inFlight_pos (by rw [acks cycle bound, ack])
    have balance := counts_succ pending core wb cycle
    rw [taken, before, ← BitVec.ofNat_add, ← causal.inFlight_succ cycle, BitVec.ofNat_add] at balance
    exact (BitVec.add_left_inj _).mp balance

/-! ## Answers of either kind -/

/-- The slave answers a request once, in a later cycle, with `ack` or with `err`, and fewer
requests are in flight than the counter can show. -/
structure AnswersEach : Prop where
  causal : Causal (accepted core wb) (answered wb)
  exclusive : ∀ cycle, ((wb cycle).ack && (wb cycle).err) = false
  capacity : ∀ cycle, inFlight (accepted core wb) (answered wb) cycle < 2 ^ Nat.clog 2 pending

/-- The counter accounts for `ack` and `err` alike. -/
structure Accounts (cycle : Nat) : Prop where
  counts : (counts pending core wb cycle).toInt = inFlight (accepted core wb) (answered wb) cycle
  cyc : (port pending core wb cycle).cyc = true ↔
    (core cycle).req = true ∨ 0 < inFlight (accepted core wb) (answered wb) cycle
  idle : inFlight (accepted core wb) (answered wb) cycle = 0 → (core cycle).req = false →
    Core2wb.counts pending core wb cycle = 0 ∧ (port pending core wb cycle).cyc = false
  rvalid : (seen pending core wb cycle).rvalid = answered wb cycle

variable {pending core wb}

theorem accounts_of_counts (causal : Causal (accepted core wb) (answered wb)) {cycle : Nat}
    (shown : (counts pending core wb cycle).toInt =
      inFlight (accepted core wb) (answered wb) cycle) :
    Accounts pending core wb cycle := by
  have held := port_cyc pending core wb shown
  refine ⟨shown, held, fun settled idle => ⟨?_, ?_⟩, ?_⟩
  · rw [settled] at shown
    exact BitVec.eq_of_toInt_eq (by simpa using shown)
  · rw [Bool.eq_false_iff, ne_eq, held, settled, idle]
    simp
  · rw [Bool.eq_iff_iff]
    show ((port pending core wb cycle).cyc && answered wb cycle) = true ↔ _
    rw [Bool.and_eq_true]
    exact and_iff_right_of_imp fun answer => held.mpr (Or.inr (causal.inFlight_pos answer))

/-- The counter misses an `err`: it shows one request more from the next cycle on. -/
theorem not_accounts_of_err (slave : AnswersEach pending core wb) {cycle : Nat}
    (erroneous : (wb cycle).err = true) (before : Accounts pending core wb cycle)
    (after : Accounts pending core wb (cycle + 1)) : False := by
  have noAck : (wb cycle).ack = false := by
    simpa [erroneous] using slave.exclusive cycle
  have answer : answered wb cycle = true := by simp [answered, erroneous]
  have balance := counts_succ pending core wb cycle
  have flight := slave.causal.inFlight_succ cycle
  have fits := slave.capacity (cycle + 1)
  rw [eq_ofNat_of_toInt before.counts, eq_ofNat_of_toInt after.counts, noAck, Bool.and_false,
    Bool.toNat_false, ← BitVec.ofNat_add, ← BitVec.ofNat_add, ← flight, answer] at balance
  -- without the answer the balance is off by one, and there is room for both numbers
  have clash := congrArg BitVec.toNat balance
  simp only [BitVec.toNat_ofNat, Bool.toNat_true, Nat.add_zero, Nat.pow_succ] at clash
  rw [Nat.mod_eq_of_lt (by omega), Nat.mod_eq_of_lt (by omega)] at clash
  omega

/-- The converter accounts for every answer up to `last` exactly when none before it is an `err`. -/
theorem accounts_iff (slave : AnswersEach pending core wb) (last : Nat) :
    (∀ cycle, cycle ≤ last → Accounts pending core wb cycle) ↔
      ∀ cycle, cycle < last → (wb cycle).err = false := by
  constructor
  · intro accounts cycle bound
    rw [Bool.eq_false_iff]
    intro erroneous
    exact not_accounts_of_err slave erroneous (accounts cycle (by omega)) (accounts (cycle + 1) bound)
  · intro correct cycle bound
    have counted := counts_eq pending core wb (answered wb) slave.causal last
      (fun cycle _ => slave.capacity cycle)
      (fun cycle bound => by simp [answered, correct cycle bound]) cycle bound
    exact accounts_of_counts slave.causal (counted ▸ toInt_ofNat (slave.capacity cycle))

/-- One read of a slow slave: requested in cycles 1 to 3, stalled in 1 and 2, answered in 5. -/
def slowRead (cycle : Nat) : CoreMaster :=
  { CoreMaster.idle with req := decide (1 ≤ cycle) && decide (cycle ≤ 3) }

def slowSlave (cycle : Nat) : WbSlave :=
  { WbSlave.idle with
    stall := decide (cycle = 1) || decide (cycle = 2)
    ack := decide (cycle = 5) }

def failingSlave (cycle : Nat) : WbSlave :=
  { slowSlave cycle with ack := false, err := decide (cycle = 5) }

theorem slow_accepted_le (cycle : Nat) : occurrences (accepted slowRead slowSlave) cycle ≤ 4 := by
  apply occurrences_le
  intro later bound
  have quiet : ¬ later ≤ 3 := by omega
  simp [accepted, slowRead, quiet]

theorem slow_causal : Causal (accepted slowRead slowSlave) (fun cycle => decide (cycle = 5)) := by
  intro cycle answer
  obtain rfl : cycle = 5 := by simpa using answer
  decide

theorem slowSlave_answers : AnswersEach defaultPending slowRead slowSlave := by
  have answers : answered slowSlave = fun cycle => decide (cycle = 5) := by
    funext cycle
    simp [answered, slowSlave, WbSlave.idle]
  refine ⟨answers ▸ slow_causal, fun cycle => by simp [slowSlave, WbSlave.idle], fun cycle => ?_⟩
  exact lt_of_le_of_lt ((Nat.sub_le _ _).trans (slow_accepted_le cycle)) (by decide)

theorem failingSlave_answers : AnswersEach defaultPending slowRead failingSlave := by
  have answers : answered failingSlave = fun cycle => decide (cycle = 5) := by
    funext cycle
    simp [answered, failingSlave]
  refine ⟨answers ▸ slow_causal, fun cycle => by simp [failingSlave], fun cycle => ?_⟩
  exact lt_of_le_of_lt ((Nat.sub_le _ _).trans (slow_accepted_le cycle)) (by decide)

theorem accounts_iff_slow : Accounts defaultPending slowRead slowSlave 6 :=
  (accounts_iff slowSlave_answers 6).mpr (fun _ _ => rfl) 6 le_rfl

/-- After the error the counter stays at 1 with nothing in flight. -/
theorem failingSlave_unaccounted :
    AnswersEach defaultPending slowRead failingSlave ∧
      ¬ Accounts defaultPending slowRead failingSlave 6 :=
  ⟨failingSlave_answers, fun accounts => absurd accounts.counts (by decide)⟩

/-! ## As many requests as the parameter names -/

variable (pending core wb)

/-- The slave answers each request once, in a later cycle and with `ack`, and at most `pending`
requests are in flight. -/
structure AcksEach : Prop where
  noErr : ∀ cycle, (wb cycle).err = false
  causal : Causal (accepted core wb) (acked wb)
  limit : ∀ cycle, inFlight (accepted core wb) (acked wb) cycle ≤ pending

/-- The converter supports the requests in flight: the counter is their number, the bus is held
for each of them until its `ack`, and the answers reach the core in order. -/
structure Supports (cycle : Nat) : Prop where
  counts : (counts pending core wb cycle).toInt = inFlight (accepted core wb) (acked wb) cycle
  held : ∀ earlier, earlier ≤ cycle → accepted core wb earlier = true →
    occurrences (acked wb) cycle ≤ occurrences (accepted core wb) earlier →
      (port pending core wb cycle).cyc = true
  rvalid : (seen pending core wb cycle).rvalid = acked wb cycle
  rdata : (seen pending core wb cycle).rdata = (wb cycle).datS
  inOrder : (seen pending core wb cycle).rvalid = true → ∃ earlier, earlier < cycle ∧
    (core earlier).req = true ∧ (seen pending core wb earlier).gnt = true ∧
    occurrences (fun cycle => (core cycle).req && (seen pending core wb cycle).gnt) earlier =
      occurrences (fun cycle => (seen pending core wb cycle).rvalid) cycle

variable {pending core wb}

theorem supports_of_counts (slave : AcksEach pending core wb) (cycle : Nat)
    (shown : ∀ earlier, earlier ≤ cycle → (counts pending core wb earlier).toInt =
      inFlight (accepted core wb) (acked wb) earlier) :
    Supports pending core wb cycle := by
  have cyc (earlier : Nat) (ordered : earlier ≤ cycle) :=
    port_cyc pending core wb (shown earlier ordered)
  have rvalid (earlier : Nat) (ordered : earlier ≤ cycle) :
      (seen pending core wb earlier).rvalid = acked wb earlier := by
    rw [Bool.eq_iff_iff]
    show ((port pending core wb earlier).cyc && ((wb earlier).ack || (wb earlier).err)) = true ↔ _
    rw [slave.noErr earlier, Bool.or_false, Bool.and_eq_true]
    exact and_iff_right_of_imp fun ack =>
      (cyc earlier ordered).mpr (Or.inr (slave.causal.inFlight_pos ack))
  have granted : accepted core wb = fun cycle => (core cycle).req && (seen pending core wb cycle).gnt :=
    funext fun cycle => (accepted_eq pending core wb cycle).2
  refine ⟨shown cycle le_rfl, ?_, rvalid cycle le_rfl, rfl, ?_⟩
  · intro earlier ordered taken waiting
    rw [cyc cycle le_rfl]
    -- in its own cycle the request itself holds the bus
    rcases Nat.eq_or_lt_of_le ordered with rfl | ordered
    · simp only [accepted, Bool.and_eq_true] at taken
      exact Or.inl taken.1
    · exact Or.inr (Causal.inFlight_pos_of_unanswered ordered taken waiting)
  · intro answer
    rw [rvalid cycle le_rfl] at answer
    obtain ⟨earlier, ordered, taken, number⟩ := slave.causal.exists_request cycle answer
    have answers : occurrences (acked wb) cycle =
        occurrences (fun cycle => (seen pending core wb cycle).rvalid) cycle :=
      occurrences_congr cycle fun earlier ordered => (rvalid earlier (le_of_lt ordered)).symm
    rw [answers, granted] at number
    rw [(accepted_eq pending core wb earlier).2, Bool.and_eq_true] at taken
    exact ⟨earlier, ordered, taken.1, taken.2, number⟩

theorem supports_of_fits (slave : AcksEach pending core wb) (last : Nat)
    (fits : ∀ cycle, cycle ≤ last →
      inFlight (accepted core wb) (acked wb) cycle < 2 ^ Nat.clog 2 pending) :
    ∀ cycle, cycle ≤ last → Supports pending core wb cycle := by
  intro cycle bound
  have counted := counts_eq pending core wb (acked wb) slave.causal last
    (fun cycle bound => fits cycle (le_of_lt bound)) (fun _ _ => rfl)
  refine supports_of_counts slave cycle fun earlier ordered => ?_
  rw [counted earlier (ordered.trans bound)]
  exact toInt_ofNat (fits earlier (ordered.trans bound))

theorem fits_of_supports {cycle : Nat} (supports : Supports pending core wb cycle) :
    inFlight (accepted core wb) (acked wb) cycle < 2 ^ Nat.clog 2 pending := by
  have range := counts_lt (counts pending core wb cycle)
  rw [supports.counts] at range
  exact_mod_cast range

/-- Up to `last` the converter supports the requests in flight exactly when the counter can show
their number, that is while fewer than `2 ^ $clog2(pending)` are in flight. -/
theorem supports_iff (slave : AcksEach pending core wb) (last : Nat) :
    (∀ cycle, cycle ≤ last → Supports pending core wb cycle) ↔
      ∀ cycle, cycle ≤ last →
        inFlight (accepted core wb) (acked wb) cycle < 2 ^ Nat.clog 2 pending :=
  ⟨fun supports cycle bound => fits_of_supports (supports cycle bound), supports_of_fits slave last⟩

theorem supports_iff_slow : Supports defaultPending slowRead slowSlave 6 := by
  have acks : acked slowSlave = answered slowSlave := by
    funext cycle
    simp [acked, answered, slowSlave, WbSlave.idle]
  have slave : AcksEach defaultPending slowRead slowSlave :=
    ⟨fun _ => rfl, acks ▸ slowSlave_answers.causal,
      fun cycle => acks ▸ le_of_lt (slowSlave_answers.capacity cycle)⟩
  exact (supports_iff slave 6).mpr (fun cycle _ => acks ▸ slowSlave_answers.capacity cycle) 6 le_rfl

/-! ## Which parameters leave room -/

def burst (count cycle : Nat) : CoreMaster := { CoreMaster.idle with req := decide (cycle < count) }

/-- The slave acknowledges as many requests from cycle `count` on. -/
def lateSlave (count cycle : Nat) : WbSlave :=
  { WbSlave.idle with ack := decide (count ≤ cycle) && decide (cycle < 2 * count) }

theorem occurrences_burst (count cycle : Nat) :
    occurrences (accepted (burst count) (lateSlave count)) cycle = min cycle count := by
  have requests : accepted (burst count) (lateSlave count) =
      fun cycle => decide (0 ≤ cycle) && decide (cycle < count) := by
    funext cycle
    simp [accepted, burst, lateSlave, WbSlave.idle]
  rw [requests, occurrences_interval, Nat.sub_zero]

theorem occurrences_late (count cycle : Nat) :
    occurrences (acked (lateSlave count)) cycle = min cycle (2 * count) - count :=
  occurrences_interval count (2 * count) cycle

theorem burst_inFlight (count cycle : Nat) :
    inFlight (accepted (burst count) (lateSlave count)) (acked (lateSlave count)) cycle =
      min cycle count - (min cycle (2 * count) - count) := by
  rw [inFlight, occurrences_burst, occurrences_late]

theorem burst_acksEach : AcksEach pending (burst pending) (lateSlave pending) where
  noErr := fun _ => rfl
  causal := by
    intro cycle answer
    have inside : pending ≤ cycle ∧ cycle < 2 * pending := by
      simpa [acked, lateSlave] using answer
    rw [occurrences_burst, occurrences_late]
    omega
  limit := fun cycle => (burst_inFlight pending cycle).trans_le (by omega)

/-- `pending` requests in flight fit the counter unless `pending` is a power of two. -/
theorem supports_pending_iff (positive : 0 < pending) :
    (∀ core wb, AcksEach pending core wb → ∀ cycle, Supports pending core wb cycle) ↔
      ¬ ∃ exponent, pending = 2 ^ exponent := by
  constructor
  · rintro supports ⟨exponent, rfl⟩
    -- a burst of `pending` requests reaches the sign bit
    have full := fits_of_supports (supports _ _ burst_acksEach (2 ^ exponent))
    rw [burst_inFlight, Nat.clog_pow 2 exponent Nat.one_lt_two] at full
    omega
  · intro notPower core wb slave cycle
    have room : pending < 2 ^ Nat.clog 2 pending :=
      lt_of_le_of_ne (Nat.le_pow_clog Nat.one_lt_two pending) fun equal => notPower ⟨_, equal⟩
    exact supports_of_fits slave cycle
      (fun earlier _ => lt_of_le_of_lt (slave.limit earlier) room) cycle le_rfl

/-- The default parameter: the sixteenth request in flight turns the counter to -16, so the first
`ack` finds `cyc` low. -/
theorem burst_unsupported :
    AcksEach defaultPending (burst defaultPending) (lateSlave defaultPending) ∧
      ¬ Supports defaultPending (burst defaultPending) (lateSlave defaultPending) 16 :=
  ⟨burst_acksEach, fun supports => absurd supports.counts (by decide)⟩

end IbexWb.Core2wb
