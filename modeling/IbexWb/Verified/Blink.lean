import IbexWb.Sw.Led
import IbexWb.Synchronous.Events
import IbexWb.Verified.SocDevice

/-! # The counter of `led.c` on the SoC

`main` runs on one port of `ibex_soc` with the shared bus.  The other ports do what they like, as
long as they leave the counter alone, and the core takes any time between two accesses.  The LED
port then shows how many increments were granted, modulo 16.  Each return of `usleep` is followed by
one of them, and if `usleep` always returns and masters of higher priority pause again and again,
there is no end of them.
-/

namespace IbexWb.Led

open IbexWb.Synchronous SharedBus
open IbexSoc (map params seen reference)
open Core2wb (defaultPending)
open RamLed (wordAddress Device)

theorem var_ledBase : wordAddress var = map.ledBase.toNat := by decide

theorem not_covers_ram : ¬ map.params.Covers 0 var := by decide

theorem mapped_var : map.params.Mapped var := ⟨1, by decide⟩

section Run

variable {numm : Nat} (ram : Spramx32.State IbexSoc.ramSize.toNat)
  (input : Nat → System.Input numm 3) (port : Fin numm) (reaches : Nat → Bool)

/-- Where `main` is in each cycle of the run. -/
def mainAt : Nat → Main
  | 0 => Main.start
  | cycle + 1 => (mainAt cycle).next (reaches cycle) (seen ram input cycle port)

/-- The increments granted before `cycle`. -/
abbrev increments (cycle : Nat) : Nat :=
  occurrences (fun cycle => (mainAt ram input port reaches cycle).increments
    (seen ram input cycle port)) cycle

/-- The returns of `usleep` before `cycle`. -/
abbrev returns (cycle : Nat) : Nat :=
  occurrences (fun cycle => (mainAt ram input port reaches cycle).returns (reaches cycle)
    (seen ram input cycle port)) cycle

/-- No master of higher priority requests. -/
def Quiet (cycle : Nat) : Prop := ∀ i, i < port → ((input cycle).core i).req = false

/-- The port executes `main`, the other ports do not write the counter, and the requests lie in the
regions of the SoC. -/
structure Drives : Prop where
  main : ∀ cycle, (input cycle).core port = (mainAt ram input port reaches cycle).core
  others : ∀ cycle i, i ≠ port → (seen ram input cycle i).gnt = true →
    ((input cycle).core i).we = true → wordAddress ((input cycle).core i).addr ≠ wordAddress var
  mapped : ∀ cycle i, (seen ram input cycle i).gnt = true →
    params.Mapped ((input cycle).core i).addr

variable {ram input port reaches}

namespace Drives

variable (drives : Drives ram input port reaches)
include drives

theorem decodes (cycle : Nat) (i : Fin numm) (granted : (seen ram input cycle i).gnt = true) :
    System.decoded params ((input cycle).core i).addr = true := by
  obtain ⟨j, covers⟩ := drives.mapped cycle i granted
  exact decide_eq_true ⟨j, IbexSoc.ss_iff.mpr covers⟩

theorem rvalid_succ (cycle : Nat) (i : Fin numm) :
    (seen ram input (cycle + 1) i).rvalid = (seen ram input cycle i).gnt :=
  System.seen_rvalid_succ _ _ _ _ (by decide) cycle
    (fun earlier _ => drives.decodes earlier) i

/-- What is granted to `main` is the access that it requests. -/
theorem requesting_of_gnt {cycle : Nat} (granted : (seen ram input cycle port).gnt = true) :
    (mainAt ram input port reaches cycle).phase = .requesting := by
  rw [System.seen_gnt] at granted
  have requested := (System.granted_eq_true.mp granted).2
  rw [drives.main cycle, Main.core] at requested
  cases phase : (mainAt ram input port reaches cycle).phase with
  | requesting => rfl
  | working | waiting => simp [phase, CoreMaster.idle] at requested

/-- The other ports leave the counter alone. -/
theorem led_of_others {cycle : Nat} (refused : (seen ram input cycle port).gnt = false) :
    (reference ram input (cycle + 1)).led = (reference ram input cycle).led := by
  by_cases busy : ∃ i, (seen ram input cycle i).gnt = true
  · obtain ⟨i, granted⟩ := busy
    have other : i ≠ port := by
      rintro rfl
      exact absurd granted (Bool.eq_false_iff.mp refused)
    rw [IbexSoc.reference_of_granted granted]
    cases writes : ((input cycle).core i).we with
    | false => rw [Device.exec_of_read _ writes]
    | true =>
      have apart := drives.others cycle i other granted writes
      rw [var_ledBase] at apart
      simp only [Device.exec, writes, if_true, if_neg apart]
      split <;> rfl
  · have idle : ∀ i, (seen ram input cycle i).gnt = false := by simpa using busy
    rw [IbexSoc.reference_of_idle idle]

end Drives

/-! ## Safety -/

/-- The LED port shows the increments, and what `main` has read of it is still there. -/
structure Counted (ram : Spramx32.State IbexSoc.ramSize.toNat)
    (input : Nat → System.Input numm 3) (port : Fin numm) (reaches : Nat → Bool) (cycle : Nat) :
    Prop where
  led : (reference ram input cycle).led = BitVec.ofNat 4 (increments ram input port reaches cycle)
  answered : (mainAt ram input port reaches cycle).phase = .waiting →
    (seen ram input cycle port).rvalid = true
  cleared : (mainAt ram input port reaches cycle).access = .clear →
    increments ram input port reaches cycle = 0
  loaded : (mainAt ram input port reaches cycle).access = .load →
    (mainAt ram input port reaches cycle).phase = .waiting →
      (seen ram input cycle port).rdata = (reference ram input cycle).led.setWidth 32
  stored : ∀ value, (mainAt ram input port reaches cycle).access = .store value →
    (mainAt ram input port reaches cycle).phase ≠ .waiting →
      value.setWidth 4 = (reference ram input cycle).led

theorem counted_start : Counted ram input port reaches 0 where
  led := rfl
  answered := nofun
  cleared _ := rfl
  loaded := nofun
  stored := nofun

section Step

variable {cycle : Nat}

theorem increments_succ : increments ram input port reaches (cycle + 1) =
    increments ram input port reaches cycle +
      ((mainAt ram input port reaches cycle).increments (seen ram input cycle port)).toNat :=
  occurrences_succ _ _

theorem increments_of_refused (refused : (seen ram input cycle port).gnt = false) :
    increments ram input port reaches (cycle + 1) = increments ram input port reaches cycle := by
  have none : (mainAt ram input port reaches cycle).increments (seen ram input cycle port) =
      false := by
    rw [Main.increments]
    split
    · rw [refused, Bool.and_false]
    · rfl
  rw [increments_succ, none]
  rfl

/-- Nothing is granted to `main`: it goes on if it has waited for an answer or executed other
instructions. -/
theorem Counted.next_of_refused (counted : Counted ram input port reaches cycle)
    (drives : Drives ram input port reaches) (refused : (seen ram input cycle port).gnt = false) :
    Counted ram input port reaches (cycle + 1) := by
  obtain ⟨led, answered, cleared, loaded, stored⟩ := counted
  have same := drives.led_of_others refused
  have count : increments ram input port reaches (cycle + 1) =
      increments ram input port reaches cycle := increments_of_refused refused
  have following : mainAt ram input port reaches (cycle + 1) =
      (mainAt ram input port reaches cycle).next (reaches cycle) (seen ram input cycle port) := rfl
  rw [← count, ← same] at led
  rw [← count] at cleared
  -- `main` is taken apart, so what is known of it is stated for any access
  rw [← same] at loaded stored
  generalize mainAt ram input port reaches cycle = main at *
  obtain ⟨access, phase⟩ := main
  have resumed : (if reaches cycle then Phase.requesting else .working) ≠ .waiting := by
    cases reaches cycle <;> simp
  cases phase with
  | working =>
    rw [Main.next_of_working] at following
    constructor
    · exact led
    · simp [following, resumed]
    · exact following ▸ cleared
    · simp [following, resumed]
    · intro value stays _
      exact stored value (by rwa [following] at stays) (by simp)
  | requesting =>
    rw [Main.next_of_requesting, refused] at following
    constructor
    · exact led
    · simp [following]
    · exact following ▸ cleared
    · simp [following]
    · exact following ▸ stored
  | waiting =>
    rw [Main.next_of_answer _ (answered rfl)] at following
    constructor
    · exact led
    · simp [following, resumed]
    · cases access <;> simp [following, Access.after]
    · simp [following, resumed]
    · intro value stays _
      cases access with
      | load =>
        -- the answer is the counter as the LED port shows it
        rw [following] at stays
        obtain rfl := Access.store.inj stays
        rw [loaded rfl rfl, BitVec.setWidth_setWidth_of_le _ (by decide), BitVec.setWidth_eq]
      | clear | store _ => simp [following, Access.after] at stays

/-- The access of `main` is granted. -/
theorem Counted.next_of_granted (counted : Counted ram input port reaches cycle)
    (drives : Drives ram input port reaches) (granted : (seen ram input cycle port).gnt = true) :
    Counted ram input port reaches (cycle + 1) := by
  obtain ⟨led, _, cleared, _, stored⟩ := counted
  have requesting := drives.requesting_of_gnt granted
  have answered := (drives.rvalid_succ cycle port).trans granted
  have executed := IbexSoc.reference_of_granted granted
  have rdata := IbexSoc.rdata_of_granted granted
  have presented := drives.main cycle
  have counts : increments ram input port reaches (cycle + 1) = _ := increments_succ
  have following : mainAt ram input port reaches (cycle + 1) =
      (mainAt ram input port reaches cycle).next (reaches cycle) (seen ram input cycle port) := rfl
  generalize mainAt ram input port reaches cycle = main at *
  generalize (input cycle).core port = core at *
  obtain ⟨access, phase⟩ := main
  obtain rfl : phase = .requesting := requesting
  rw [Main.next_of_requesting, granted, if_pos rfl] at following
  obtain rfl : core = access.core := presented
  cases access with
  | clear =>
    have count : increments ram input port reaches (cycle + 1) = 0 := counts.trans (cleared rfl)
    constructor
    · rw [executed, count]
      rfl
    · exact fun _ => answered
    · exact fun _ => count
    · simp [following]
    · simp [following]
  | load =>
    -- a read leaves the device alone
    rw [Device.exec_of_read _ rfl] at executed
    constructor
    · rw [executed, led]
      exact congrArg _ counts.symm
    · exact fun _ => answered
    · simp [following]
    · intro _ _
      have read := rdata rfl mapped_var
      rw [Access.core, Device.read, if_neg not_covers_ram] at read
      rw [read, executed]
    · simp [following]
  | store value =>
    have count : increments ram input port reaches (cycle + 1) =
        increments ram input port reaches cycle + 1 := by
      rw [counts, Main.increments, granted]
      rfl
    have written : (reference ram input (cycle + 1)).led = (value + 1).setWidth 4 := by
      rw [executed, Access.core, Device.exec, if_pos rfl, if_neg not_covers_ram,
        if_pos var_ledBase]
    constructor
    · -- what was read is still there
      rw [written, BitVec.setWidth_add _ _ (by decide), stored value rfl (by simp), led, count,
        BitVec.ofNat_add]
      rfl
    · exact fun _ => answered
    · simp [following]
    · simp [following]
    · simp [following]

theorem counted (drives : Drives ram input port reaches) (cycle : Nat) :
    Counted ram input port reaches cycle := by
  induction cycle with
  | zero => exact counted_start
  | succ cycle inductionHypothesis =>
    cases granted : (seen ram input cycle port).gnt with
    | true => exact inductionHypothesis.next_of_granted drives granted
    | false => exact inductionHypothesis.next_of_refused drives granted

end Step

theorem returns_eq (cycle : Nat) : returns ram input port reaches cycle =
    increments ram input port reaches cycle +
      (mainAt ram input port reaches cycle).underway.toNat := by
  induction cycle with
  | zero => rfl
  | succ cycle inductionHypothesis =>
    have step := (mainAt ram input port reaches cycle).underway_next (reaches cycle)
      (seen ram input cycle port)
    rw [returns, occurrences_succ, increments_succ, mainAt]
    rw [returns] at inductionHypothesis
    omega

/-! ## Progress -/

section Progress

variable (drives : Drives ram input port reaches)
include drives

/-- Without requests of higher priority an access of `main` is granted at once. -/
theorem Drives.gnt_of_quiet {cycle : Nat} (quiet : Quiet input port cycle)
    (quietNext : Quiet input port (cycle + 1))
    (requested : ((input (cycle + 1)).core port).req = true) :
    (seen ram input (cycle + 1) port).gnt = true := by
  -- a port of higher priority that neither requests nor waits for its answer does not block
  have settled := System.reached_settled params (IbexSoc.slaves ram) input defaultPending
    (by decide) (cycle + 1) (fun earlier _ => drives.decodes earlier) (cycle + 1) le_rfl
  rw [System.seen_gnt]
  refine (settled.granted_iff (by decide) (System.timingInput params (input (cycle + 1))) port).mpr
    ⟨requested, fun lower below => ⟨quietNext lower below, ?_⟩⟩
  rw [System.grantedBefore, System.seen_gnt, ← Bool.not_eq_true]
  intro granted
  exact absurd (System.granted_eq_true.mp granted).2 (Bool.eq_false_iff.mp (quiet lower below))

variable (resumes : ∀ start, ∃ cycle, start ≤ cycle ∧ reaches cycle = true)
  (pauses : ∀ start, ∃ cycle, start ≤ cycle ∧ Quiet input port cycle ∧
    Quiet input port (cycle + 1))

omit drives in
include resumes in
/-- The core comes to its next access. -/
theorem exists_requesting {start : Nat} {access : Access}
    (here : mainAt ram input port reaches start = ⟨access, .working⟩) :
    ∃ cycle, start ≤ cycle ∧ mainAt ram input port reaches cycle = ⟨access, .requesting⟩ := by
  obtain ⟨cycle, later, working, reached⟩ : ∃ cycle, start ≤ cycle ∧
      mainAt ram input port reaches cycle = ⟨access, .working⟩ ∧ reaches cycle = true := by
    refine exists_event here (fun cycle _ working still => ?_) ?_
    · rw [mainAt, working, Main.next_of_working, if_neg still]
    · exact (resumes start).imp fun cycle reached => ⟨reached.1, fun _ => reached.2⟩
  refine ⟨cycle + 1, Nat.le_succ_of_le later, ?_⟩
  rw [mainAt, working, Main.next_of_working, if_pos reached]

include pauses in
/-- What the core requests is granted. -/
theorem Drives.exists_granted {start : Nat} {access : Access}
    (here : mainAt ram input port reaches start = ⟨access, .requesting⟩) :
    ∃ cycle, start ≤ cycle ∧ mainAt ram input port reaches cycle = ⟨access, .requesting⟩ ∧
      (seen ram input cycle port).gnt = true := by
  refine exists_event here (fun cycle _ requesting refused => ?_) ?_
  · rw [mainAt, requesting, Main.next_of_requesting, if_neg refused]
  · obtain ⟨cycle, later, quiet, quietNext⟩ := pauses start
    refine ⟨cycle + 1, Nat.le_succ_of_le later, fun requesting => ?_⟩
    refine drives.gnt_of_quiet quiet quietNext ?_
    rw [drives.main, requesting]
    exact access.core_req

include resumes pauses in
/-- Each access is made, and the core goes on to the one behind it. -/
theorem Drives.exists_access {start : Nat}
    (free : (mainAt ram input port reaches start).phase ≠ .waiting) :
    ∃ cycle, start ≤ cycle ∧
      mainAt ram input port reaches cycle =
        ⟨(mainAt ram input port reaches start).access, .requesting⟩ ∧
      (seen ram input cycle port).gnt = true ∧
      (mainAt ram input port reaches (cycle + 2)).access =
        (mainAt ram input port reaches start).access.after (seen ram input (cycle + 1) port).rdata ∧
      (mainAt ram input port reaches (cycle + 2)).phase ≠ .waiting := by
  obtain ⟨middle, first, requesting⟩ : ∃ middle, start ≤ middle ∧
      mainAt ram input port reaches middle =
        ⟨(mainAt ram input port reaches start).access, .requesting⟩ := by
    generalize here : mainAt ram input port reaches start = main at free
    obtain ⟨access, phase⟩ := main
    cases phase with
    | working => exact exists_requesting resumes here
    | requesting => exact ⟨start, le_rfl, here⟩
    | waiting => exact absurd rfl free
  obtain ⟨cycle, second, still, granted⟩ := drives.exists_granted pauses requesting
  have waits : mainAt ram input port reaches (cycle + 1) =
      ⟨(mainAt ram input port reaches start).access, .waiting⟩ := by
    rw [mainAt, still, Main.next_of_requesting, granted, if_pos rfl]
  have answered := (drives.rvalid_succ cycle port).trans granted
  refine ⟨cycle, first.trans second, still, granted, ?_⟩
  rw [mainAt, waits, Main.next_of_answer _ answered]
  refine ⟨rfl, ?_⟩
  cases reaches (cycle + 1) <;> simp

include resumes pauses in
/-- A read and the write behind it. -/
theorem Drives.exists_increment {start : Nat}
    (load : (mainAt ram input port reaches start).access = .load)
    (free : (mainAt ram input port reaches start).phase ≠ .waiting) :
    ∃ cycle, increments ram input port reaches start < increments ram input port reaches cycle ∧
      (mainAt ram input port reaches cycle).access = .load ∧
      (mainAt ram input port reaches cycle).phase ≠ .waiting := by
  obtain ⟨read, first, _, _, after, freeAgain⟩ := drives.exists_access resumes pauses free
  rw [load] at after
  obtain ⟨write, second, requesting, granted, last, freeLast⟩ :=
    drives.exists_access resumes pauses freeAgain
  rw [after] at requesting last
  refine ⟨write + 2, ?_, last, freeLast⟩
  have counts : increments ram input port reaches (write + 1) =
      increments ram input port reaches write + 1 := by
    rw [increments_succ, requesting, Main.increments, granted]
    rfl
  have before : increments ram input port reaches start ≤
      increments ram input port reaches write := occurrences_mono _ (by omega)
  have behind : increments ram input port reaches (write + 1) ≤
      increments ram input port reaches (write + 2) := occurrences_mono _ (Nat.le_succ _)
  omega

include resumes pauses in
theorem Drives.exists_increments (count : Nat) :
    ∃ cycle, count ≤ increments ram input port reaches cycle ∧
      (mainAt ram input port reaches cycle).access = .load ∧
      (mainAt ram input port reaches cycle).phase ≠ .waiting := by
  induction count with
  | zero =>
    have begun : (mainAt ram input port reaches 0).phase ≠ .waiting := by
      simp [mainAt, Main.start]
    obtain ⟨cycle, _, _, _, after, free⟩ := drives.exists_access resumes pauses begun
    exact ⟨cycle + 2, Nat.zero_le _, after, free⟩
  | succ count inductionHypothesis =>
    obtain ⟨start, counted, load, free⟩ := inductionHypothesis
    obtain ⟨cycle, more, again⟩ := drives.exists_increment resumes pauses load free
    exact ⟨cycle, Nat.lt_of_le_of_lt counted more, again⟩

end Progress

/-- What the LED port shows and how `main` gets on. -/
structure Blinks (ram : Spramx32.State IbexSoc.ramSize.toNat)
    (input : Nat → System.Input numm 3) (port : Fin numm) (reaches : Nat → Bool) : Prop where
  shows : ∀ cycle, ∃ ack, (IbexSoc.reached ram input cycle).slaves 2 =
    .led 4 ⟨BitVec.ofNat 4 (increments ram input port reaches cycle), ack⟩
  returns : ∀ cycle, returns ram input port reaches cycle =
    increments ram input port reaches cycle +
      (mainAt ram input port reaches cycle).underway.toNat
  prompt : ∀ cycle, ((input (cycle + 1)).core port).req = true → Quiet input port cycle →
    Quiet input port (cycle + 1) →
      (seen ram input (cycle + 1) port).gnt = true ∧
        (seen ram input (cycle + 2) port).rvalid = true
  forever : (∀ start, ∃ cycle, start ≤ cycle ∧ reaches cycle = true) →
    (∀ start, ∃ cycle, start ≤ cycle ∧ Quiet input port cycle ∧ Quiet input port (cycle + 1)) →
      ∀ count, ∃ cycle, increments ram input port reaches cycle = count

end Run

/-! ## `main` alone on the bus -/

section Alone

variable {numm : Nat} (port : Fin numm)

def alone (main : Main) : System.Input numm 3 :=
  ⟨fun i => if i = port then main.core else .idle, fun _ => 0⟩

/-- The core comes to its next access in every third cycle. -/
def thirdCycles (cycle : Nat) : Bool := decide (cycle % 3 = 0)

/-- The registers of the SoC and the place of `main`. -/
def closed : Nat → System.State defaultPending numm 3 × Main
  | 0 => (System.State.reset (IbexSoc.slaves .cleared), Main.start)
  | cycle + 1 =>
    let (state, main) := closed cycle
    (System.next params state (alone port main),
      main.next (thirdCycles cycle) (System.core params state (alone port main) port))

def aloneAt (cycle : Nat) : System.Input numm 3 := alone port (closed port cycle).2

theorem reached_aloneAt (cycle : Nat) :
    IbexSoc.reached .cleared (aloneAt port) cycle = (closed port cycle).1 := by
  induction cycle with
  | zero => rfl
  | succ cycle inductionHypothesis =>
    show System.next params (IbexSoc.reached .cleared (aloneAt port) cycle) (aloneAt port cycle) = _
    rw [inductionHypothesis]
    rfl

theorem mainAt_aloneAt (cycle : Nat) :
    mainAt .cleared (aloneAt port) port thirdCycles cycle = (closed port cycle).2 := by
  induction cycle with
  | zero => rfl
  | succ cycle inductionHypothesis =>
    have sees : seen .cleared (aloneAt port) cycle port =
        System.core params (closed port cycle).1 (aloneAt port cycle) port := by
      rw [← reached_aloneAt]
      rfl
    rw [mainAt, inductionHypothesis, sees]
    rfl

theorem mapped_zero : params.Mapped 0 := ⟨1, by decide⟩

theorem mapped_core (main : Main) : params.Mapped main.core.addr := by
  obtain ⟨access, phase⟩ := main
  cases phase with
  | working | waiting => exact mapped_zero
  | requesting => cases access <;> exact ⟨2, (by decide : params.Covers 2 var)⟩

theorem drives_aloneAt : Drives .cleared (aloneAt port) port thirdCycles where
  main cycle := by
    rw [mainAt_aloneAt]
    exact if_pos rfl
  others cycle i other _ writes := by
    have idle : (aloneAt port cycle).core i = .idle := if_neg other
    rw [idle] at writes
    exact absurd writes nofun
  mapped cycle i _ := by
    show params.Mapped (if i = port then _ else _ : CoreMaster).addr
    split
    · exact mapped_core _
    · exact mapped_zero

theorem quiet_aloneAt (cycle : Nat) : Quiet (aloneAt port) port cycle := fun _ below =>
  congrArg CoreMaster.req (if_neg (Fin.ne_of_lt below))

end Alone

end IbexWb.Led
