import IbexWb.Soc.IbexSoc
import IbexWb.Verified.GrantLaw
import IbexWb.Verified.SequentialDevice

/-! # `ibex_soc` with the shared bus and the sequential device

`ibex_soc` has a debug module besides the RAM and the LED port.  `map` are the two regions of its
address map that the sequential device knows.  The requests for the debug module and those that
nobody decodes leave its state alone, so the RAM and the LED port hold the state of the device in
every run.
-/

namespace IbexWb.IbexSoc

open IbexWb.Synchronous SharedBus Memory
open IbexWb.System (granted granted_eq_true)
open Core2wb (defaultPending)
open RamLed (wordAddress Device)

def map : RamLed where
  ramBase := ramBaseAddr
  ramSize := ramSize.toNat
  ledBase := ledBaseAddr
  whole := by decide
  least := by decide
  ramAligned := Nat.dvd_zero _
  ramBelow := by decide
  ledAligned := by decide
  apart := Or.inl (by decide)

theorem params_disjoint : params.Disjoint := by
  intro i j adr left right
  match i, j with
  | 0, 0 | 1, 1 | 2, 2 => rfl
  | 0, 1 | 0, 2 | 1, 0 | 1, 2 | 2, 0 | 2, 1 =>
    obtain ⟨leftAbove, leftBelow⟩ := left
    obtain ⟨rightAbove, rightBelow⟩ := right
    simp [params, Params.limit, dmBaseAddr, dmSize, ramBaseAddr, ramSize, ledBaseAddr, ledSize]
      at leftAbove leftBelow rightAbove rightBelow
    omega

theorem covers_ram {adr : Adr} : params.Covers 1 adr ↔ map.params.Covers 0 adr := Iff.rfl

theorem covers_led {adr : Adr} : params.Covers 2 adr ↔ map.params.Covers 1 adr := Iff.rfl

theorem ss_iff {adr : Adr} {j : Fin 3} : ss params adr j = true ↔ params.Covers j adr :=
  params_below.ss_iff

/-- A request outside the two regions does not concern the device. -/
theorem exec_elsewhere (device : Device 4) {access : CoreMaster}
    (ram : ¬ params.Covers 1 access.addr) (led : ¬ params.Covers 2 access.addr) :
    device.exec map access = device := by
  have other : wordAddress access.addr ≠ map.ledBase.toNat := by
    intro here
    refine led (map.covers_led.mpr ?_)
    rw [wordAddress] at here
    omega
  cases writes : access.we with
  | false => exact device.exec_of_read writes
  | true => simp [Device.exec, writes, if_neg other, mt covers_ram.mpr ram]

/-! ## One cycle -/

variable {pending numm : Nat}

/-- The slaves hold the state of the device, whatever they owe the bus. -/
structure Coupled (state : System.State pending numm 3) (device : Device 4) : Prop where
  ram : ∃ q ack, state.slaves 1 = .spramx32 map.ramSize ⟨⟨device.words map, q⟩, ack⟩
  led : ∃ ack, state.slaves 2 = .led 4 ⟨device.led, ack⟩

namespace Coupled

variable {state : System.State pending numm 3} {input : System.Input numm 3} {device : Device 4}
  {i : Fin numm}

theorem strobes_of_granted (taken : granted state input i = true) :
    (System.wbm state input i).strobes = true :=
  (Core2wb.wb_strobes _ _).trans (granted_eq_true.mp taken).2

theorem ram_of_granted (coupled : Coupled state device) (taken : granted state input i = true)
    (covers : params.Covers 1 (input.core i).addr) :
    (System.next params state input).slaves 1 = .spramx32 map.ramSize
      ⟨⟨(device.exec map (input.core i)).words map,
        word device.memory (wordAddress (input.core i).addr)⟩, true⟩ := by
  obtain ⟨q, ack, slave⟩ := coupled.ram
  rw [System.next_slaves_of_granted params taken (ss_iff.mpr covers), slave, Slave.next,
    WbSpramx32.next_of_strobe _ (strobes_of_granted taken)]
  congr 2
  exact RamLed.spramx32_next device q (state.counts i) (covers_ram.mp covers)

theorem led_of_granted (coupled : Coupled state device) (taken : granted state input i = true)
    (covers : params.Covers 2 (input.core i).addr) :
    (System.next params state input).slaves 2 =
      .led 4 ⟨(device.exec map (input.core i)).led, true⟩ := by
  obtain ⟨ack, slave⟩ := coupled.led
  rw [System.next_slaves_of_granted params taken (ss_iff.mpr covers), slave, Slave.next,
    WbLed.next_of_strobe _ (strobes_of_granted taken)]
  congr 2
  exact RamLed.exec_led device (state.counts i) (covers_led.mp covers)

theorem ram_of_unselected (coupled : Coupled state device)
    (idle : (System.wbs params state input 1).strobes = false) :
    ∃ q ack, (System.next params state input).slaves 1 =
      .spramx32 map.ramSize ⟨⟨device.words map, q⟩, ack⟩ := by
  obtain ⟨q, ack, slave⟩ := coupled.ram
  refine ⟨q, false, ?_⟩
  show (state.slaves 1).next _ _ = _
  rw [slave, Slave.next, WbSpramx32.next_of_idle _ idle]

theorem led_of_unselected (coupled : Coupled state device)
    (idle : (System.wbs params state input 2).strobes = false) :
    ∃ ack, (System.next params state input).slaves 2 = .led 4 ⟨device.led, ack⟩ := by
  obtain ⟨ack, slave⟩ := coupled.led
  refine ⟨false, ?_⟩
  show (state.slaves 2).next _ _ = _
  rw [slave, Slave.next, WbLed.next_of_idle _ idle]

/-- Only the slave that covers the granted request is strobed. -/
theorem idle_of_granted (taken : granted state input i = true) {j : Fin 3}
    (other : ¬ params.Covers j (input.core i).addr) :
    (System.wbs params state input j).strobes = false := by
  rw [← Bool.not_eq_true, System.wbs_strobes]
  rintro ⟨owner, owns, selected⟩
  obtain rfl := System.granted_unique owns taken
  exact other (ss_iff.mp selected)

theorem next_of_granted (coupled : Coupled state device) (taken : granted state input i = true) :
    Coupled (System.next params state input) (device.exec map (input.core i)) := by
  by_cases ram : params.Covers 1 (input.core i).addr
  · -- the slave that is not selected keeps its part of the state
    have led : ¬ params.Covers 2 (input.core i).addr := map.not_covers_both ram
    have same := device.exec_led_of_ram (covers_ram.mp ram)
    exact ⟨⟨_, _, coupled.ram_of_granted taken ram⟩,
      same ▸ coupled.led_of_unselected (idle_of_granted taken led)⟩
  · have idle := coupled.ram_of_unselected (idle_of_granted taken ram)
    by_cases led : params.Covers 2 (input.core i).addr
    · have same := device.exec_words_of_led (covers_led.mp led)
      exact ⟨same ▸ idle, ⟨_, coupled.led_of_granted taken led⟩⟩
    · rw [exec_elsewhere device ram led]
      exact ⟨idle, coupled.led_of_unselected (idle_of_granted taken led)⟩

theorem next_of_idle (coupled : Coupled state device)
    (none : ∀ i, granted state input i = false) :
    Coupled (System.next params state input) device := by
  have idle (j : Fin 3) : (System.wbs params state input j).strobes = false := by
    rw [← Bool.not_eq_true, System.wbs_strobes]
    rintro ⟨owner, owns, _⟩
    simp [none owner] at owns
  exact ⟨coupled.ram_of_unselected (idle 1), coupled.led_of_unselected (idle 2)⟩

/-- The core gets the data that the device read before performing the request. -/
theorem rdata_of_read (coupled : Coupled state device) (taken : granted state input i = true)
    (covers : map.params.Mapped (input.core i).addr) (reads : (input.core i).we = false)
    (later : System.Input numm 3) :
    (System.core params (System.next params state input) later i).rdata =
      device.read map (input.core i).addr := by
  show (System.routed params (System.next params state input) later i).datS = _
  obtain ⟨j, covers⟩ := covers
  match j with
  | 0 =>
    have selected := ss_iff.mpr (covers_ram.mpr covers)
    rw [System.routed_datS_next params taken (params_disjoint.ss_oneHot selected), System.answer,
      coupled.ram_of_granted taken covers, Device.read, if_pos covers]
    rfl
  | 1 =>
    have selected := ss_iff.mpr (covers_led.mpr covers)
    have other : ¬ map.params.Covers 0 (input.core i).addr := fun ram =>
      map.not_covers_both ram covers
    rw [System.routed_datS_next params taken (params_disjoint.ss_oneHot selected), System.answer,
      coupled.led_of_granted taken covers, device.exec_of_read reads, Device.read, if_neg other]
    rfl

end Coupled

/-! ## Runs -/

section Run

variable (ram : Spramx32.State ramSize.toNat) (input : Nat → System.Input numm 3)

abbrev seen (cycle : Nat) : Fin numm → CoreSlave :=
  System.seen params (slaves ram) input defaultPending cycle

abbrev reached (cycle : Nat) : System.State defaultPending numm 3 :=
  System.reached params (slaves ram) input defaultPending cycle

/-- The requests granted before `cycle`, in the order of their grants. -/
abbrev grants (cycle : Nat) : List CoreMaster :=
  System.grantLog params (slaves ram) input defaultPending cycle

/-- The state of the device after the requests granted before `cycle`. -/
def reference (cycle : Nat) : Device 4 :=
  (grants ram input cycle).foldl (Device.exec map) (Device.initial map 4 ram)

variable {ram input}

theorem reference_of_granted {cycle : Nat} {i : Fin numm}
    (taken : (seen ram input cycle i).gnt = true) :
    reference ram input (cycle + 1) =
      (reference ram input cycle).exec map ((input cycle).core i) := by
  rw [reference, grants, System.grantLog_of_granted _ _ _ _ taken, List.foldl_append]
  rfl

theorem reference_of_idle {cycle : Nat} (idle : ∀ i, (seen ram input cycle i).gnt = false) :
    reference ram input (cycle + 1) = reference ram input cycle := by
  rw [reference, grants, System.grantLog_of_idle _ _ _ _ idle, reference]

theorem coupled_reset :
    Coupled (System.State.reset (slaves ram) : System.State pending numm 3)
      (Device.initial map 4 ram) := by
  constructor
  · have words : ram.mem = (Device.initial map 4 ram).words map :=
      (Device.words_initial map ram).symm
    exact ⟨ram.q, false, congrArg (Slave.spramx32 ramSize.toNat ⟨⟨·, ram.q⟩, false⟩) words⟩
  · exact ⟨false, rfl⟩

theorem coupled_reached (cycle : Nat) :
    Coupled (reached ram input cycle) (reference ram input cycle) := by
  refine (System.machine defaultPending numm params).run_invariant _ _
    (fun cycle state => Coupled state (reference ram input cycle)) cycle coupled_reset ?_
    cycle le_rfl
  intro cycle _ coupled
  by_cases busy : ∃ i, (seen ram input cycle i).gnt = true
  · obtain ⟨i, taken⟩ := busy
    rw [reference_of_granted taken]
    rw [System.seen_gnt] at taken
    exact coupled.next_of_granted taken
  · have idle : ∀ i, (seen ram input cycle i).gnt = false := by simpa using busy
    rw [reference_of_idle idle]
    exact coupled.next_of_idle fun i => (System.seen_gnt _ _ _ _ _ i).symm.trans (idle i)

theorem rdata_of_granted {cycle : Nat} {i : Fin numm} (taken : (seen ram input cycle i).gnt = true)
    (reads : ((input cycle).core i).we = false)
    (covers : map.params.Mapped ((input cycle).core i).addr) :
    (seen ram input (cycle + 1) i).rdata =
      (reference ram input cycle).read map ((input cycle).core i).addr := by
  rw [System.seen_gnt] at taken
  exact (coupled_reached cycle).rdata_of_read taken covers reads (input (cycle + 1))

end Run

end IbexWb.IbexSoc
