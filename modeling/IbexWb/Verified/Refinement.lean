import IbexWb.Verified.GrantLaw
import IbexWb.Verified.SequentialDevice

/-! # The RAM and LED system refines the sequential device

`Coupled` relates the registers of the slaves to the state of the sequential device.  One cycle
of the system performs the granted request, if there is one, and the read data of the next cycle
is what the device reads in between.  From the run of the coupling and the grant law the cores
see the device execute the granted requests in the order of their grants.
-/

namespace IbexWb.RamLed

open IbexWb.Synchronous SharedBus Memory
open IbexWb.System (granted granted_eq_true decoded)
open Core2wb (defaultPending)

variable {map : RamLed} {N pending numm : Nat}

/-- The slaves hold the state of the device, whatever they owe the bus. -/
structure Coupled (map : RamLed) (state : System.State pending numm 2) (device : Device N) : Prop where
  ram : ∃ q ack, state.slaves 0 = .spramx32 map.ramSize ⟨⟨device.words map, q⟩, ack⟩
  led : ∃ ack, state.slaves 1 = .led N ⟨device.led, ack⟩

namespace Coupled

variable {state : System.State pending numm 2} {input : System.Input numm 2} {device : Device N}
  {i : Fin numm}

/-! ## One cycle -/

theorem ram_of_granted (coupled : Coupled map state device)
    (taken : granted state input i = true) (covers : map.params.Covers 0 (input.core i).addr) :
    (System.next map.params state input).slaves 0 = .spramx32 map.ramSize
      ⟨⟨(device.exec map (input.core i)).words map,
        word device.memory (wordAddress (input.core i).addr)⟩, true⟩ := by
  obtain ⟨q, ack, slave⟩ := coupled.ram
  have strobe : (System.wbm state input i).strobes = true :=
    (Core2wb.wb_strobes _ _).trans (granted_eq_true.mp taken).2
  rw [System.next_slaves_of_granted map.params taken (map.ss_ram.mpr covers), slave, Slave.next,
    WbSpramx32.next_of_strobe _ strobe]
  congr 2
  exact spramx32_next device q (state.counts i) covers

theorem ram_of_unselected (coupled : Coupled map state device)
    (idle : (System.wbs map.params state input 0).strobes = false) :
    ∃ q ack, (System.next map.params state input).slaves 0 =
      .spramx32 map.ramSize ⟨⟨device.words map, q⟩, ack⟩ := by
  obtain ⟨q, ack, slave⟩ := coupled.ram
  refine ⟨q, false, ?_⟩
  show (state.slaves 0).next _ _ = _
  rw [slave, Slave.next, WbSpramx32.next_of_idle _ idle]

theorem led_of_granted (coupled : Coupled map state device)
    (taken : granted state input i = true)
    (selected : ss map.params (input.core i).addr 1 = true) :
    (System.next map.params state input).slaves 1 =
      .led N ⟨(device.exec map (input.core i)).led, true⟩ := by
  obtain ⟨ack, slave⟩ := coupled.led
  have strobe : (System.wbm state input i).strobes = true :=
    (Core2wb.wb_strobes _ _).trans (granted_eq_true.mp taken).2
  rw [System.next_slaves_of_granted map.params taken selected, slave, Slave.next,
    WbLed.next_of_strobe _ strobe]
  congr 2
  exact exec_led device (state.counts i) (Params.covers_of_ss selected)

theorem led_of_unselected (coupled : Coupled map state device)
    (idle : (System.wbs map.params state input 1).strobes = false) :
    ∃ ack, (System.next map.params state input).slaves 1 = .led N ⟨device.led, ack⟩ := by
  obtain ⟨ack, slave⟩ := coupled.led
  refine ⟨false, ?_⟩
  show (state.slaves 1).next _ _ = _
  rw [slave, Slave.next, WbLed.next_of_idle _ idle]

theorem idle_of_granted (taken : granted state input i = true) {j k : Fin 2}
    (selected : ss map.params (input.core i).addr j = true) (other : k ≠ j) :
    (System.wbs map.params state input k).strobes = false := by
  rw [← Bool.not_eq_true, System.wbs_strobes]
  intro strobed
  obtain ⟨owner, owns, otherSelected⟩ := strobed
  obtain rfl := System.granted_unique owns taken
  exact other ((map.disjoint.ss_oneHot selected k).mp otherSelected)

/-- A cycle with a granted request performs it. -/
theorem next_of_granted (coupled : Coupled map state device) (taken : granted state input i = true)
    (decodes : decoded map.params (input.core i).addr = true) :
    Coupled map (System.next map.params state input) (device.exec map (input.core i)) := by
  obtain ⟨j, selected⟩ := of_decide_eq_true decodes
  have covers := Params.covers_of_ss selected
  -- the other slave is not strobed, and the request does not concern it
  match j with
  | 0 =>
    have idle := coupled.led_of_unselected (idle_of_granted taken selected (by decide))
    rw [← device.exec_led_of_ram covers] at idle
    exact ⟨⟨_, _, coupled.ram_of_granted taken covers⟩, idle⟩
  | 1 =>
    have idle := coupled.ram_of_unselected (idle_of_granted taken selected (by decide))
    rw [← device.exec_words_of_led covers] at idle
    exact ⟨idle, ⟨_, coupled.led_of_granted taken selected⟩⟩

theorem next_of_idle (coupled : Coupled map state device)
    (none : ∀ i, granted state input i = false) :
    Coupled map (System.next map.params state input) device := by
  have idle (j : Fin 2) : (System.wbs map.params state input j).strobes = false := by
    rw [← Bool.not_eq_true, System.wbs_strobes]
    intro strobed
    obtain ⟨owner, owns, _⟩ := strobed
    simp [none owner] at owns
  exact ⟨coupled.ram_of_unselected (idle 0), coupled.led_of_unselected (idle 1)⟩

/-- In the next cycle the core gets the data that the device read before performing it. -/
theorem rdata_of_read (coupled : Coupled map state device) (taken : granted state input i = true)
    (decodes : decoded map.params (input.core i).addr = true) (reads : (input.core i).we = false)
    (later : System.Input numm 2) :
    (System.core map.params (System.next map.params state input) later i).rdata =
      device.read map (input.core i).addr := by
  obtain ⟨j, selected⟩ := of_decide_eq_true decodes
  have covers := Params.covers_of_ss selected
  show (System.routed map.params (System.next map.params state input) later i).datS = _
  rw [System.routed_datS_next map.params taken (map.disjoint.ss_oneHot selected)]
  match j with
  | 0 =>
    rw [System.answer, coupled.ram_of_granted taken covers, Device.read, if_pos covers]
    rfl
  | 1 =>
    have other : ¬ map.params.Covers 0 (input.core i).addr := fun ram =>
      map.not_covers_both ram covers
    -- the port drives its register as it is now, which a read leaves alone
    rw [System.answer, coupled.led_of_granted taken selected, device.exec_of_read reads, Device.read,
      if_neg other]
    rfl

end Coupled

/-! ## Runs -/

section Run

variable (map : RamLed) (N : Nat) (ram : Spramx32.State map.ramSize)
  (input : Nat → System.Input numm 2)

abbrev seen (cycle : Nat) : Fin numm → CoreSlave :=
  System.seen map.params (map.slaves N ram) input defaultPending cycle

abbrev reached (cycle : Nat) : System.State defaultPending numm 2 :=
  System.reached map.params (map.slaves N ram) input defaultPending cycle

/-- The state of the device after the requests granted before `cycle`. -/
def reference (cycle : Nat) : Device N :=
  (System.grantLog map.params (map.slaves N ram) input defaultPending cycle).foldl
    (Device.exec map) (Device.initial map N ram)

/-- The run looks like the device executing the granted requests one at a time. -/
structure Refines : Prop where
  single : ∀ cycle i j, (seen map N ram input cycle i).gnt = true →
    (seen map N ram input cycle j).gnt = true → i = j
  initial : ∀ i, (seen map N ram input 0 i).rvalid = false
  rvalid : ∀ cycle i, (seen map N ram input (cycle + 1) i).rvalid = (seen map N ram input cycle i).gnt
  err : ∀ cycle i, (seen map N ram input cycle i).err = false
  rdata : ∀ cycle i, (seen map N ram input cycle i).gnt = true → ((input cycle).core i).we = false →
    (seen map N ram input (cycle + 1) i).rdata =
      (reference map N ram input cycle).read map ((input cycle).core i).addr
  state : ∀ cycle, Coupled map (reached map N ram input cycle) (reference map N ram input cycle)

variable {map N ram input}

theorem coupled_reset :
    Coupled map (System.State.reset (map.slaves N ram) : System.State pending numm 2)
      (Device.initial map N ram) := by
  constructor
  · refine ⟨ram.q, false, ?_⟩
    rw [Device.words_initial]
    rfl
  · exact ⟨false, rfl⟩

theorem reference_of_granted {cycle : Nat} {i : Fin numm}
    (taken : (seen map N ram input cycle i).gnt = true) :
    reference map N ram input (cycle + 1) =
      (reference map N ram input cycle).exec map ((input cycle).core i) := by
  rw [reference, System.grantLog_of_granted _ _ _ _ taken, List.foldl_append]
  rfl

theorem reference_of_idle {cycle : Nat} (idle : ∀ i, (seen map N ram input cycle i).gnt = false) :
    reference map N ram input (cycle + 1) = reference map N ram input cycle := by
  rw [reference, System.grantLog_of_idle _ _ _ _ idle, reference]

theorem coupled_reached
    (decodes : ∀ cycle i, (seen map N ram input cycle i).gnt = true →
      decoded map.params ((input cycle).core i).addr = true) (cycle : Nat) :
    Coupled map (reached map N ram input cycle) (reference map N ram input cycle) := by
  refine (System.machine defaultPending numm map.params).run_invariant _ _
    (fun cycle state => Coupled map state (reference map N ram input cycle)) cycle coupled_reset ?_
    cycle le_rfl
  intro cycle _ coupled
  by_cases busy : ∃ i, (seen map N ram input cycle i).gnt = true
  · obtain ⟨i, taken⟩ := busy
    rw [reference_of_granted taken]
    have decode := decodes cycle i taken
    rw [System.seen_gnt] at taken
    exact coupled.next_of_granted taken decode
  · have idle : ∀ i, (seen map N ram input cycle i).gnt = false := by simpa using busy
    rw [reference_of_idle idle]
    exact coupled.next_of_idle fun i => (System.seen_gnt _ _ _ _ _ i).symm.trans (idle i)

theorem refines_of_decodes
    (decodes : ∀ cycle i, (seen map N ram input cycle i).gnt = true →
      decoded map.params ((input cycle).core i).addr = true) : Refines map N ram input where
  single := fun _ _ _ => System.seen_gnt_unique _ _ _ _
  initial := by
    intro i
    rw [System.seen_rvalid]
    exact Bool.and_false _
  rvalid := fun cycle => System.seen_rvalid_succ _ _ _ _ (by decide) cycle fun earlier _ =>
    decodes earlier
  err := System.seen_err _ _ _ _
  rdata := by
    intro cycle i taken reads
    have decode := decodes cycle i taken
    rw [System.seen_gnt] at taken
    exact (coupled_reached decodes cycle).rdata_of_read taken decode reads (input (cycle + 1))
  state := coupled_reached decodes

end Run

/-- In every run whose granted requests all lie in the two regions, the system refines the
sequential device exactly if the region of the LED port ends below the top of the address space or
no request for it is granted. -/
theorem refines_iff (map : RamLed) (N : Nat) (ram : Spramx32.State map.ramSize)
    (input : Nat → System.Input numm 2)
    (mapped : ∀ cycle i, (seen map N ram input cycle i).gnt = true →
      map.params.Mapped ((input cycle).core i).addr) :
    Refines map N ram input ↔
      ∀ cycle i, granted (reached map N ram input cycle) (input cycle) i = true →
        map.params.Covers 1 ((input cycle).core i).addr → map.ledBase.toNat + 4096 < 2 ^ 32 := by
  simp only [← System.seen_gnt]
  constructor
  · intro refines cycle i taken covers
    have decode := System.decoded_of_rvalid map.params (map.slaves N ram) input defaultPending
      ((refines.rvalid cycle i).trans taken)
    obtain ⟨j, selected⟩ := of_decide_eq_true decode
    obtain rfl := map.disjoint j 1 _ (Params.covers_of_ss selected) covers
    exact ((ss_eq_true map.params).mp selected).2
  · intro below
    apply refines_of_decodes
    intro cycle i taken
    obtain ⟨j, covers⟩ := mapped cycle i taken
    apply decide_eq_true
    refine ⟨j, (ss_eq_true map.params).mpr ⟨covers, ?_⟩⟩
    match j with
    | 0 => exact map.limit_ram ▸ map.ramBelow
    | 1 => exact below cycle i taken covers

/-! ## Two runs -/

def smallMap : RamLed where
  ramBase := 0
  ramSize := 8
  ledBase := 0x1000
  whole := by decide
  least := by decide
  ramAligned := by decide
  ramBelow := by decide
  ledAligned := by decide
  apart := by decide

/-- The same with the LED port in the last 4 KiB of the address space. -/
def topMap : RamLed where
  ramBase := 0
  ramSize := 8
  ledBase := 0xFFFFF000
  whole := by decide
  least := by decide
  ramAligned := by decide
  ramBelow := by decide
  ledAligned := by decide
  apart := by decide

def readsLed (map : RamLed) (_ : Nat) : System.Input 2 2 :=
  ⟨fun _ => { CoreMaster.idle with req := true, addr := map.ledBase }, fun _ => 0⟩

theorem mapped_readsLed (map : RamLed) (cycle : Nat) (i : Fin 2) :
    map.params.Mapped ((readsLed map cycle).core i).addr :=
  ⟨1, map.covers_led.mpr ⟨le_rfl, Nat.lt_add_of_pos_right (by decide)⟩⟩

/-- Both masters write a word of the RAM and read that of the other one, and then the LED port. -/
def mixedAccesses (cycle : Nat) : System.Input 2 2 :=
  match cycle with
  | 0 => ⟨![⟨true, true, 0b0110, 0, 0x11223344⟩, .idle], fun _ => 0⟩
  | 2 => ⟨![.idle, ⟨true, true, 0b1111, 4, 0x55667788⟩], fun _ => 0⟩
  | 4 => ⟨![⟨true, false, 0b1111, 4, 0⟩, ⟨true, false, 0b1111, 0, 0⟩], fun _ => 0⟩
  | 5 => ⟨![.idle, ⟨true, false, 0b1111, 0, 0⟩], fun _ => 0⟩
  | 6 => ⟨![.idle, ⟨true, false, 0b1111, 0, 0⟩], fun _ => 0⟩
  | 8 => ⟨![⟨true, true, 0b1111, 0x1000, 5⟩, .idle], fun _ => 0⟩
  | 10 => ⟨![.idle, ⟨true, false, 0b1111, 0x1000, 0⟩], fun _ => 0⟩
  | _ => ⟨fun _ => .idle, fun _ => 0⟩

theorem mapped_mixedAccesses (cycle : Nat) (i : Fin 2) :
    smallMap.params.Mapped ((mixedAccesses cycle).core i).addr := by
  rw [mixedAccesses.eq_def]
  split <;> revert i <;> decide

theorem refines_iff_smallMap : Refines smallMap 4 .cleared mixedAccesses ∧
    (seen smallMap 4 .cleared mixedAccesses 5 0).rdata = 0x55667788 ∧
    (seen smallMap 4 .cleared mixedAccesses 7 1).rdata = 0x00223300 := by
  have refines := (refines_iff smallMap 4 .cleared mixedAccesses
    fun cycle i _ => mapped_mixedAccesses cycle i).mpr fun _ _ _ _ => by decide
  have first : (seen smallMap 4 .cleared mixedAccesses 4 0).gnt = true := by
    rw [System.seen_gnt]
    decide
  have second : (seen smallMap 4 .cleared mixedAccesses 6 1).gnt = true := by
    rw [System.seen_gnt]
    decide
  refine ⟨refines, (refines.rdata 4 0 first rfl).trans ?_, (refines.rdata 6 1 second rfl).trans ?_⟩
  · decide
  · decide

/-- The decoder does not select a LED port whose region ends at the top of the address space. -/
theorem topMap_unanswered :
    (∀ cycle i, (seen topMap 4 .cleared (readsLed topMap) cycle i).gnt = true →
      topMap.params.Mapped ((readsLed topMap cycle).core i).addr) ∧
      ¬ Refines topMap 4 .cleared (readsLed topMap) := by
  refine ⟨fun cycle i _ => mapped_readsLed topMap cycle i, fun refines => ?_⟩
  have granted : (seen topMap 4 .cleared (readsLed topMap) 0 0).gnt = true := by
    rw [System.seen_gnt]
    decide
  have decode := System.decoded_of_rvalid topMap.params (topMap.slaves 4 .cleared) (readsLed topMap)
    defaultPending ((refines.rvalid 0 0).trans granted)
  exact absurd decode (by decide)

end IbexWb.RamLed
