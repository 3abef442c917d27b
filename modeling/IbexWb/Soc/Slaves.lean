import IbexWb.Rtl.Wb2core
import Mathlib.Data.Nat.Log

/-! # The slaves of the SoC: `wb_spramx32`, `wb_led` and the port of `wb_dm_top`

None of the three ever stalls or reports an error.  What a slave owes the bus is one bit, read
by `Slave.pending`: the registered `ack` of the RAM and the LED port, the flag `resp` of the
converter in front of the debug module.  The converter gates its `ack` by the shared `cyc`.
-/

namespace IbexWb

/-! ## Single port 32 bit RAM -/

namespace Spramx32

-- `localparam addr_width = $clog2(size) - 2`
abbrev addrWidth (size : Nat) : Nat := Nat.clog 2 size - 2

structure State (size : Nat) where
  mem : Fin (size >>> 2) → Dat
  q : Dat

variable {size : Nat}

def State.cleared : State size := ⟨fun _ => 0, 0⟩

-- one of the four conditional byte assignments
def lane (we : BitVec 4) (d word : Dat) (byte : Nat) : BitVec 8 :=
  if we.getLsbD byte then d.extractLsb' (8 * byte) 8 else word.extractLsb' (8 * byte) 8

def write (we : BitVec 4) (d word : Dat) : Dat :=
  lane we d word 3 ++ lane we d word 2 ++ lane we d word 1 ++ lane we d word 0

/-- An address behind the last word reads as `x`, for which the model takes 0. -/
def read (mem : Fin (size >>> 2) → Dat) (addr : BitVec (addrWidth size)) : Dat :=
  if inside : addr.toNat < size >>> 2 then mem ⟨addr.toNat, inside⟩ else 0

def next (state : State size) (addr : BitVec (addrWidth size)) (ce : Bool) (we : BitVec 4)
    (d : Dat) : State size where
  mem := fun word =>
    if ce && decide (addr.toNat = word) then write we d (state.mem word) else state.mem word
  -- a write loads the word as it was before
  q := if ce then read state.mem addr else state.q

end Spramx32

namespace WbSpramx32

open Spramx32 (addrWidth)

structure State (size : Nat) where
  ram : Spramx32.State size
  ack : Bool

variable {size : Nat}

-- `ram_addr = wb.adr[addr_width+1:2]`
def ramAddr (size : Nat) (wb : WbMaster) : BitVec (addrWidth size) :=
  wb.adr.extractLsb' 2 (addrWidth size)

-- `ram_we = {4{wb.we}} & wb.sel`
def ramWe (wb : WbMaster) : BitVec 4 := (if wb.we then BitVec.allOnes 4 else 0) &&& wb.sel

def out (state : State size) : WbSlave where
  ack := state.ack
  err := false
  stall := false
  datS := state.ram.q

def next (state : State size) (wb : WbMaster) : State size :=
  let valid := wb.cyc && wb.stb
  { ram := Spramx32.next state.ram (ramAddr size wb) valid (ramWe wb) wb.datM
    ack := valid && !(out state).stall }

theorem next_of_strobe (state : State size) {wb : WbMaster} (strobe : wb.strobes = true) :
    next state wb =
      ⟨Spramx32.next state.ram (ramAddr size wb) true (ramWe wb) wb.datM, true⟩ := by
  rw [WbMaster.strobes] at strobe
  simp [next, out, strobe]

theorem next_of_idle (state : State size) {wb : WbMaster} (idle : wb.strobes = false) :
    next state wb = ⟨state.ram, false⟩ := by
  rw [WbMaster.strobes] at idle
  simp [next, Spramx32.next, idle]

end WbSpramx32

/-! ## LED driver (only word access) -/

namespace WbLed

structure State (N : Nat) where
  led : BitVec N
  ack : Bool

variable {N : Nat}

def select (wb : WbMaster) : Bool := decide (wb.adr.extractLsb' 2 10 = 0)

def out (state : State N) : WbSlave where
  ack := state.ack
  err := false
  stall := false
  datS := state.led.setWidth 32

def next (state : State N) (wb : WbMaster) : State N :=
  let valid := wb.cyc && wb.stb
  { led := if valid && wb.we && select wb then wb.datM.setWidth N else state.led
    ack := valid && !(out state).stall }

theorem next_of_strobe (state : State N) {wb : WbMaster} (strobe : wb.strobes = true) :
    next state wb =
      ⟨if wb.we && select wb then wb.datM.setWidth N else state.led, true⟩ := by
  rw [WbMaster.strobes] at strobe
  simp [next, out, strobe]

theorem next_of_idle (state : State N) {wb : WbMaster} (idle : wb.strobes = false) :
    next state wb = ⟨state.led, false⟩ := by
  rw [WbMaster.strobes] at idle
  simp [next, idle]

end WbLed

/-! ## Slave port of the debug module -/

namespace WbDmTop

/-- `slave_core` as `wb_dm_top` ties it off; only `rdata` comes from the debug module. -/
def slaveCore (rdata : Dat) : CoreSlave where
  gnt := true
  rvalid := true
  rdata := rdata
  err := false

def out (resp : Bool) (rdata : Dat) (wb : WbMaster) : WbSlave :=
  Wb2core.wb resp wb (slaveCore rdata)

def next (resp : Bool) (rdata : Dat) (wb : WbMaster) : Bool :=
  Wb2core.next resp wb (slaveCore rdata)

end WbDmTop

/-! ## A slave of either kind -/

inductive Slave where
  | spramx32 (size : Nat) (state : WbSpramx32.State size)
  | led (N : Nat) (state : WbLed.State N)
  | dm (resp : Bool)

namespace Slave

/-- The signals driven to the bus; `rdata` is what the debug module reads. -/
def out (slave : Slave) (rdata : Dat) (wb : WbMaster) : WbSlave :=
  match slave with
  | spramx32 _ state => WbSpramx32.out state
  | led _ state => WbLed.out state
  | dm resp => WbDmTop.out resp rdata wb

def next (slave : Slave) (rdata : Dat) (wb : WbMaster) : Slave :=
  match slave with
  | spramx32 size state => spramx32 size (WbSpramx32.next state wb)
  | led N state => led N (WbLed.next state wb)
  | dm resp => dm (WbDmTop.next resp rdata wb)

/-- The register behind the slave's `ack`. -/
def pending : Slave → Bool
  | spramx32 _ state => state.ack
  | led _ state => state.ack
  | dm resp => resp

variable (slave : Slave) (rdata : Dat) (wb : WbMaster)

@[simp] theorem out_stall : (slave.out rdata wb).stall = false := by
  cases slave <;> rfl

@[simp] theorem out_err : (slave.out rdata wb).err = false := by
  cases slave with
  | spramx32 _ _ => rfl
  | led _ _ => rfl
  | dm resp => simp [out, WbDmTop.out, Wb2core.wb, WbDmTop.slaveCore]

theorem out_ack (held : wb.cyc = true) : (slave.out rdata wb).ack = slave.pending := by
  cases slave with
  | spramx32 _ _ => rfl
  | led _ _ => rfl
  | dm resp => simp [out, pending, WbDmTop.out, Wb2core.wb, WbDmTop.slaveCore, held]

/-- A slave owes an answer after exactly those cycles that strobe it. -/
@[simp] theorem next_pending : (slave.next rdata wb).pending = wb.strobes := by
  cases slave with
  | spramx32 _ _ => simp [next, pending, WbSpramx32.next, WbSpramx32.out, WbMaster.strobes]
  | led _ _ => simp [next, pending, WbLed.next, WbLed.out, WbMaster.strobes]
  | dm resp =>
    simp [next, pending, WbDmTop.next, Wb2core.next, Wb2core.wb, WbDmTop.slaveCore,
      WbMaster.strobes]

end Slave

end IbexWb
