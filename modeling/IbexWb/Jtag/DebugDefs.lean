import IbexWb.Jtag.Driver

/-! # The transactions of the debug simulation

`transaction.hpp` has a class for each register, with its length, and `debug_defs.hpp` the fields
of the registers.  `seq` is the queue that `main` fills.
-/

namespace IbexWb.Jtag

/-! ## `debug_defs.hpp` -/

namespace Instr

def IDCODE : BitVec 8 := 0x01
def DTMCS : BitVec 8 := 0x10
def DMI : BitVec 8 := 0x11

end Instr

/-- `dmi_t` -/
structure Dmi where
  op : BitVec 2
  data : BitVec 32
  address : BitVec 7
deriving DecidableEq, Repr

def Dmi.reg (dmi : Dmi) : BitVec 64 := (dmi.address ++ dmi.data ++ dmi.op).setWidth 64

/-- The fields as the other side finds them. -/
def Dmi.bits (reg : BitVec 64) : Dmi where
  op := reg.extractLsb' 0 2
  data := reg.extractLsb' 2 32
  address := reg.extractLsb' 34 7

theorem Dmi.bits_reg (dmi : Dmi) : Dmi.bits dmi.reg = dmi := by
  obtain ⟨op, data, address⟩ := dmi
  have packed (place : Nat) : (Dmi.reg ⟨op, data, address⟩).getLsbD place =
      if place < 2 then op.getLsbD place else if place < 34 then data.getLsbD (place - 2)
      else address.getLsbD (place - 34) := by
    rw [Dmi.reg, BitVec.getLsbD_setWidth, BitVec.getLsbD_append, BitVec.getLsbD_append]
    grind
  have field {width : Nat} (first : Nat) (value : BitVec width)
      (found : ∀ place, place < width →
        (Dmi.reg ⟨op, data, address⟩).getLsbD (first + place) = value.getLsbD place) :
      (Dmi.reg ⟨op, data, address⟩).extractLsb' first width = value := by
    apply BitVec.eq_of_getLsbD_eq
    intro place inside
    rw [BitVec.getLsbD_extractLsb', decide_eq_true inside, Bool.true_and, found place inside]
  rw [Dmi.bits, field 0 op, field 2 data, field 34 address]
  all_goals
    intro place inside
    rw [packed]
    grind

/-- The fields of `dmcontrol_t` that `main` sets. -/
structure Dmcontrol where
  dmactive : BitVec 1
  haltreq : BitVec 1
deriving DecidableEq, Repr

def Dmcontrol.reg (dmcontrol : Dmcontrol) : BitVec 32 :=
  dmcontrol.haltreq ++ (0 : BitVec 30) ++ dmcontrol.dmactive

/-- `command_t` -/
structure Command where
  control : BitVec 24
  cmdtype : BitVec 8
deriving DecidableEq, Repr

def Command.reg (command : Command) : BitVec 32 := command.cmdtype ++ command.control

def DTM_NOP : BitVec 2 := 0
def DTM_READ : BitVec 2 := 1
def DTM_WRITE : BitVec 2 := 2

def DATA0 : BitVec 7 := 0x04
def DMCONTROL : BitVec 7 := 0x10
def DMSTATUS : BitVec 7 := 0x11
def COMMAND : BitVec 7 := 0x17

def DCSR : BitVec 24 := 0x7b0

/-! ## `transaction.hpp` -/

/-- What `SEQINSTR`, `SEQIDCODE`, `SEQDTMCS` and `SEQDMI` push. -/
inductive Item where
  | instr (value : BitVec 8)
  | idcode (data : BitVec 32)
  | dtmcs (data : BitVec 32)
  | dmi (data : BitVec 64)
deriving DecidableEq, Repr

def Item.transaction : Item → Transaction
  | instr value => ⟨.ir, value.setWidth 64, 5⟩
  | idcode data => ⟨.dr, data.setWidth 64, 32⟩
  | dtmcs data => ⟨.dr, data.setWidth 64, 32⟩
  | dmi data => ⟨.dr, data, 41⟩

/-! ## `main` -/

def seq : List Item :=
  let dmcontrol : Dmcontrol := ⟨1, 0⟩
  let halting := { dmcontrol with haltreq := 1 }
  let command : Command := ⟨(1 : BitVec 24) <<< 17 ||| DCSR, 0⟩
  [.instr Instr.IDCODE, .idcode 0, .instr Instr.DMI,
    .dmi (Dmi.reg ⟨DTM_READ, 0, DMSTATUS⟩), .dmi 0,
    .dmi (Dmi.reg ⟨DTM_WRITE, dmcontrol.reg, DMCONTROL⟩),
    .dmi (Dmi.reg ⟨DTM_WRITE, halting.reg, DMCONTROL⟩),
    .dmi (Dmi.reg ⟨DTM_WRITE, command.reg, COMMAND⟩),
    .dmi (Dmi.reg ⟨DTM_READ, command.reg, DATA0⟩), .dmi 0]

end IbexWb.Jtag
