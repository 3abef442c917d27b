import IbexWb.Rtl.Interfaces

/-! # `led.c`

`main` sets a counter at the address of the LED port to zero and increments it each time that
`usleep` returns.  On the data port of the core these are accesses to one word, one after another.
The core is not part of the repository, so the time between two accesses is left open.
-/

namespace IbexWb.Led

/-! ## The delay -/

/-- The instructions of the loop, on its one operand. -/
inductive Asm where
  | nop
  | addi (imm : BitVec 12)
  | bnez (target : Nat)
deriving DecidableEq, Repr

/-- As the comments of the loop have them. -/
def Asm.cycles : Asm → Nat
  | nop => 1
  | addi _ => 1
  | bnez _ => 3

structure Timed where
  pc : Nat
  loops : BitVec 32
  cycles : Nat
deriving DecidableEq, Repr

def Asm.execute (state : Timed) : Asm → Timed
  | nop => { state with pc := state.pc + 1, cycles := state.cycles + nop.cycles }
  | addi imm =>
    { pc := state.pc + 1, loops := state.loops + imm.signExtend 32,
      cycles := state.cycles + (addi imm).cycles }
  | bnez target =>
    { state with
      pc := if state.loops = 0 then state.pc + 1 else target
      cycles := state.cycles + (bnez target).cycles }

def delayLoopIbex : List Asm := [.nop, .nop, .nop, .nop, .addi (-1), .bnez 0]

def delayStep (state : Timed) : Option Timed :=
  delayLoopIbex[state.pc]?.map fun asm => asm.execute state

-- `#define CLK_FIXED_FREQ_HZ (50ULL * 1000 * 1000)`
def clkFixedFreqHz : BitVec 64 := 50 * 1000 * 1000

/-- The product is one of `unsigned long long`, the result is assigned to `unsigned long`. -/
def usecCycles (usec : BitVec 32) : BitVec 32 :=
  (clkFixedFreqHz * usec.setWidth 64 / 1000 / 1000 / 8).setWidth 32

/-- The loop as `usleep_ibex` enters it. -/
def usleepIbex (usec : BitVec 32) : Timed := ⟨0, usecCycles usec, 0⟩

/-! ## `main` -/

-- `volatile uint32_t *var = (volatile uint32_t *) 0x10000000`
def var : Adr := 0x10000000

/-- `*var = 0`, and the read and the write of `*var = *var + 1`. -/
inductive Access where
  | clear
  | load
  | store (value : BitVec 32)
deriving DecidableEq, Repr

namespace Access

/-- The access of a whole word on the data port. -/
def core : Access → CoreMaster
  | clear => { req := true, we := true, be := BitVec.allOnes 4, addr := var, wdata := 0 }
  | load => { req := true, we := false, be := BitVec.allOnes 4, addr := var, wdata := 0 }
  | store value =>
    { req := true, we := true, be := BitVec.allOnes 4, addr := var, wdata := value + 1 }

/-- The access behind the answer.  `usleep` is called before each read. -/
def after (rdata : BitVec 32) : Access → Access
  | clear => load
  | load => store rdata
  | store _ => load

theorem core_req (access : Access) : access.core.req = true := by
  cases access <;> rfl

end Access

/-- The core executes the instructions before an access, `usleep` among them, requests the access
until it is granted, and waits for its answer. -/
inductive Phase where
  | working
  | requesting
  | waiting
deriving DecidableEq, Repr

structure Main where
  access : Access
  phase : Phase
deriving DecidableEq, Repr

namespace Main

def start : Main := ⟨.clear, .working⟩

/-- What `main` drives on the data port. -/
def core (main : Main) : CoreMaster :=
  match main.phase with
  | .working => .idle
  | .requesting => main.access.core
  | .waiting => .idle

/-- `reaches` tells that the core has come to the next access. -/
def next (main : Main) (reaches : Bool) (port : CoreSlave) : Main :=
  match main.phase with
  | .working => if reaches then ⟨main.access, .requesting⟩ else main
  | .requesting => if port.gnt then ⟨main.access, .waiting⟩ else main
  | .waiting =>
    if port.rvalid then
      ⟨main.access.after port.rdata, if reaches then .requesting else .working⟩
    else main

section Next

variable {access : Access} (reaches : Bool) {port : CoreSlave}

theorem next_of_working : (⟨access, .working⟩ : Main).next reaches port =
    ⟨access, if reaches then .requesting else .working⟩ := by
  cases reaches <;> rfl

theorem next_of_requesting : (⟨access, .requesting⟩ : Main).next reaches port =
    ⟨access, if port.gnt then .waiting else .requesting⟩ := by
  cases granted : port.gnt <;> simp [next, granted]

theorem next_of_answer (answered : port.rvalid = true) : (⟨access, .waiting⟩ : Main).next reaches port =
    ⟨access.after port.rdata, if reaches then .requesting else .working⟩ :=
  if_pos answered

end Next

/-- `usleep` has returned, and the write behind it is not granted yet. -/
def underway (main : Main) : Bool :=
  match main.access with
  | .clear => false
  | .load => decide (main.phase ≠ .working)
  | .store _ => decide (main.phase ≠ .waiting)

/-- `usleep` returns: the read behind it comes to the data port. -/
def returns (main : Main) (reaches : Bool) (port : CoreSlave) : Bool :=
  decide (main.next reaches port = ⟨.load, .requesting⟩) && decide (main ≠ ⟨.load, .requesting⟩)

/-- The write of an increment is granted. -/
def increments (main : Main) (port : CoreSlave) : Bool :=
  match main.access with
  | .store _ => decide (main.phase = .requesting) && port.gnt
  | _ => false

/-- Each return is followed by one increment. -/
theorem underway_next (main : Main) (reaches : Bool) (port : CoreSlave) :
    (main.returns reaches port).toNat + main.underway.toNat =
      (main.increments port).toNat + (main.next reaches port).underway.toNat := by
  obtain ⟨access, phase⟩ := main
  cases phase with
  | working => cases access <;> cases reaches <;> rfl
  | requesting =>
    cases granted : port.gnt <;> cases access <;>
      simp [returns, next, underway, increments, granted]
  | waiting =>
    cases answered : port.rvalid <;> cases access <;> cases reaches <;>
      simp [returns, next, underway, increments, Access.after, answered]

end Main

end IbexWb.Led
