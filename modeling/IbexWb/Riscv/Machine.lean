import IbexWb.Memory.Bytes
import Mathlib.Computability.StateTransition

/-! # A fragment of RV32I

Instructions as an assembler reads them: `la` and `ble` are its pseudo-instructions, and a branch
names the place in the program where it goes to.  A program is run by `StateTransition.eval`: it
stops when the program counter leaves it.

A store to an address that is not word aligned is left to the execution environment, here it stops
the machine.
-/

namespace IbexWb.Riscv

open StateTransition

/-- A register by the five bits that stand for it in an instruction. -/
abbrev Reg := BitVec 5

inductive Instruction where
  | la (rd : Reg) (symbol : BitVec 32)
  | addi (rd rs1 : Reg) (imm : BitVec 12)
  | sw (rs2 : Reg) (offset : BitVec 12) (rs1 : Reg)
  | bge (rs1 rs2 : Reg) (target : Nat)
deriving DecidableEq, Repr

/-- `ble rs, rt` is the branch `bge rt, rs`. -/
def Instruction.ble (rs rt : Reg) (target : Nat) : Instruction := bge rt rs target

structure State where
  pc : Nat
  regs : Reg → BitVec 32
  memory : Nat → BitVec 8

/-- Register zero is wired to zero. -/
def read (regs : Reg → BitVec 32) (reg : Reg) : BitVec 32 := if reg = 0 then 0 else regs reg

def execute (state : State) : Instruction → Option State
  | .la rd symbol =>
    some { state with pc := state.pc + 1, regs := Function.update state.regs rd symbol }
  | .addi rd rs1 imm =>
    some { state with
      pc := state.pc + 1
      regs := Function.update state.regs rd (read state.regs rs1 + imm.signExtend 32) }
  | .sw rs2 offset rs1 =>
    let address := read state.regs rs1 + offset.signExtend 32
    if 4 ∣ address.toNat then
      some { state with
        pc := state.pc + 1
        memory := Memory.store state.memory address.toNat (BitVec.allOnes 4) (read state.regs rs2) }
    else none
  | .bge rs1 rs2 target =>
    if (read state.regs rs2).sle (read state.regs rs1) then some { state with pc := target }
    else some { state with pc := state.pc + 1 }

def step (program : List Instruction) (state : State) : Option State :=
  match program[state.pc]? with
  | some instruction => execute state instruction
  | none => none

/-! ## Rules -/

section Rules

variable {program : List Instruction} {state next final : State} {instruction : Instruction}

theorem step_of_fetch (fetch : program[state.pc]? = some instruction) :
    step program state = execute state instruction := by
  rw [step, fetch]

theorem reaches_step (fetch : program[state.pc]? = some instruction)
    (executed : execute state instruction = some next)
    (rest : Reaches (step program) next final) : Reaches (step program) state final :=
  Relation.ReflTransGen.head ((step_of_fetch fetch).trans executed) rest

theorem step_exit (outside : program.length ≤ state.pc) : step program state = none := by
  rw [step, List.getElem?_eq_none outside]

/-- A loop whose invariant is indexed by the rounds that are done. -/
theorem reaches_rounds (invariant : Nat → State → Prop) (rounds : Nat)
    (body : ∀ round state, round < rounds → invariant round state →
      ∃ next, Reaches (step program) state next ∧ invariant (round + 1) next)
    (entered : invariant 0 state) :
    ∃ final, Reaches (step program) state final ∧ invariant rounds final := by
  induction rounds with
  | zero => exact ⟨state, Relation.ReflTransGen.refl, entered⟩
  | succ rounds inductionHypothesis =>
    obtain ⟨before, reaches, holds⟩ := inductionHypothesis fun round state bound =>
      body round state (Nat.lt_succ_of_lt bound)
    obtain ⟨after, again, kept⟩ := body rounds before (Nat.lt_succ_self rounds) holds
    exact ⟨after, Relation.ReflTransGen.trans reaches again, kept⟩

theorem eval_of_reaches (reaches : Reaches (step program) state final)
    (outside : program.length ≤ final.pc) : final ∈ eval (step program) state :=
  mem_eval.mpr ⟨reaches, step_exit outside⟩

end Rules

/-! ## Registers -/

section Registers

variable (regs : Reg → BitVec 32) {reg other : Reg} (value : BitVec 32)

@[simp] theorem read_zero : read regs 0 = 0 := rfl

theorem read_update_self (writable : reg ≠ 0) :
    read (Function.update regs reg value) reg = value := by
  rw [read, if_neg writable, Function.update_self]

theorem read_update_of_ne (different : other ≠ reg) :
    read (Function.update regs reg value) other = read regs other := by
  rw [read, read, Function.update_of_ne different]

/-- Below the sign bit the signed comparison is that of numbers. -/
theorem sle_of_small {left right : BitVec 32} (leftSmall : left.toNat < 2 ^ 31)
    (rightSmall : right.toNat < 2 ^ 31) : left.sle right = decide (left.toNat ≤ right.toNat) := by
  rw [BitVec.sle, BitVec.toInt_eq_toNat_of_lt (by omega), BitVec.toInt_eq_toNat_of_lt (by omega)]
  simp only [Int.ofNat_le]

end Registers

/-! ## Instructions -/

section Instructions

variable {state : State} {rs1 rs2 : Reg}

theorem execute_sw {offset : BitVec 12} {address : Nat}
    (located : (read state.regs rs1 + offset.signExtend 32).toNat = address) (aligned : 4 ∣ address) :
    execute state (.sw rs2 offset rs1) = some { state with
      pc := state.pc + 1
      memory := Memory.store state.memory address (BitVec.allOnes 4) (read state.regs rs2) } := by
  simp only [execute, located]
  rw [if_pos aligned]

theorem execute_bge {left right target : Nat} (leftValue : (read state.regs rs1).toNat = left)
    (rightValue : (read state.regs rs2).toNat = right) (leftSmall : left < 2 ^ 31)
    (rightSmall : right < 2 ^ 31) : execute state (.bge rs1 rs2 target) =
      some { state with pc := if right ≤ left then target else state.pc + 1 } := by
  rw [execute, sle_of_small (rightValue ▸ rightSmall) (leftValue ▸ leftSmall), leftValue, rightValue]
  by_cases taken : right ≤ left
  · rw [if_pos (decide_eq_true taken), if_pos taken]
  · rw [decide_eq_false taken, if_neg Bool.false_ne_true, if_neg taken]

end Instructions

end IbexWb.Riscv
