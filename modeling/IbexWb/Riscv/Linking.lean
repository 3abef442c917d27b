import IbexWb.Riscv.Machine

/-! # Code within a program

Code that is placed behind other code runs as it does alone, with its branch targets moved along.
A register that no instruction of the code names as its destination is left alone.
-/

namespace IbexWb.Riscv

open StateTransition

/-! ## Placement -/

def Instruction.relocate (base : Nat) : Instruction → Instruction
  | bge rs1 rs2 target => bge rs1 rs2 (base + target)
  | instruction => instruction

def State.relocate (base : Nat) (state : State) : State := { state with pc := base + state.pc }

theorem execute_relocate (base : Nat) (instruction : Instruction) (state : State) :
    execute (state.relocate base) (instruction.relocate base) =
      (execute state instruction).map (State.relocate base) := by
  cases instruction with
  | la rd symbol => rfl
  | addi rd rs1 imm => rfl
  | sw rs2 offset rs1 =>
    by_cases aligned : 4 ∣ (read state.regs rs1 + offset.signExtend 32).toNat
    · have alone : execute state (.sw rs2 offset rs1) = some _ := if_pos aligned
      rw [alone]
      exact if_pos aligned
    · have alone : execute state (.sw rs2 offset rs1) = none := if_neg aligned
      rw [alone]
      exact if_neg aligned
  | bge rs1 rs2 target =>
    by_cases taken : (read state.regs rs2).sle (read state.regs rs1) = true
    · have alone : execute state (.bge rs1 rs2 target) = some _ := if_pos taken
      rw [alone]
      exact if_pos taken
    · have alone : execute state (.bge rs1 rs2 target) = some _ := if_neg taken
      rw [alone]
      exact if_neg taken

/-- Some code between other code. -/
def link (before code after : List Instruction) : List Instruction :=
  before ++ code.map (Instruction.relocate before.length) ++ after

section Link

variable {before code after : List Instruction} {state next final : State}

theorem fetch_link {pc : Nat} {instruction : Instruction} (fetch : code[pc]? = some instruction) :
    (link before code after)[before.length + pc]? =
      some (instruction.relocate before.length) := by
  have inside : before.length + pc <
      (before ++ code.map (Instruction.relocate before.length)).length := by
    rw [List.length_append, List.length_map]
    exact Nat.add_lt_add_left (List.getElem?_eq_some_iff.mp fetch).1 _
  rw [link, List.getElem?_append_left inside, List.getElem?_append_right (Nat.le_add_right _ _),
    Nat.add_sub_cancel_left, List.getElem?_map, fetch]
  rfl

theorem step_link (stepped : step code state = some next) :
    step (link before code after) (state.relocate before.length) =
      some (next.relocate before.length) := by
  rw [step] at stepped
  cases fetch : code[state.pc]? with
  | none =>
    rw [fetch] at stepped
    exact absurd stepped (Option.some_ne_none next).symm
  | some instruction =>
    rw [fetch] at stepped
    rw [step_of_fetch (fetch_link fetch), execute_relocate]
    exact congrArg (Option.map _) stepped

theorem reaches_link (reaches : Reaches (step code) state final) :
    Reaches (step (link before code after)) (state.relocate before.length)
      (final.relocate before.length) := by
  induction reaches with
  | refl => exact Relation.ReflTransGen.refl
  | tail _ stepped inductionHypothesis => exact inductionHypothesis.tail (step_link stepped)

end Link

/-! ## Registers that are left alone -/

def Instruction.destination : Instruction → Option Reg
  | la rd _ => some rd
  | addi rd _ _ => some rd
  | sw _ _ _ => none
  | bge _ _ _ => none

section Frame

variable {code : List Instruction} {state next final : State} {reg : Reg}

theorem execute_frame {instruction : Instruction} (other : instruction.destination ≠ some reg)
    (executed : execute state instruction = some next) : next.regs reg = state.regs reg := by
  cases instruction with
  | la rd symbol =>
    obtain rfl := Option.some.inj executed
    exact Function.update_of_ne (fun same => other (congrArg some same.symm)) _ _
  | addi rd rs1 imm =>
    obtain rfl := Option.some.inj executed
    exact Function.update_of_ne (fun same => other (congrArg some same.symm)) _ _
  | sw rs2 offset rs1 =>
    simp only [execute] at executed
    split at executed
    · obtain rfl := Option.some.inj executed
      rfl
    · exact absurd executed (Option.some_ne_none next).symm
  | bge rs1 rs2 target =>
    simp only [execute] at executed
    split at executed <;> obtain rfl := Option.some.inj executed <;> rfl

theorem reaches_frame (others : ∀ instruction ∈ code, instruction.destination ≠ some reg)
    (reaches : Reaches (step code) state final) : final.regs reg = state.regs reg := by
  induction reaches with
  | refl => rfl
  | @tail before after _ stepped inductionHypothesis =>
    rw [← inductionHypothesis]
    replace stepped : step code before = some after := stepped
    rw [step] at stepped
    cases fetch : code[before.pc]? with
    | none =>
      rw [fetch] at stepped
      exact absurd stepped (Option.some_ne_none after).symm
    | some instruction =>
      rw [fetch] at stepped
      exact execute_frame (others instruction (List.mem_of_getElem? fetch)) stepped

end Frame

end IbexWb.Riscv
