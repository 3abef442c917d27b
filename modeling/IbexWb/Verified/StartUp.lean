import IbexWb.Verified.ClearBss

/-! # The way to `main`

Whatever the registers hold at reset, at the call of `main` all of them are zero but for the stack
pointer and the two that the loop over the section leaves behind.
-/

namespace IbexWb.Crt0

open Riscv StateTransition

section Run

variable {stackStart bssStart bssEnd : BitVec 32} {initial state : State}

theorem read_update_zero (regs : Reg → BitVec 32) (reg : Reg) :
    Riscv.read (Function.update regs reg 0) reg = 0 := by
  rw [Riscv.read, Function.update_self, ite_self]

theorem fetch_resetHandler {pc : Nat} {instruction : Instruction}
    (fetch : (resetHandler stackStart)[pc]? = some instruction) :
    (code stackStart bssStart bssEnd)[pc]? = some instruction := by
  have inside := (List.getElem?_eq_some_iff.mp fetch).1
  rw [code, link, List.append_assoc, List.getElem?_append_left inside, fetch]

theorem fetch_mv {round : Nat} (bound : round < 30) :
    (resetHandler stackStart)[1 + round]? = some (mv (BitVec.ofNat 5 (round + 2)) x1) := by
  rw [resetHandler, Nat.add_comm, List.cons_append, List.getElem?_cons_succ,
    List.getElem?_append_left (by rwa [List.length_map, List.length_range]), List.getElem?_map,
    List.getElem?_range bound]
  rfl

/-- `mv` of a register that is zero. -/
theorem execute_mv {rd rs : Reg} (zero : read state.regs rs = 0) : execute state (mv rd rs) =
    some { state with pc := state.pc + 1, regs := Function.update state.regs rd 0 } := by
  rw [mv, execute, zero]
  rfl

/-- The registers below `reset + 2` are zero. -/
structure Resetting (initial : State) (reset : Nat) (state : State) : Prop where
  pc : state.pc = 1 + reset
  zeros : ∀ reg : Reg, reg.toNat < reset + 2 → read state.regs reg = 0
  memory : state.memory = initial.memory

theorem resetting_mv {reset : Nat} (bound : reset < 30) (resetting : Resetting initial reset state) :
    ∃ next, Reaches (step (code stackStart bssStart bssEnd)) state next ∧
      Resetting initial (reset + 1) next := by
  obtain ⟨pc, zeros, memory⟩ := resetting
  have first : read state.regs x1 = 0 :=
    zeros x1 (Nat.lt_of_lt_of_le Nat.one_lt_two (Nat.le_add_left 2 reset))
  refine ⟨_, reaches_step (pc ▸ fetch_resetHandler (fetch_mv bound)) (execute_mv first)
    Relation.ReflTransGen.refl, congrArg (· + 1) pc, fun reg below => ?_, memory⟩
  by_cases same : reg = BitVec.ofNat 5 (reset + 2)
  · rw [same]
    exact read_update_zero _ _
  · rw [read_update_of_ne _ _ same]
    -- the register that was cleared is the only one that is new
    have different : reg.toNat ≠ reset + 2 := fun equal =>
      same (BitVec.eq_of_toNat_eq (by rw [equal, BitVec.toNat_ofNat, Nat.mod_eq_of_lt (by omega)]))
    exact zeros reg (by omega)

/-- The state at `_start`. -/
structure AtStart (stackStart : BitVec 32) (initial state : State) : Prop where
  pc : state.pc = 32
  stack : read state.regs x2 = stackStart
  zeros : ∀ reg, reg ≠ x2 → read state.regs reg = 0
  memory : state.memory = initial.memory

theorem reaches_start (entry : initial.pc = 0) : ∃ next,
    Reaches (step (code stackStart bssStart bssEnd)) initial next ∧
      AtStart stackStart initial next := by
  have entered : Resetting initial 0
      { initial with pc := 1, regs := Function.update initial.regs x1 0 } := by
    refine ⟨rfl, fun reg below => ?_, rfl⟩
    by_cases same : reg = x1
    · rw [same]
      exact read_update_zero _ _
    · -- the register below `x1` is the one that is always zero
      have zero : reg = 0 := BitVec.eq_of_toNat_eq (by
        have other : reg.toNat ≠ 1 := fun equal => same (BitVec.eq_of_toNat_eq equal)
        show reg.toNat = 0
        omega)
      rw [zero]
      rfl
  obtain ⟨last, resets, pc, zeros, memory⟩ := reaches_rounds (Resetting initial) 30
    (fun _ _ bound resetting => resetting_mv bound resetting) entered
  have first : Reaches (step (code stackStart bssStart bssEnd)) initial
      { initial with pc := 1, regs := Function.update initial.regs x1 0 } := by
    have fetch : (resetHandler stackStart)[initial.pc]? = some (mv x1 0) := by
      rw [entry]
      rfl
    refine reaches_step (fetch_resetHandler fetch) ?_ Relation.ReflTransGen.refl
    exact (execute_mv rfl).trans (by rw [entry])
  have fetch : (resetHandler stackStart)[1 + 30]? = some (.la x2 stackStart) := rfl
  refine ⟨{ last with pc := last.pc + 1, regs := Function.update last.regs x2 stackStart },
    first.trans (resets.trans (reaches_step (pc ▸ fetch_resetHandler fetch) rfl
      Relation.ReflTransGen.refl)), congrArg (· + 1) pc, read_update_self _ _ (by decide),
    fun reg other => ?_, memory⟩
  rw [read_update_of_ne _ _ other]
  exact zeros reg reg.isLt

/-- The state at the call of `main`. -/
structure AtMain (stackStart bssStart bssEnd : BitVec 32) (initial state : State) : Prop where
  pc : state.pc = (code stackStart bssStart bssEnd).length
  stack : read state.regs x2 = stackStart
  pointer : (read state.regs x26).toNat = bssStart.toNat + 4 * clearedWords bssStart bssEnd
  bound : read state.regs x27 = bssEnd
  zeros : ∀ reg, reg ≠ x2 → reg ≠ x26 → reg ≠ x27 → read state.regs reg = 0
  memory : state.memory = cleared initial.memory bssStart.toNat (clearedWords bssStart bssEnd)

theorem length_resetHandler : (resetHandler stackStart).length = 32 := rfl

theorem length_code : (code stackStart bssStart bssEnd).length = 40 := rfl

/-- Only the two registers of the loop change in it. -/
theorem start_frame {final : State} (reaches : Reaches (step (start bssStart bssEnd)) state final)
    {reg : Reg} (pointer : reg ≠ x26) (bound : reg ≠ x27) :
    read final.regs reg = read state.regs reg := by
  have others : ∀ instruction ∈ start bssStart bssEnd, instruction.destination ≠ some reg := by
    simp only [start, List.forall_mem_cons, Instruction.destination, Instruction.ble]
    have first : some x26 ≠ some reg := fun same => pointer (Option.some.inj same).symm
    have second : some x27 ≠ some reg := fun same => bound (Option.some.inj same).symm
    exact ⟨first, second, nofun, nofun, first, nofun, nofun⟩
  rw [Riscv.read, Riscv.read, reaches_frame others reaches]

/-- `addi x10, x0, 0` and `addi x11, x0, 0` -/
theorem mainEntry_reaches (here : state.pc = 38) :
    Reaches (step (code stackStart bssStart bssEnd)) state { state with
      pc := 40, regs := Function.update (Function.update state.regs 10 0) 11 0 } := by
  obtain ⟨pc, regs, memory⟩ := state
  obtain rfl : pc = 38 := here
  exact reaches_step rfl rfl (reaches_step rfl rfl Relation.ReflTransGen.refl)

/-- From reset to the call of `main`. -/
theorem reaches_main (entry : initial.pc = 0) (aligned : 4 ∣ bssStart.toNat)
    (ordered : bssStart.toNat ≤ bssEnd.toNat) (small : bssEnd.toNat < 2 ^ 31 - 8) :
    ∃ final ∈ eval (step (code stackStart bssStart bssEnd)) initial,
      AtMain stackStart bssStart bssEnd initial final := by
  obtain ⟨begun, begins, atStart⟩ : ∃ begun,
      Reaches (step (code stackStart bssStart bssEnd)) initial begun ∧
        AtStart stackStart initial begun := reaches_start entry
  have first : { begun with pc := 0 }.pc = 0 := rfl
  obtain ⟨ended, clears, atEnd⟩ := start_reaches first aligned ordered small
  -- `_start` is linked behind the reset handler, so it runs as it does alone
  have placed : (State.relocate 32 { begun with pc := 0 }) = begun := by
    rw [State.relocate, Nat.add_zero, ← atStart.pc]
  have linked : Reaches (step (code stackStart bssStart bssEnd)) begun (ended.relocate 32) := by
    have moved : Reaches (step (link (resetHandler stackStart) (start bssStart bssEnd) mainEntry))
      _ _ := reaches_link clears
    rwa [length_resetHandler, placed] at moved
  have here : (ended.relocate 32).pc = 38 := by
    rw [State.relocate, atEnd.pc]
    rfl
  have calls : Reaches (step (code stackStart bssStart bssEnd)) _ _ := mainEntry_reaches here
  have others {reg : Reg} (first : reg ≠ 10) (second : reg ≠ 11) :
      Riscv.read (Function.update (Function.update (ended.relocate 32).regs 10 0) 11 0) reg =
        Riscv.read ended.regs reg := by
    rw [read_update_of_ne _ _ second, read_update_of_ne _ _ first]
    rfl
  refine ⟨_, eval_of_reaches (begins.trans (linked.trans calls)) (Nat.le_of_eq length_code), ?_⟩
  constructor
  · exact length_code.symm
  · rw [others (by decide) (by decide), start_frame clears (by decide) (by decide)]
    exact atStart.stack
  · rw [others (by decide) (by decide)]
    exact atEnd.pointer
  · rw [others (by decide) (by decide)]
    exact atEnd.bound
  · intro reg stack pointer bound
    by_cases second : reg = 11
    · rw [second]
      exact read_update_zero _ _
    by_cases first : reg = 10
    · rw [read_update_of_ne _ _ second, first]
      exact read_update_zero _ _
    rw [others first second, start_frame clears pointer bound]
    exact atStart.zeros reg stack
  · exact atEnd.memory.trans (congrArg (cleared · _ _) atStart.memory)

end Run

theorem reaches_main_filled : ∃ final ∈ eval (step (code 0x10000 16 22)) filled,
    AtMain 0x10000 16 22 filled final :=
  reaches_main rfl (by decide) (by decide) (by decide)

end IbexWb.Crt0
