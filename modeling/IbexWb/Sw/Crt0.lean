import IbexWb.Riscv.Linking

/-! # The start-up code `crt0.S`

`start` are the instructions from `_start` to `zero_loop_end`, which clear the section between
the symbols `_bss_start` and `_bss_end` of the linker script.  `code` is all that runs before the
call of `main`.
-/

namespace IbexWb.Crt0

open Riscv

abbrev x26 : Reg := 26

abbrev x27 : Reg := 27

/-! The labels, as positions in the code. -/

def zeroLoop : Nat := 3

def zeroLoopEnd : Nat := 6

def start (bssStart bssEnd : BitVec 32) : List Instruction :=
  [ .la x26 bssStart,
    .la x27 bssEnd,
    .bge x26 x27 zeroLoopEnd,
    -- zero_loop:
    .sw 0 0 x26,
    .addi x26 x26 4,
    .ble x26 x27 zeroLoop ]

/-! ## Before and after -/

/-- `mv rd, rs` is `addi rd, rs, 0`. -/
def mv (rd rs : Reg) : Instruction := .addi rd rs 0

abbrev x1 : Reg := 1

abbrev x2 : Reg := 2

/-- From `reset_handler` to `_start`: all registers are zero, but for the stack pointer. -/
def resetHandler (stackStart : BitVec 32) : List Instruction :=
  mv x1 0 :: (List.range 30).map (fun index => mv (BitVec.ofNat 5 (index + 2)) x1) ++
    [ .la x2 stackStart ]

/-- `main_entry` up to the call of `main`, with `argc` and `argv`. -/
def mainEntry : List Instruction :=
  [ .addi 10 0 0,
    .addi 11 0 0 ]

/-- All of the code before `jal x1, main`. -/
def code (stackStart bssStart bssEnd : BitVec 32) : List Instruction :=
  link (resetHandler stackStart) (start bssStart bssEnd) mainEntry

end IbexWb.Crt0
