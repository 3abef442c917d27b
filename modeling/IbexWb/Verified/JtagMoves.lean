import IbexWb.Jtag.Driver
import Mathlib.Data.BitVec

/-! # The moves of the JTAG driver

A transaction is a list of cycles that the TAP is to make (`deliver`), and what is left of it is a
function of the driver's state and counters (`ongoing`).  A move of the driver takes the first
cycle of what is left: it sets the pins for it and steps to the state after it.
-/

namespace IbexWb.Jtag

/-! ## What a transaction is to do -/

/-- From the capture state of the other column to this one. -/
def select : Scan → List Cycle
  | .ir => [.visit .selectDrScan, .visit .selectIrScan]
  | .dr => [.visit .selectDrScan]

def leave (scan : Scan) : List Cycle :=
  [.visit (.exit1 scan), .visit (.pause scan), .visit (.exit2 scan), .visit (.update scan)]

/-- The shift state, with `bits` of the transaction shifted already, and what follows it. -/
def shiftOut (scan : Scan) (txn : Transaction) (bits : Nat) : List Cycle :=
  shifts scan txn.req (txn.len.toNat - bits) ++ leave scan

def scanOut (txn : Transaction) (bits : Nat) : List Cycle :=
  select txn.mode ++ .visit (.capture txn.mode) :: shiftOut txn.mode txn bits

/-- A transaction takes eight cycles in Run-Test/Idle and a scan of its bits. -/
def deliver (txn : Transaction) : List Cycle :=
  List.replicate 8 (.visit .runTestIdle) ++ scanOut txn 0

/-- What is left of it, from the state of the driver on. -/
def ongoing (driver : Driver) (txn : Transaction) : List Cycle :=
  match driver.state with
  | .testLogicReset => .visit .testLogicReset :: deliver txn
  | .runTestIdle =>
    List.replicate (8 - driver.idle.toNat) (.visit .runTestIdle) ++ scanOut txn 0
  | .selectDrScan => scanOut txn driver.bits.toNat
  | .selectIrScan =>
    .visit .selectIrScan :: .visit (.capture .ir) :: shiftOut .ir txn driver.bits.toNat
  | .capture scan => .visit (.capture scan) :: shiftOut scan txn driver.bits.toNat
  | .shift scan => shiftOut scan txn driver.bits.toNat
  | .exit1 scan => leave scan
  | .pause scan => (leave scan).drop 1
  | .exit2 scan => (leave scan).drop 2
  | .update scan => (leave scan).drop 3

/-! ## The counters of the driver -/

/-- The counter that the state goes by has not come to its end. -/
def InRange (driver : Driver) (txn : Transaction) : Prop :=
  match driver.state with
  | .runTestIdle => driver.idle.toNat < 8
  | .selectDrScan | .selectIrScan | .capture _ | .shift _ => driver.bits.toNat < txn.len.toNat
  | _ => True

/-- A length the driver counts exactly. -/
def Transaction.Fits (txn : Transaction) : Prop := 1 ≤ txn.len.toNat ∧ txn.len.toNat ≤ 64

theorem idle_succ {idle : BitVec 32} (range : idle.toNat < 8) :
    (idle + 1).toNat = idle.toNat + 1 ∧ (idle + 1).slt numIdle = decide (idle.toNat + 1 < 8) := by
  have small : idle.toNat + 1 < 2 ^ 32 := by omega
  have value : (idle + 1).toNat = idle.toNat + 1 :=
    (BitVec.toNat_add idle 1).trans (Nat.mod_eq_of_lt small)
  refine ⟨value, ?_⟩
  rw [BitVec.slt, BitVec.toInt_eq_toNat_of_lt (by omega), value]
  exact decide_eq_decide.mpr Int.ofNat_lt

theorem bits_succ {bits : BitVec 32} {len : BitVec 64} (range : bits.toNat < len.toNat)
    (fits : len.toNat ≤ 64) : (bits + 1).toNat = bits.toNat + 1 ∧
      (bits.signExtend 64).ult (len - 1) = decide (bits.toNat + 1 < len.toNat) := by
  have small : bits.toNat + 1 < 2 ^ 32 := by omega
  have value : (bits + 1).toNat = bits.toNat + 1 :=
    (BitVec.toNat_add bits 1).trans (Nat.mod_eq_of_lt small)
  have positive : bits.msb = false := by
    rw [BitVec.msb_eq_false_iff_two_mul_lt]
    omega
  have extended : (bits.signExtend 64).toNat = bits.toNat := by
    rw [BitVec.signExtend_eq_setWidth_of_msb_false positive, BitVec.toNat_setWidth]
    exact Nat.mod_eq_of_lt (by omega)
  have before : (len - 1).toNat = len.toNat - 1 :=
    BitVec.toNat_sub_of_le (BitVec.le_def.mpr (Nat.succ_le_of_lt (Nat.zero_lt_of_lt range)))
  refine ⟨value, ?_⟩
  rw [BitVec.ult, extended, before]
  exact decide_eq_decide.mpr (by omega)

theorem shiftOut_of_lt (scan : Scan) {txn : Transaction} {bits : Nat}
    (range : bits < txn.len.toNat) : shiftOut scan txn bits =
      .shift scan (txn.req.getLsbD 0) ::
        shiftOut scan { txn with req := txn.req >>> 1 } (bits + 1) := by
  have left : txn.len.toNat - bits = txn.len.toNat - (bits + 1) + 1 := by omega
  rw [shiftOut, left, shifts_succ]
  rfl

theorem shiftOut_of_ge (scan : Scan) {txn : Transaction} {bits : Nat}
    (done : txn.len.toNat ≤ bits) : shiftOut scan txn bits = leave scan := by
  rw [shiftOut, Nat.sub_eq_zero_of_le done]
  rfl

/-! ## A move of the driver -/

/-- A move makes one cycle of the transaction: it takes the TAP to the state that the driver goes
to, or has finished and tells so. -/
structure Moves (before after : Call) : Prop where
  state : before.driver.state.next after.top.tms = after.driver.state
  started : after.driver.state ≠ .testLogicReset
  ongoing : ongoing before.driver before.xaction =
    before.driver.state.cycle after.top.tdi ::
      if after.driver.rdy then [] else ongoing after.driver after.xaction
  inRange : after.driver.rdy = false → InRange after.driver after.xaction
  ready : after.driver.rdy = true → after.driver.state = .runTestIdle ∧
    after.driver.idle = 0 ∧ after.top.tms = false
  len : after.xaction.len = before.xaction.len

theorem move_moves {call : Call} (fits : call.xaction.Fits)
    (inRange : InRange call.driver call.xaction) (busy : call.driver.rdy = false) :
    Moves call (move call) := by
  obtain ⟨⟨pastTck, rdy, bits, idle, state⟩, top, ⟨mode, req, len⟩⟩ := call
  obtain rfl : rdy = false := busy
  cases state with
  | testLogicReset =>
    exact ⟨rfl, State.noConfusion, rfl, fun _ => Nat.zero_lt_succ 7, nofun, rfl⟩
  | runTestIdle =>
    have range : idle.toNat < 8 := inRange
    obtain ⟨value, compared⟩ := idle_succ range
    have left : 8 - idle.toNat = 8 - (idle.toNat + 1) + 1 := by omega
    by_cases more : idle.toNat + 1 < 8
    · have moved : move ⟨⟨pastTck, false, bits, idle, .runTestIdle⟩, top, ⟨mode, req, len⟩⟩ =
          ⟨⟨pastTck, false, 0, idle + 1, .runTestIdle⟩, { top with tms := false }, ⟨mode, req, len⟩⟩ :=
        if_pos (compared.trans (decide_eq_true more))
      rw [moved]
      refine ⟨rfl, State.noConfusion, ?_, fun _ => value.trans_lt more, nofun, rfl⟩
      simp only [ongoing, value, left, List.replicate_succ]
      rfl
    · have moved : move ⟨⟨pastTck, false, bits, idle, .runTestIdle⟩, top, ⟨mode, req, len⟩⟩ =
          ⟨⟨pastTck, false, 0, idle + 1, .selectDrScan⟩, { top with tms := true }, ⟨mode, req, len⟩⟩ :=
        if_neg fun again => more (of_decide_eq_true (compared.symm.trans again))
      rw [moved]
      refine ⟨rfl, State.noConfusion, ?_, fun _ => fits.1, nofun, rfl⟩
      -- the last cycle in Run-Test/Idle
      have last : 8 - idle.toNat = 1 := by omega
      simp only [ongoing, last, List.replicate_one]
      rfl
  | selectDrScan =>
    cases mode with
    | ir => exact ⟨rfl, State.noConfusion, rfl, fun _ => inRange, nofun, rfl⟩
    | dr => exact ⟨rfl, State.noConfusion, rfl, fun _ => inRange, nofun, rfl⟩
  | selectIrScan => exact ⟨rfl, State.noConfusion, rfl, fun _ => inRange, nofun, rfl⟩
  | capture scan => exact ⟨rfl, State.noConfusion, rfl, fun _ => inRange, nofun, rfl⟩
  | shift scan =>
    have range : bits.toNat < len.toNat := inRange
    obtain ⟨value, compared⟩ := bits_succ range fits.2
    have shifted : shiftOut scan ⟨mode, req, len⟩ bits.toNat = _ := shiftOut_of_lt scan range
    by_cases more : bits.toNat + 1 < len.toNat
    · have moved : move ⟨⟨pastTck, false, bits, idle, .shift scan⟩, top, ⟨mode, req, len⟩⟩ =
          ⟨⟨pastTck, false, bits + 1, idle, .shift scan⟩,
            { top with tdi := req.getLsbD 0, tms := false }, ⟨mode, req >>> 1, len⟩⟩ :=
        if_pos (compared.trans (decide_eq_true more))
      rw [moved]
      refine ⟨rfl, State.noConfusion, ?_, fun _ => value.trans_lt more, nofun, rfl⟩
      simp only [ongoing, value, shifted]
      rfl
    · have moved : move ⟨⟨pastTck, false, bits, idle, .shift scan⟩, top, ⟨mode, req, len⟩⟩ =
          ⟨⟨pastTck, false, bits + 1, idle, .exit1 scan⟩,
            { top with tdi := req.getLsbD 0, tms := true }, ⟨mode, req >>> 1, len⟩⟩ :=
        if_neg fun again => more (of_decide_eq_true (compared.symm.trans again))
      rw [moved]
      refine ⟨rfl, State.noConfusion, ?_, fun _ => trivial, nofun, rfl⟩
      -- the last bit goes out with the edge that leaves the state
      have none : shiftOut scan ⟨mode, req >>> 1, len⟩ (bits.toNat + 1) = leave scan :=
        shiftOut_of_ge scan (Nat.le_of_not_lt more)
      simp only [ongoing, shifted, none]
      rfl
  | exit1 scan => exact ⟨rfl, State.noConfusion, rfl, fun _ => trivial, nofun, rfl⟩
  | pause scan => exact ⟨rfl, State.noConfusion, rfl, fun _ => trivial, nofun, rfl⟩
  | exit2 scan => exact ⟨rfl, State.noConfusion, rfl, fun _ => trivial, nofun, rfl⟩
  | update scan => exact ⟨rfl, State.noConfusion, rfl, nofun, fun _ => ⟨rfl, rfl, rfl⟩, rfl⟩

end IbexWb.Jtag
