import IbexWb.Rtl.Interfaces
import IbexWb.Synchronous.Machine
import Mathlib.Algebra.Group.Int.Defs
import Mathlib.Data.Nat.Log
import Mathlib.Tactic.Common

/-! # `core2wb`: core to Wishbone memory interface converter

The converter holds one register, the signed counter `counts` of outstanding requests.  It
keeps `cyc` high while the core requests or the counter is positive.  `wb` are the signals driven
to the bus, `core` those driven to the core.
-/

namespace IbexWb.Core2wb

open IbexWb.Synchronous (Machine)

variable {pending : Nat}

/-- `parameter pending = 16` -/
abbrev defaultPending : Nat := 16

/-- `logic signed [$clog2(pending):0] counts` -/
abbrev Counts (pending : Nat) := BitVec (Nat.clog 2 pending + 1)

def cyc (counts : Counts pending) (core : CoreMaster) : Bool :=
  core.req || decide (0 < counts.toInt)

def wb (counts : Counts pending) (core : CoreMaster) : WbMaster where
  cyc := cyc counts core
  stb := core.req
  we := core.we
  adr := core.addr
  sel := if core.we then core.be else BitVec.allOnes 4
  datM := core.wdata

def core (counts : Counts pending) (core : CoreMaster) (wb : WbSlave) : CoreSlave where
  gnt := core.req && !wb.stall
  rvalid := cyc counts core && (wb.ack || wb.err)
  rdata := wb.datS
  err := wb.err

def next (counts : Counts pending) (core : CoreMaster) (wb : WbSlave) : Counts pending :=
  if core.req && (Core2wb.core counts core wb).gnt then
    -- a request and an `ack` in one cycle cancel out
    if cyc counts core && wb.ack then counts else counts + 1
  else if cyc counts core && wb.ack then counts - 1
  else counts

def machine (pending : Nat) :
    Machine (CoreMaster × WbSlave) (Counts pending) (WbMaster × CoreSlave) where
  next counts port := next counts port.1 port.2
  out counts port := (wb counts port.1, core counts port.1 port.2)

/-! ## The signals one by one -/

theorem cyc_eq_true {counts : Counts pending} {core : CoreMaster} :
    cyc counts core = true ↔ core.req = true ∨ 0 < counts.toInt := by
  simp [cyc]

@[simp] theorem wb_cyc (counts : Counts pending) (core : CoreMaster) :
    (wb counts core).cyc = cyc counts core := rfl

/-- A strobe is a request of the core: `stb` is never high without `cyc`. -/
@[simp] theorem wb_strobes (counts : Counts pending) (core : CoreMaster) :
    (wb counts core).strobes = core.req := by
  cases requested : core.req <;> simp [WbMaster.strobes, cyc, wb, requested]

/-- The counter's balance in one cycle, modulo its width. -/
theorem next_balance (counts : Counts pending) (core : CoreMaster) (wb : WbSlave) :
    next counts core wb + BitVec.ofNat _ (cyc counts core && wb.ack).toNat =
      counts + BitVec.ofNat _ (core.req && !wb.stall).toNat := by
  -- the grant repeats `req`, so the condition of the counter is that of the bus
  have accepted : (core.req && (Core2wb.core counts core wb).gnt) = (core.req && !wb.stall) := by
    simp [Core2wb.core]
  rw [next, accepted]
  generalize (core.req && !wb.stall) = taken
  generalize (cyc counts core && wb.ack) = answered
  cases taken with
  | false =>
    cases answered with
    | false => simp
    | true => exact (BitVec.sub_add_cancel _ _).trans (BitVec.add_zero _).symm
  | true => cases answered <;> simp

/-- The converter looks at `stall`, and at the answer only while it holds `cyc`. -/
theorem next_congr {counts : Counts pending} {core : CoreMaster} {left right : WbSlave}
    (stall : left.stall = right.stall)
    (ack : cyc counts core = true → left.ack = right.ack) :
    next counts core left = next counts core right := by
  have granted : (Core2wb.core counts core left).gnt = (Core2wb.core counts core right).gnt := by
    simp only [Core2wb.core, stall]
  have answered : (cyc counts core && left.ack) = (cyc counts core && right.ack) := by
    cases held : cyc counts core with
    | false => rfl
    | true => rw [ack held]
  rw [next, next, granted, answered]

/-! ## The counter's range -/

theorem counts_lt (counts : Counts pending) : counts.toInt < 2 ^ Nat.clog 2 pending := by
  simpa using BitVec.toInt_lt (x := counts)

theorem toInt_ofNat {number : Nat} (bound : number < 2 ^ Nat.clog 2 pending) :
    (BitVec.ofNat _ number : Counts pending).toInt = number := by
  rw [BitVec.toInt_ofNat']
  apply Int.bmod_eq_of_le_mul_two <;> rw [Nat.pow_succ] <;> omega

theorem eq_ofNat_of_toInt {counts : Counts pending} {number : Nat}
    (shown : counts.toInt = number) : counts = BitVec.ofNat _ number := by
  rw [← BitVec.ofInt_toInt (x := counts), shown, BitVec.ofInt_natCast]

end IbexWb.Core2wb
