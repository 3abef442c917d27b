import IbexWb.Rtl.Core2wb
import IbexWb.Rtl.Wb2core
import IbexWb.Synchronous.Handshake

/-! # The rules of `wb_checker`, `fv_core2wb` and `fv_wb2core`

`wb_checker` watches one Wishbone port: requests are held while they are stalled, and each strobe
that is let through gets one `ack` or `err` within `maxWaits` cycles.  `fv_core2wb` and
`fv_wb2core` state the hold rule on both sides of a converter, as an assumption on the side that
requests and as an assertion on the other.  The checks for unknown values have no counterpart.
-/

namespace IbexWb

open IbexWb.Synchronous

/-! ## The hold rule of the core interface -/

/-- `after` still presents the request of `before`. -/
structure CoreMaster.SameRequest (before after : CoreMaster) : Prop where
  req : after.req = true
  addr : after.addr = before.addr
  we : after.we = before.we
  be : before.we = true → after.be = before.be
  wdata : before.we = true → after.wdata = before.wdata

/-- `(core.req && !core.gnt) |=> …` for all five signals. -/
def CoreHoldRule (core : Nat → CoreMaster) (gnt : Nat → Bool) : Prop :=
  ∀ cycle, (core cycle).req = true → gnt cycle = false →
    (core cycle).SameRequest (core (cycle + 1))

namespace Core2wb

variable {pending : Nat}

theorem sameRequest_wb_iff (before after : Counts pending) {core next : CoreMaster} :
    (wb before core).SameRequest (wb after next) ↔ core.SameRequest next := by
  constructor
  · intro same
    refine ⟨same.stb, same.adr, same.we, fun write => ?_, same.datM⟩
    -- for a write `sel` is `be`
    have kept : next.we = true := same.we.trans write
    have sel := same.sel write
    rwa [wb, wb, if_pos write, if_pos kept] at sel
  · intro same
    refine ⟨cyc_eq_true.mpr (Or.inl same.req), same.req, same.addr, same.we, fun write => ?_,
      same.wdata⟩
    have kept : next.we = true := same.we.trans write
    have sent : core.we = true := write
    rw [wb, wb, if_pos sent, if_pos kept]
    exact same.be write

/-- The bus side of the converter keeps the hold rule exactly if the core does. -/
theorem holdRule_iff_core (counts : Nat → Counts pending) (core : Nat → CoreMaster)
    (wbs : Nat → WbSlave) :
    HoldRule (fun cycle => wb (counts cycle) (core cycle)) (fun cycle => (wbs cycle).stall) ↔
      CoreHoldRule core fun cycle =>
        (Core2wb.core (counts cycle) (core cycle) (wbs cycle)).gnt := by
  refine forall_congr' fun cycle => ?_
  rw [wb_strobes]
  refine forall_congr' fun requested => ?_
  have refused : (Core2wb.core (counts cycle) (core cycle) (wbs cycle)).gnt = false ↔
      (wbs cycle).stall = true := by
    simp [Core2wb.core, requested]
  rw [refused]
  exact imp_congr_right fun _ => sameRequest_wb_iff _ _

end Core2wb

namespace Wb2core

theorem sameRequest_core {before after : WbMaster} (same : before.SameRequest after) :
    (core before).SameRequest (core after) where
  req := Bool.and_eq_true_iff.mpr ⟨same.cyc, same.stb⟩
  addr := same.adr
  we := same.we
  be := same.sel
  wdata := same.datM

/-- The core side of the converter keeps the hold rule if the bus does. -/
theorem coreHoldRule {wbm : Nat → WbMaster} {slave : Nat → CoreSlave} {resp : Nat → Bool}
    (hold : HoldRule wbm fun cycle => (wb (resp cycle) (wbm cycle) (slave cycle)).stall) :
    CoreHoldRule (fun cycle => core (wbm cycle)) fun cycle => (slave cycle).gnt := by
  intro cycle requested refused
  exact sameRequest_core (hold cycle requested (congrArg Bool.not refused))

end Wb2core

/-! ## One port under the checker -/

/-- `localparam MAXWAITS = 16` -/
def maxWaits : Nat := 16

section Port

variable (port : Nat → WbMaster) (answer : Nat → WbSlave)

/-- `wb.cyc && wb.stb && !wb.stall` -/
def accepted (cycle : Nat) : Bool := (port cycle).strobes && !(answer cycle).stall

/-- `wb.cyc && (wb.ack || wb.err)` -/
def answered (cycle : Nat) : Bool :=
  (port cycle).cyc && ((answer cycle).ack || (answer cycle).err)

/-- No assertion of the checker fails. -/
structure Checked : Prop where
  handshake : AnsweredWithin (accepted port answer) (answered port answer) 1 maxWaits
  exclusive : ∀ cycle, ((port cycle).cyc && (answer cycle).ack && (answer cycle).err) = false
  hold : HoldRule port fun cycle => (answer cycle).stall

end Port

end IbexWb
