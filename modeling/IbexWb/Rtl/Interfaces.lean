import Mathlib.Algebra.Group.Nat.Defs
import Mathlib.Data.Nat.Init
import Mathlib.Tactic.Common

/-! # The core interface and the Wishbone interface

Each interface is a pair of records, one for each direction.  `CoreMaster` and `CoreSlave` are
what the modports `master` and `slave` of `core_if` drive, `WbMaster` and `WbSlave` what those of
`wb_if` drive.  Widths follow `wb_pkg`.
-/

namespace IbexWb

abbrev Adr := BitVec 32
abbrev Dat := BitVec 32
abbrev Sel := BitVec 4

@[ext] structure CoreMaster where
  req : Bool
  we : Bool
  be : BitVec 4
  addr : BitVec 32
  wdata : BitVec 32
deriving DecidableEq, Repr

@[ext] structure CoreSlave where
  gnt : Bool
  rvalid : Bool
  rdata : BitVec 32
  err : Bool
deriving DecidableEq, Repr

@[ext] structure WbMaster where
  cyc : Bool
  stb : Bool
  we : Bool
  adr : Adr
  sel : Sel
  datM : Dat
deriving DecidableEq, Repr

@[ext] structure WbSlave where
  ack : Bool
  err : Bool
  stall : Bool
  datS : Dat
deriving DecidableEq, Repr

def CoreMaster.idle : CoreMaster := ⟨false, false, 0, 0, 0⟩

def WbMaster.idle : WbMaster := ⟨false, false, false, 0, 0, 0⟩

def WbSlave.idle : WbSlave := ⟨false, false, false, 0⟩

/-! ## Rules of the Wishbone port -/

/-- The port presents a request, accepted or not. -/
def WbMaster.strobes (port : WbMaster) : Bool := port.cyc && port.stb

@[simp] theorem WbMaster.strobes_eq_true {port : WbMaster} :
    port.strobes = true ↔ port.cyc = true ∧ port.stb = true := by
  simp [WbMaster.strobes]

@[simp] theorem WbMaster.strobes_idle : WbMaster.idle.strobes = false := rfl

/-- `after` still presents the request of `before`: `wb_checker` compares `sel` and the write
data for writes only. -/
structure WbMaster.SameRequest (before after : WbMaster) : Prop where
  cyc : after.cyc = true
  stb : after.stb = true
  adr : after.adr = before.adr
  we : after.we = before.we
  sel : before.we = true → after.sel = before.sel
  datM : before.we = true → after.datM = before.datM

/-- The hold rule of `wb_checker` on one port: a stalled request is presented again. -/
def HoldRule (port : Nat → WbMaster) (stall : Nat → Bool) : Prop :=
  ∀ cycle, (port cycle).strobes = true → stall cycle = true →
    (port cycle).SameRequest (port (cycle + 1))

/-- The same over a whole stall: a request is presented until it is let through. -/
def HoldUntilAccepted (port : Nat → WbMaster) (stall : Nat → Bool) : Prop :=
  ∀ first last, first ≤ last → (port first).strobes = true →
    (∀ cycle, first ≤ cycle → cycle < last → stall cycle = true) →
      (port first).SameRequest (port last)

namespace WbMaster.SameRequest

variable {first second third : WbMaster}

theorem refl (strobe : first.strobes = true) : first.SameRequest first :=
  ⟨(strobes_eq_true.mp strobe).1, (strobes_eq_true.mp strobe).2, rfl, rfl, fun _ => rfl, fun _ => rfl⟩

theorem strobes (same : first.SameRequest second) : second.strobes = true :=
  strobes_eq_true.mpr ⟨same.cyc, same.stb⟩

theorem trans (left : first.SameRequest second) (right : second.SameRequest third) :
    first.SameRequest third where
  cyc := right.cyc
  stb := right.stb
  adr := right.adr.trans left.adr
  we := right.we.trans left.we
  sel := fun write => (right.sel (left.we.trans write)).trans (left.sel write)
  datM := fun write => (right.datM (left.we.trans write)).trans (left.datM write)

end WbMaster.SameRequest

theorem holdRule_of_constant {port : Nat → WbMaster} (stall : Nat → Bool)
    (constant : ∀ cycle, (port cycle).strobes = true → port (cycle + 1) = port cycle) :
    HoldRule port stall := by
  intro cycle strobe _
  rw [constant cycle strobe]
  exact .refl strobe

/-- The rule from one cycle to the next carries a request through a whole stall. -/
theorem holdRule_iff {port : Nat → WbMaster} {stall : Nat → Bool} :
    HoldRule port stall ↔ HoldUntilAccepted port stall := by
  constructor
  · intro hold first last ordered strobe stalled
    induction last, ordered using Nat.le_induction with
    | base => exact .refl strobe
    | succ last ordered inductionHypothesis =>
      have held := inductionHypothesis fun cycle after before =>
        stalled cycle after (Nat.lt_succ_of_lt before)
      exact held.trans (hold last held.strobes (stalled last ordered (Nat.lt_succ_self last)))
  · intro hold cycle strobe stalled
    refine hold cycle (cycle + 1) (Nat.le_succ cycle) strobe fun later after before => ?_
    obtain rfl : later = cycle := by omega
    exact stalled

end IbexWb
