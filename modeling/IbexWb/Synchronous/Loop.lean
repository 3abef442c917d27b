import Mathlib.Data.Fin.Basic
import Mathlib.Data.Fin.SuccPred
import Mathlib.Data.Fintype.Basic
import Mathlib.Order.WellFounded

/-! # Counted loops of combinational blocks

A combinational block describes its value by a loop over the indices of a vector, with or
without a `break`.  `forLoop` and `forBreak` run such a body by recursion on the bound.  The
lemmas below replace a loop by what it computes: `forLoop_fuse` follows one part of the loop's
state, `forLoop_or` reads an or-accumulator, `forLoop_select` a multiplexer with a one-hot
select, and `forBreak_first` a search that stops at the first hit.
-/

namespace IbexWb.Synchronous

variable {σ τ : Type} {count : Nat}

/-- `for (int i = 0; i < count; i++) state = body(i, state);` -/
def forLoop : (count : Nat) → (Fin count → σ → σ) → σ → σ
  | 0, _, state => state
  | count + 1, body, state => forLoop count (fun index => body index.succ) (body 0 state)

/-- The same loop with a body that may `break`: `done` leaves the loop, `yield` goes on. -/
def forBreak : (count : Nat) → (Fin count → σ → ForInStep σ) → σ → σ
  | 0, _, state => state
  | count + 1, body, state =>
    match body 0 state with
    | .done final => final
    | .yield next => forBreak count (fun index => body index.succ) next

/-! ## The lowest index with a property -/

def IsFirst (condition : Fin count → Prop) (index : Fin count) : Prop :=
  condition index ∧ ∀ lower, lower < index → ¬ condition lower

instance (condition : Fin count → Prop) [DecidablePred condition] (index : Fin count) :
    Decidable (IsFirst condition index) :=
  inferInstanceAs (Decidable (_ ∧ _))

theorem IsFirst.unique {condition : Fin count → Prop} {left right : Fin count}
    (leftFirst : IsFirst condition left) (rightFirst : IsFirst condition right) : left = right := by
  rcases lt_trichotomy left right with below | equal | above
  · exact absurd leftFirst.1 (rightFirst.2 left below)
  · exact equal
  · exact absurd rightFirst.1 (leftFirst.2 right above)

theorem IsFirst.congr {left right : Fin count → Prop} {index : Fin count}
    (agree : ∀ other, other ≤ index → (left other ↔ right other)) :
    IsFirst left index ↔ IsFirst right index := by
  refine and_congr (agree index le_rfl) (forall_congr' fun lower => ?_)
  exact imp_congr_right fun below => not_congr (agree lower (le_of_lt below))

theorem IsFirst.exists_le (condition : Fin count → Prop) (index : Fin count)
    (holds : condition index) : ∃ first, first ≤ index ∧ IsFirst condition first := by
  induction index using WellFoundedLT.induction with
  | ind index inductionHypothesis =>
    -- descend as long as a lower index has the property
    by_cases lowest : ∀ lower, lower < index → ¬ condition lower
    · exact ⟨index, le_rfl, holds, lowest⟩
    · push Not at lowest
      obtain ⟨lower, below, lowerHolds⟩ := lowest
      obtain ⟨first, bound, isFirst⟩ := inductionHypothesis lower below lowerHolds
      exact ⟨first, bound.trans (le_of_lt below), isFirst⟩

theorem isFirst_zero {condition : Fin (count + 1) → Prop} : IsFirst condition 0 ↔ condition 0 :=
  and_iff_left fun lower below => absurd below (Fin.not_lt_zero lower)

theorem isFirst_succ {condition : Fin (count + 1) → Prop} (index : Fin count) :
    IsFirst condition index.succ ↔
      ¬ condition 0 ∧ IsFirst (fun index => condition index.succ) index := by
  constructor
  · rintro ⟨holds, lowest⟩
    exact ⟨lowest 0 (Fin.succ_pos index), holds,
      fun lower below => lowest lower.succ (Fin.succ_lt_succ_iff.mpr below)⟩
  · rintro ⟨start, holds, lowest⟩
    refine ⟨holds, fun lower below => ?_⟩
    cases lower using Fin.cases with
    | zero => exact start
    | succ lower => exact lowest lower (Fin.succ_lt_succ_iff.mp below)

/-! ## What a loop computes -/

/-- If one part of the state evolves on its own, it is the result of its own loop. -/
theorem forLoop_fuse (part : σ → τ) (body : Fin count → σ → σ) (inner : Fin count → τ → τ)
    (evolves : ∀ index state, part (body index state) = inner index (part state)) (state : σ) :
    part (forLoop count body state) = forLoop count inner (part state) := by
  induction count generalizing state with
  | zero => rfl
  | succ count inductionHypothesis =>
    simp only [forLoop]
    rw [inductionHypothesis _ (fun index => inner index.succ) (fun index => evolves index.succ),
      evolves 0]

theorem forLoop_or (flag : Fin count → Bool) (start : Bool) :
    forLoop count (fun index value => value || flag index) start = true ↔
      start = true ∨ ∃ index, flag index = true := by
  induction count generalizing start with
  | zero => simp [forLoop]
  | succ count inductionHypothesis =>
    simp only [forLoop, inductionHypothesis, Bool.or_eq_true, Fin.exists_fin_succ, or_assoc]

theorem forLoop_const (body : Fin count → σ → σ) (start : σ)
    (unchanged : ∀ index state, body index state = state) : forLoop count body start = start := by
  induction count with
  | zero => rfl
  | succ count inductionHypothesis =>
    rw [forLoop, unchanged 0]
    exact inductionHypothesis _ fun index => unchanged index.succ

/-- With a one-hot select the loop applies the selected body once. -/
theorem forLoop_select (select : Fin count → Bool) (value : Fin count → σ → σ) (start : σ)
    (chosen : Fin count) (oneHot : ∀ index, select index = true ↔ index = chosen) :
    forLoop count (fun index state => if select index then value index state else state) start =
      value chosen start := by
  induction count generalizing start with
  | zero => exact chosen.elim0
  | succ count inductionHypothesis =>
    simp only [forLoop]
    cases chosen using Fin.cases with
    | zero =>
      rw [if_pos ((oneHot 0).mpr rfl)]
      exact forLoop_const _ _ fun index _ =>
        if_neg fun selected => Fin.succ_ne_zero index ((oneHot _).mp selected)
    | succ chosen =>
      have skipped : ¬ select 0 = true := fun selected =>
        Fin.succ_ne_zero chosen ((oneHot 0).mp selected).symm
      rw [if_neg skipped]
      exact inductionHypothesis (fun index => select index.succ) _ _ chosen fun index =>
        (oneHot index.succ).trans Fin.succ_inj

theorem forBreak_first (select : Fin count → Bool) (value : Fin count → σ → σ) (start : σ)
    (chosen : Fin count) (first : IsFirst (fun index => select index = true) chosen) :
    forBreak count (fun index state =>
      if select index then .done (value index state) else .yield state) start = value chosen start := by
  induction count generalizing start with
  | zero => exact chosen.elim0
  | succ count inductionHypothesis =>
    cases chosen using Fin.cases with
    | zero => simp only [forBreak, isFirst_zero.mp first, if_true]
    | succ chosen =>
      obtain ⟨skipped, first⟩ := (isFirst_succ chosen).mp first
      simp only [forBreak, skipped]
      exact inductionHypothesis (fun index => select index.succ) _ _ chosen first

theorem forBreak_none (select : Fin count → Bool) (value : Fin count → σ → σ) (start : σ)
    (idle : ∀ index, select index = false) :
    forBreak count (fun index state =>
      if select index then .done (value index state) else .yield state) start = start := by
  induction count with
  | zero => rfl
  | succ count inductionHypothesis =>
    simp only [forBreak, idle 0, Bool.false_eq_true, if_false]
    exact inductionHypothesis _ _ fun index => idle index.succ

end IbexWb.Synchronous
