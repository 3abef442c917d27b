import IbexWb.Verified.JtagSteps

/-! # What the JTAG driver delivers

What the TAP has made and what is pending are together the same in every step from the driver's
first move on.  TCK never stops, so in the end all of it is made, and from then on the TAP stays in
Run-Test/Idle.
-/

namespace IbexWb.Jtag

/-! ## Runs -/

section Run

variable {half : Nat} {initial : Sim}

/-- TCK keeps its level until it toggles. -/
theorem sim_tck_hold (step count : Nat)
    (quiet : ∀ earlier, earlier < count → ¬ Toggles half (sim half initial (step + earlier))) :
    (sim half initial (step + count)).top.tck = (sim half initial step).top.tck := by
  induction count with
  | zero => rfl
  | succ count inductionHypothesis =>
    have before := inductionHypothesis fun earlier bound => quiet earlier (Nat.lt_succ_of_lt bound)
    rw [← Nat.add_assoc, sim_succ, next_tck, clock_hold (quiet count (Nat.lt_succ_self count))]
    exact before

theorem out_toList_length (sim : Sim) : ((machine half).out sim ()).toList.length =
    if Toggles half sim ∧ sim.top.tck = false then 1 else 0 := by
  have out : (machine half).out sim () = observe sim.top.tck (serve (clock half sim)) := rfl
  rw [out, observe, serve_tck]
  by_cases toggles : Toggles half sim
  · rw [clock_toggle toggles]
    cases sim.top.tck <;> simp [toggles]
  · rw [clock_hold toggles]
    cases sim.top.tck <;> simp [toggles]

/-- Without an edge nothing changes. -/
theorem hold_of_quiet (step count : Nat)
    (quiet : ∀ earlier, earlier < count → ¬ Toggles half (sim half initial (step + earlier))) :
    (tapLog half initial (step + count)).length = (tapLog half initial step).length := by
  induction count with
  | zero => rfl
  | succ count inductionHypothesis =>
    have none : ¬ (Toggles half (sim half initial (step + count)) ∧
        (sim half initial (step + count)).top.tck = false) := fun edge =>
      quiet count (Nat.lt_succ_self count) edge.1
    rw [← Nat.add_assoc, tapLog_succ, List.length_append, out_toList_length, if_neg none]
    exact inductionHypothesis fun earlier bound => quiet earlier (Nat.lt_succ_of_lt bound)

/-- In half a period there is one edge. -/
theorem exists_toggle_within (positive : 0 < half) (initial : Sim) (step : Nat) :
    ∃ before after, before + 1 + after = half ∧
      Toggles half (sim half initial (step + before)) ∧
      (∀ earlier, earlier < before → ¬ Toggles half (sim half initial (step + earlier))) ∧
      ∀ later, later < after → ¬ Toggles half (sim half initial (step + before + 1 + later)) := by
  obtain ⟨before, toggles, quiet⟩ := exists_toggle positive initial step
  have bound : before < half := by
    by_contra long
    -- the multiple of `half` that comes next is at most `half` steps away
    have rest := Nat.mod_lt (initial.time + step) positive
    refine quiet (half - 1 - (initial.time + step) % half) (by omega) ?_
    have next : initial.time + (step + (half - 1 - (initial.time + step) % half)) + 1 =
        half * ((initial.time + step) / half + 1) := by
      have parts := Nat.div_add_mod (initial.time + step) half
      rw [Nat.mul_add, Nat.mul_one]
      omega
    rw [Toggles, sim_time, next, Nat.mul_mod_right]
  refine ⟨before, half - before - 1, by omega, toggles, quiet, fun later short again => ?_⟩
  rw [Toggles, sim_time] at toggles again
  have shifted : initial.time + (step + before + 1 + later) + 1 =
      initial.time + (step + before) + 1 + (later + 1) := by omega
  rw [shifted, Nat.add_mod, toggles, Nat.zero_add, Nat.mod_mod,
    Nat.mod_eq_of_lt (by omega)] at again
  exact Nat.succ_ne_zero later again

theorem half_period (positive : 0 < half) (initial : Sim) (step : Nat) :
    (sim half initial (step + half)).top.tck = !(sim half initial step).top.tck ∧
      (tapLog half initial (step + half)).length =
        (tapLog half initial step).length + if (sim half initial step).top.tck then 0 else 1 := by
  obtain ⟨before, after, total, toggles, quiet, still⟩ := exists_toggle_within positive initial step
  have reached : step + half = step + before + 1 + after := by omega
  have level := sim_tck_hold step before quiet
  have edge : (sim half initial (step + before + 1)).top.tck =
      !(sim half initial (step + before)).top.tck := by
    rw [sim_succ, next_tck, clock_toggle toggles]
  rw [reached, sim_tck_hold _ after still, hold_of_quiet _ after still, edge, level, tapLog_succ,
    List.length_append, out_toList_length, hold_of_quiet _ before quiet, level]
  refine ⟨rfl, ?_⟩
  cases (sim half initial step).top.tck <;> simp [toggles]

/-- In each period there is an edge of either kind. -/
theorem exists_edge_within (positive : 0 < half) (initial : Sim) (step : Nat) (level : Bool) :
    ∃ edge, step ≤ edge ∧ edge < step + 2 * half ∧ Toggles half (sim half initial edge) ∧
      (sim half initial edge).top.tck = level := by
  obtain ⟨before, after, total, toggles, quiet, _⟩ := exists_toggle_within positive initial step
  -- two edges that follow each other are of different kinds
  by_cases first : (sim half initial (step + before)).top.tck = level
  · exact ⟨step + before, by omega, by omega, toggles, first⟩
  · obtain ⟨more, _, _, again, hold, _⟩ := exists_toggle_within positive initial (step + half)
    refine ⟨step + half + more, by omega, by omega, again, ?_⟩
    rw [sim_tck_hold step before quiet] at first
    rw [sim_tck_hold (step + half) more hold, (half_period positive initial step).1,
      Bool.eq_not.mpr first, Bool.not_not]

/-- Nothing is made until TCK toggles. -/
theorem reaches_toggle (positive : 0 < half) {step : Nat} (inStep : InStep (sim half initial step)) :
    ∃ later, Toggles half (sim half initial later) ∧ InStep (sim half initial later) ∧
      (sim half initial later).top.tck = (sim half initial step).top.tck ∧
      pending (sim half initial later) = pending (sim half initial step) ∧
      tapLog half initial later = tapLog half initial step := by
  obtain ⟨count, toggles, quiet⟩ := exists_toggle positive initial step
  have steady : ∀ earlier, earlier ≤ count → InStep (sim half initial (step + earlier)) ∧
      pending (sim half initial (step + earlier)) = pending (sim half initial step) ∧
      tapLog half initial (step + earlier) = tapLog half initial step := by
    intro earlier
    induction earlier with
    | zero => exact fun _ => ⟨inStep, rfl, rfl⟩
    | succ earlier inductionHypothesis =>
      intro bound
      obtain ⟨before, waiting, logged⟩ := inductionHypothesis (Nat.le_of_succ_le bound)
      obtain ⟨after, out, kept⟩ := inStep_quiet before (quiet earlier bound)
      refine ⟨after, kept.trans waiting, ?_⟩
      rw [← Nat.add_assoc, tapLog_succ, out, logged]
      exact List.append_nil _
  obtain ⟨there, waiting, logged⟩ := steady count (Nat.le_refl count)
  exact ⟨step + count, toggles, there, sim_tck_hold step count quiet, waiting, logged⟩

/-- While cycles are pending, the first of them is made. -/
theorem reaches_cycle (positive : 0 < half) {step : Nat} (inStep : InStep (sim half initial step))
    (busy : pending (sim half initial step) ≠ []) :
    ∃ later cycle, InStep (sim half initial later) ∧
      pending (sim half initial step) = cycle :: pending (sim half initial later) ∧
      tapLog half initial later = tapLog half initial step ++ [cycle] := by
  -- with TCK low the next edge makes the cycle
  have fromLow : ∀ step, InStep (sim half initial step) → (sim half initial step).top.tck = false →
      ∃ later cycle, InStep (sim half initial later) ∧
        pending (sim half initial step) = cycle :: pending (sim half initial later) ∧
        tapLog half initial later = tapLog half initial step ++ [cycle] := by
    intro step inStep low
    obtain ⟨edge, toggles, there, level, waiting, logged⟩ := reaches_toggle positive inStep
    obtain ⟨after, out, made⟩ := inStep_rise there toggles (level.trans low)
    refine ⟨edge + 1, _, after, waiting.symm.trans made, (tapLog_succ half initial edge).trans ?_⟩
    rw [out, logged]
    rfl
  cases tck : (sim half initial step).top.tck with
  | false => exact fromLow step inStep tck
  | true =>
    -- the driver moves at the falling edge before
    obtain ⟨edge, toggles, there, level, waiting, logged⟩ := reaches_toggle positive inStep
    have high := level.trans tck
    have called : (sim half initial edge).current ≠ [] := by
      intro none
      apply busy
      rw [← waiting, pending, high, none]
      rfl
    obtain ⟨after, out, kept⟩ := inStep_fall there toggles high
    have low : (sim half initial (edge + 1)).top.tck = false := by
      rw [sim_succ, next_tck, clock_toggle toggles]
      exact (congrArg Bool.not high).trans Bool.not_true
    obtain ⟨later, cycle, last, made, extended⟩ := fromLow (edge + 1) after low
    refine ⟨later, cycle, last, ?_, ?_⟩
    · rw [← waiting, ← kept called]
      exact made
    · rw [extended, tapLog_succ, out, logged]
      exact congrArg (· ++ [cycle]) (List.append_nil _)

/-- All pending cycles are made. -/
theorem reaches_done (positive : 0 < half) (cycles : List Cycle) :
    ∀ step, InStep (sim half initial step) → pending (sim half initial step) = cycles →
      ∃ last, Resting (sim half initial last) ∧
        tapLog half initial last = tapLog half initial step ++ cycles := by
  induction cycles with
  | nil =>
    intro step inStep done
    exact ⟨step, inStep.resting_of_pending done, (List.append_nil _).symm⟩
  | cons first rest inductionHypothesis =>
    intro step inStep waiting
    obtain ⟨later, cycle, there, made, logged⟩ :=
      reaches_cycle positive inStep (waiting ▸ List.cons_ne_nil first rest)
    obtain ⟨rfl, left⟩ := List.cons.inj (waiting.symm.trans made)
    obtain ⟨last, resting, extended⟩ := inductionHypothesis later there left.symm
    refine ⟨last, resting, ?_⟩
    rw [extended, logged, List.append_assoc]
    rfl

theorem rests (step : Nat) (resting : Resting (sim half initial step)) :
    ∀ later, step ≤ later → Resting (sim half initial later) ∧
      ∃ count, tapLog half initial later =
        tapLog half initial step ++ List.replicate count (.visit .runTestIdle) := by
  intro later ordered
  induction later, ordered using Nat.le_induction with
  | base => exact ⟨resting, 0, (List.append_nil _).symm⟩
  | succ later ordered inductionHypothesis =>
    obtain ⟨there, count, logged⟩ := inductionHypothesis
    obtain ⟨after, more, made⟩ := resting_next there
    refine ⟨after, count + more, ?_⟩
    rw [tapLog_succ, logged, made, List.append_assoc, List.replicate_append_replicate]

/-- Up to `step` the driver has not moved. -/
structure Waits (half : Nat) (initial : Sim) (step : Nat) : Prop where
  reset : Reset (sim half initial step)
  seq : (sim half initial step).seq = initial.seq
  leads : ∀ cycle ∈ tapLog half initial step, Lead cycle

theorem Waits.leads_append {step : Nat} (waits : Waits half initial step) {cycle : Cycle}
    (lead : Lead cycle) : ∀ made ∈ tapLog half initial step ++ [cycle], Lead made := by
  intro made member
  obtain before | rfl := List.mem_append.mp member |>.imp_right List.mem_singleton.mp
  · exact waits.leads made before
  · exact lead

theorem waits_succ {step : Nat} (waits : Waits half initial step)
    (still : ¬ DriverFalls half (sim half initial step)) : Waits half initial (step + 1) := by
  obtain ⟨after, kept, _, made⟩ := reset_next waits.reset still
  refine ⟨after, kept.trans waits.seq, fun cycle member => ?_⟩
  rw [tapLog_succ, List.mem_append, Option.mem_toList] at member
  exact member.elim (waits.leads cycle) (made cycle)

/-- The driver waits, or there was a first move. -/
theorem waits_or_fell (start : Reset initial) (step : Nat) :
    (Waits half initial step ∧
        ∀ earlier, earlier < step → ¬ DriverFalls half (sim half initial earlier)) ∨
      ∃ first, first < step ∧ Waits half initial first ∧
        DriverFalls half (sim half initial first) := by
  induction step with
  | zero => exact Or.inl ⟨⟨start, rfl, nofun⟩, nofun⟩
  | succ step inductionHypothesis =>
    obtain ⟨waits, never⟩ | ⟨first, before, fell⟩ := inductionHypothesis
    · by_cases falls : DriverFalls half (sim half initial step)
      · exact Or.inr ⟨step, Nat.lt_succ_self step, waits, falls⟩
      · refine Or.inl ⟨waits_succ waits falls, fun earlier bound => ?_⟩
        obtain before | rfl := Nat.lt_succ_iff_lt_or_eq.mp bound
        · exact never earlier before
        · exact falls
    · exact Or.inr ⟨first, Nat.lt_succ_of_lt before, fell⟩

theorem inStep_of_fell {first : Nat} (waits : Waits half initial first)
    (falls : DriverFalls half (sim half initial first)) :
    ∀ step, first < step → InStep (sim half initial step) := by
  intro step after
  induction step, after using Nat.le_induction with
  | base => exact (reset_fall waits.reset falls).1
  | succ step _ inductionHypothesis => exact next_inStep inductionHypothesis

/-- With transactions in the queue the driver moves within the first period. -/
theorem exists_fall_within (positive : 0 < half) (start : Reset initial)
    (busy : initial.seq ≠ []) : ∃ first, first ≤ 2 * half ∧ Waits half initial first ∧
      DriverFalls half (sim half initial first) := by
  obtain ⟨edge, later, soon, toggles, high⟩ := exists_edge_within positive initial 1 true
  obtain ⟨before, rfl⟩ := Nat.exists_eq_succ_of_ne_zero (Nat.one_le_iff_ne_zero.mp later)
  obtain ⟨waits, never⟩ | ⟨first, earlier, waits, falls⟩ := waits_or_fell start (before + 1)
  · -- the call before told the driver the level of TCK
    have waited : Waits half initial before := by
      obtain ⟨waited, _⟩ | ⟨first, earlier, _, falls⟩ := waits_or_fell start before
      · exact waited
      · exact absurd falls (never first (Nat.lt_succ_of_lt earlier))
    have called : (sim half initial before).seq ≠ [] := waited.seq.trans_ne busy
    have past := (reset_next waited.reset (never before (Nat.lt_succ_self before))).2.2.1 called
    refine ⟨before + 1, by omega, waits, waits.seq.trans_ne busy, past.trans high, ?_⟩
    rw [clock_toggle toggles]
    exact (congrArg Bool.not high).trans Bool.not_true
  · exact ⟨first, by omega, waits, falls⟩

/-- All transactions are delivered, after cycles that the TAP makes before. -/
theorem exists_delivered (positive : 0 < half) (start : Reset initial) :
    ∃ lead last, (∀ cycle ∈ lead, Lead cycle) ∧ Resting (sim half initial last) ∧
      tapLog half initial last = lead ++ initial.seq.flatMap deliver := by
  by_cases busy : initial.seq = []
  · -- with nothing to deliver the first rising edge takes the TAP to Run-Test/Idle
    have still : ∀ step, Waits half initial step := by
      intro step
      obtain ⟨waits, _⟩ | ⟨first, _, waits, falls⟩ := waits_or_fell start step
      · exact waits
      · exact absurd (waits.seq.trans busy) falls.called
    obtain ⟨edge, _, _, toggles, low⟩ := exists_edge_within positive initial 0 false
    have resting : Resting (sim half initial (edge + 1)) :=
      reset_rise (still edge).reset ((still edge).seq.trans busy) toggles low
    refine ⟨_, edge + 1, (still (edge + 1)).leads, resting, ?_⟩
    rw [busy]
    exact (List.append_nil _).symm
  · obtain ⟨first, _, waits, falls⟩ := exists_fall_within positive start busy
    obtain ⟨inStep, out, cycle, lead, waiting⟩ := reset_fall waits.reset falls
    obtain ⟨last, resting, logged⟩ := reaches_done positive _ (first + 1) inStep waiting
    refine ⟨tapLog half initial first ++ [cycle], last, waits.leads_append lead, resting, ?_⟩
    rw [logged, tapLog_succ, out, waits.seq, List.append_assoc]
    simp

end Run

/-! ## Delivery -/

/-- At every falling edge after the driver's first the driver is where the TAP is, and in the end the
TAP has made the cycles of all transactions, in the order of the queue, and besides those only
cycles in Test-Logic-Reset and Run-Test/Idle before the first and after the last of them. -/
structure Delivers (half : Nat) (initial : Sim) : Prop where
  inStep : ∀ first step, first < step → DriverFalls half (sim half initial first) →
    (sim half initial step).top.tck = true → (sim half initial (step + 1)).top.tck = false →
      (sim half initial step).driver.state = (sim half initial step).tap
  delivered : ∃ lead last, (∀ cycle ∈ lead, Lead cycle) ∧ ∀ step, last ≤ step →
    (sim half initial step).seq = [] ∧ ∃ count, tapLog half initial step =
      lead ++ initial.seq.flatMap deliver ++ List.replicate count (.visit .runTestIdle)

theorem delivers {half : Nat} {initial : Sim} (positive : 0 < half) (start : Reset initial) :
    Delivers half initial where
  inStep := by
    intro first step after falls high _
    obtain ⟨_, never⟩ | ⟨moved, before, waits, moves⟩ := waits_or_fell start step
    · exact absurd falls (never first after)
    · have state := (inStep_of_fell waits moves step before).state
      rwa [high, if_pos rfl] at state
  delivered := by
    obtain ⟨lead, last, leads, resting, logged⟩ := exists_delivered positive start
    refine ⟨lead, last, leads, fun step ordered => ?_⟩
    obtain ⟨there, count, after⟩ := rests last resting step ordered
    exact ⟨there.seq, count, logged ▸ after⟩

/-- Two transactions, one for each register; the clock is low and the driver expects it high. -/
def twoScans : Sim where
  time := 100
  top := ⟨false, false, false⟩
  driver := ⟨true, false, 0, 0, .testLogicReset⟩
  seq := [⟨.ir, 1, 5⟩, ⟨.dr, 0, 32⟩]
  tap := .testLogicReset

theorem delivers_twoScans : Delivers 10 twoScans :=
  delivers (by decide) ⟨rfl, rfl, rfl, Or.inl rfl, by
    simp only [twoScans, List.forall_mem_cons]
    exact ⟨⟨by decide, by decide⟩, ⟨by decide, by decide⟩, nofun⟩⟩

end IbexWb.Jtag
