import IbexWb.Soc.AddressMap

/-! # Delivery and response on the shared bus

`gnt1` and `ss1` are loaded by strobes only, so they describe the last strobe on the bus, however
long ago.  With slaves that answer in the next cycle, an answer always finds them loaded by the
strobe it belongs to: a cycle without a strobe is followed by a cycle without an answer.  The read
data is not gated by an answer: after a cycle without a strobe the owner of the last strobe still
sees what the slave addressed by it drives.
-/

namespace IbexWb.SharedBus

open IbexWb.Synchronous

variable {numm nums : Nat} (params : Params nums)

section Run

variable (wbm : Nat → Fin numm → WbMaster) (wbs : Nat → Fin nums → WbSlave)

/-- The last cycle up to `cycle` with a strobe on the bus. -/
def lastStrobe : (cycle : Nat) → Option Nat
  | 0 => if (request (wbm 0)).strobes then some 0 else none
  | cycle + 1 => if (request (wbm (cycle + 1))).strobes then some (cycle + 1) else lastStrobe cycle

/-- Master `m` owns the bus and strobes an address of region `i`. -/
def Requests (cycle : Nat) (m : Fin numm) (i : Fin nums) : Prop :=
  Owner (wbm cycle) m ∧ (wbm cycle m).stb = true ∧ params.Covers i (wbm cycle m).adr

instance (cycle : Nat) (m : Fin numm) (i : Fin nums) : Decidable (Requests params wbm cycle m i) :=
  inferInstanceAs (Decidable (_ ∧ _))

/-- The slaves never stall, and answer a strobe in the next cycle by one of `ack` and `err`. -/
structure NextCycleSlaves : Prop where
  stall : ∀ cycle i, (wbs cycle i).stall = false
  initial : ∀ i, (wbs 0 i).ack = false ∧ (wbs 0 i).err = false
  answer : ∀ cycle i, (toSlave params (wbm cycle) i).strobes = true →
    ((wbs (cycle + 1) i).ack ^^ (wbs (cycle + 1) i).err) = true
  quiet : ∀ cycle i, (toSlave params (wbm cycle) i).strobes = false →
    (wbs (cycle + 1) i).ack = false ∧ (wbs (cycle + 1) i).err = false

def masterPort (cycle : Nat) (m : Fin numm) : WbSlave :=
  toMaster (registers params wbm wbs cycle) (wbm cycle) (wbs cycle) m

/-- The request of `cycle` is delivered to one slave and its response to the requester alone. -/
structure Routes (cycle : Nat) : Prop where
  single : ∀ i j, (toSlave params (wbm cycle) i).strobes = true →
    (toSlave params (wbm cycle) j).strobes = true → i = j
  delivered : ∀ i, (toSlave params (wbm cycle) i).strobes = true ↔
    ∃ m, Requests params wbm cycle m i
  unchanged : ∀ m i, Requests params wbm cycle m i → toSlave params (wbm cycle) i = wbm cycle m
  accepted : ∀ m i, Requests params wbm cycle m i → (masterPort params wbm wbs cycle m).stall = false
  answered : ∀ m,
    (masterPort params wbm wbs (cycle + 1) m).ack = true ∨
        (masterPort params wbm wbs (cycle + 1) m).err = true ↔
      ∃ i, Requests params wbm cycle m i
  response : ∀ m i, Requests params wbm cycle m i →
    (masterPort params wbm wbs (cycle + 1) m).ack = (wbs (cycle + 1) i).ack ∧
      (masterPort params wbm wbs (cycle + 1) m).err = (wbs (cycle + 1) i).err ∧
      (masterPort params wbm wbs (cycle + 1) m).datS = (wbs (cycle + 1) i).datS

/-- The masters without a response in the cycle after `cycle` see read data zero. -/
def OthersSeeZero (cycle : Nat) : Prop :=
  ∀ m, (¬ ∃ i, Requests params wbm cycle m i) → (masterPort params wbm wbs (cycle + 1) m).datS = 0

/-- Master `m` made the last strobe up to `cycle`, to region `i`. -/
def LastRequest (cycle : Nat) (m : Fin numm) (i : Fin nums) : Prop :=
  ∃ last, lastStrobe wbm cycle = some last ∧ Requests params wbm last m i

/-- A master without a response in the cycle after `cycle` sees what the slave of its last request
drives if the last strobe on the bus was that request, and zero otherwise. -/
def OthersSeeLastOrZero (cycle : Nat) : Prop :=
  ∀ m, (¬ ∃ i, Requests params wbm cycle m i) →
    (∀ i, LastRequest params wbm cycle m i →
      (masterPort params wbm wbs (cycle + 1) m).datS = (wbs (cycle + 1) i).datS) ∧
    ((¬ ∃ i, LastRequest params wbm cycle m i) →
      (masterPort params wbm wbs (cycle + 1) m).datS = 0)

end Run

/-! ## The registers in a run -/

section Registers

variable {wbm : Nat → Fin numm → WbMaster}

theorem lastStrobe_of_strobe {cycle : Nat} (strobe : (request (wbm cycle)).strobes = true) :
    lastStrobe wbm cycle = some cycle := by
  cases cycle <;> simp [lastStrobe, strobe]

theorem lastStrobe_spec {cycle last : Nat} (found : lastStrobe wbm cycle = some last) :
    last ≤ cycle ∧ (request (wbm last)).strobes = true := by
  induction cycle with
  | zero =>
    by_cases strobe : (request (wbm 0)).strobes = true
    · rw [lastStrobe_of_strobe strobe] at found
      obtain rfl := Option.some.inj found
      exact ⟨le_rfl, strobe⟩
    · simp [lastStrobe, strobe] at found
  | succ cycle inductionHypothesis =>
    by_cases strobe : (request (wbm (cycle + 1))).strobes = true
    · rw [lastStrobe_of_strobe strobe] at found
      obtain rfl := Option.some.inj found
      exact ⟨le_rfl, strobe⟩
    · rw [lastStrobe, if_neg strobe] at found
      obtain ⟨ordered, happened⟩ := inductionHypothesis found
      exact ⟨Nat.le_succ_of_le ordered, happened⟩

/-- `gnt1` and `ss1` are the arbiter's and the decoder's choice for the last strobe. -/
theorem registers_succ (wbs : Nat → Fin nums → WbSlave) (cycle : Nat) :
    registers params wbm wbs (cycle + 1) =
      match lastStrobe wbm cycle with
      | none => State.reset
      | some last => ⟨gnt (wbm last), ss params (request (wbm last)).adr⟩ := by
  induction cycle with
  | zero =>
    show next params State.reset (wbm 0) = _
    by_cases strobe : (request (wbm 0)).strobes = true
    · rw [lastStrobe_of_strobe strobe, next_of_strobe params _ _ strobe]
    · rw [lastStrobe, if_neg strobe, next_of_idle params _ _ (Bool.not_eq_true _ ▸ strobe)]
  | succ cycle inductionHypothesis =>
    show next params (registers params wbm wbs (cycle + 1)) (wbm (cycle + 1)) = _
    by_cases strobe : (request (wbm (cycle + 1))).strobes = true
    · rw [lastStrobe_of_strobe strobe, next_of_strobe params _ _ strobe]
    · rw [lastStrobe, if_neg strobe, next_of_idle params _ _ (Bool.not_eq_true _ ▸ strobe),
        inductionHypothesis]

theorem registers_of_strobe (wbs : Nat → Fin nums → WbSlave) {cycle : Nat}
    (strobe : (request (wbm cycle)).strobes = true) :
    registers params wbm wbs (cycle + 1) = ⟨gnt (wbm cycle), ss params (request (wbm cycle)).adr⟩ := by
  rw [registers_succ, lastStrobe_of_strobe strobe]

end Registers

/-! ## Requests -/

section Requests

variable {params} {wbm : Nat → Fin numm → WbMaster} {wbs : Nat → Fin nums → WbSlave}

theorem Requests.strobes {cycle : Nat} {m : Fin numm} {i : Fin nums}
    (requests : Requests params wbm cycle m i) : (request (wbm cycle)).strobes = true :=
  request_strobes.mpr ⟨m, requests.1, requests.2.1⟩

theorem Requests.selected (below : params.BelowTop) {cycle : Nat} {m : Fin numm} {i : Fin nums}
    (requests : Requests params wbm cycle m i) : ss params (wbm cycle m).adr i = true :=
  below.ss_iff.mpr requests.2.2

theorem Requests.unique (disjoint : params.Disjoint) {cycle : Nat} {m n : Fin numm} {i j : Fin nums}
    (left : Requests params wbm cycle m i) (right : Requests params wbm cycle n j) :
    m = n ∧ i = j := by
  obtain rfl := left.1.unique right.1
  exact ⟨rfl, disjoint i j _ left.2.2 right.2.2⟩

theorem strobes_iff (below : params.BelowTop) {cycle : Nat} {i : Fin nums} :
    (toSlave params (wbm cycle) i).strobes = true ↔ ∃ m, Requests params wbm cycle m i := by
  rw [toSlave_strobes_iff]
  simp only [below.ss_iff, Requests]

/-! ## Responses -/

theorem NextCycleSlaves.strobed (slaves : NextCycleSlaves params wbm wbs) {cycle : Nat} {i : Fin nums}
    (answered : (wbs (cycle + 1) i).ack = true ∨ (wbs (cycle + 1) i).err = true) :
    (toSlave params (wbm cycle) i).strobes = true := by
  by_contra idle
  have quiet := slaves.quiet cycle i (Bool.not_eq_true _ ▸ idle)
  simp [quiet] at answered

theorem datS_of_lastStrobe (disjoint : params.Disjoint) (below : params.BelowTop)
    {cycle last : Nat} (found : lastStrobe wbm cycle = some last) {m : Fin numm} {i : Fin nums}
    (requests : Requests params wbm last m i) :
    (masterPort params wbm wbs (cycle + 1) m).datS = (wbs (cycle + 1) i).datS := by
  have selected := requests.selected below
  have routed := response_datS_of_oneHot (wbs (cycle + 1)) (disjoint.ss_oneHot selected)
  rw [masterPort, registers_succ, found]
  simp only [toMaster, gnt_eq_true.mpr requests.1, if_true, request_of_owner requests.1, routed]

theorem datS_of_others {cycle : Nat} {m : Fin numm} (below : params.BelowTop)
    (others : ∀ last i, lastStrobe wbm cycle = some last → ¬ Requests params wbm last m i) :
    (masterPort params wbm wbs (cycle + 1) m).datS = 0 := by
  rw [masterPort, registers_succ]
  cases found : lastStrobe wbm cycle with
  | none => rfl
  | some last =>
    obtain ⟨_, strobe⟩ := lastStrobe_spec found
    cases granted : gnt (wbm last) m with
    | false => simp [toMaster, granted]
    | true =>
      have owns := gnt_eq_true.mp granted
      rw [request_of_owner owns, WbMaster.strobes_eq_true] at strobe
      -- the strobe was for an address outside all regions
      have none (i : Fin nums) : ss params (wbm last m).adr i = false := by
        rw [← Bool.not_eq_true, below.ss_iff]
        exact fun covers => others last i found ⟨owns, strobe.2, covers⟩
      simp only [toMaster, granted, if_true, request_of_owner owns, response_datS_of_none _ none]

/-- A flag that only an answering slave raises is seen by the requester, from its slave. -/
theorem flag_iff (slaves : NextCycleSlaves params wbm wbs) (below : params.BelowTop)
    (flag : WbSlave → Bool)
    (answering : ∀ slave, flag slave = true → slave.ack = true ∨ slave.err = true)
    {cycle : Nat} {m : Fin numm} :
    ((registers params wbm wbs (cycle + 1)).gnt1 m = true ∧ ∃ j, flag (wbs (cycle + 1) j) = true) ↔
      ∃ i, Requests params wbm cycle m i ∧ flag (wbs (cycle + 1) i) = true := by
  constructor
  · intro seen
    -- the flag is live, so its strobe was in the cycle before and loaded `gnt1`
    obtain ⟨granted, i, raised⟩ := seen
    obtain ⟨owner, requests⟩ := (strobes_iff below).mp (slaves.strobed (answering _ raised))
    rw [registers_of_strobe params wbs requests.strobes] at granted
    obtain rfl := requests.1.unique (gnt_eq_true.mp granted)
    exact ⟨i, requests, raised⟩
  · intro driven
    obtain ⟨i, requests, raised⟩ := driven
    refine ⟨?_, i, raised⟩
    rw [registers_of_strobe params wbs requests.strobes]
    exact gnt_eq_true.mpr requests.1

theorem ack_iff (slaves : NextCycleSlaves params wbm wbs) (below : params.BelowTop) {cycle : Nat}
    {m : Fin numm} :
    (masterPort params wbm wbs (cycle + 1) m).ack = true ↔
      ∃ i, Requests params wbm cycle m i ∧ (wbs (cycle + 1) i).ack = true := by
  rw [masterPort, toMaster_ack]
  exact flag_iff slaves below WbSlave.ack fun _ => Or.inl

theorem err_iff (slaves : NextCycleSlaves params wbm wbs) (below : params.BelowTop) {cycle : Nat}
    {m : Fin numm} :
    (masterPort params wbm wbs (cycle + 1) m).err = true ↔
      ∃ i, Requests params wbm cycle m i ∧ (wbs (cycle + 1) i).err = true := by
  rw [masterPort, toMaster_err]
  exact flag_iff slaves below WbSlave.err fun _ => Or.inr

theorem requested_iff (disjoint : params.Disjoint) {cycle : Nat} {m : Fin numm} {i : Fin nums}
    (requests : Requests params wbm cycle m i) (flag : Fin nums → Bool) :
    (∃ j, Requests params wbm cycle m j ∧ flag j = true) ↔ flag i = true := by
  constructor
  · intro driven
    obtain ⟨j, other, raised⟩ := driven
    obtain ⟨_, rfl⟩ := requests.unique disjoint other
    exact raised
  · intro raised
    exact ⟨i, requests, raised⟩

theorem NextCycleSlaves.answers (slaves : NextCycleSlaves params wbm wbs) (below : params.BelowTop)
    {cycle : Nat} {m : Fin numm} {i : Fin nums} (requests : Requests params wbm cycle m i) :
    (wbs (cycle + 1) i).ack = true ∨ (wbs (cycle + 1) i).err = true := by
  have answer := slaves.answer cycle i ((strobes_iff below).mpr ⟨m, requests⟩)
  cases acked : (wbs (cycle + 1) i).ack with
  | true => exact Or.inl rfl
  | false => simpa [acked] using answer

theorem answered_iff (slaves : NextCycleSlaves params wbm wbs) (below : params.BelowTop) {cycle : Nat}
    (m : Fin numm) :
    (masterPort params wbm wbs (cycle + 1) m).ack = true ∨
        (masterPort params wbm wbs (cycle + 1) m).err = true ↔
      ∃ i, Requests params wbm cycle m i := by
  rw [ack_iff slaves below, err_iff slaves below]
  constructor
  · intro seen
    obtain ⟨i, requests, _⟩ | ⟨i, requests, _⟩ := seen
    · exact ⟨i, requests⟩
    · exact ⟨i, requests⟩
  · intro requested
    obtain ⟨i, requests⟩ := requested
    cases slaves.answers below requests with
    | inl acked => exact Or.inl ⟨i, requests, acked⟩
    | inr failed => exact Or.inr ⟨i, requests, failed⟩

theorem routes_of_nextCycle (slaves : NextCycleSlaves params wbm wbs) (disjoint : params.Disjoint)
    (below : params.BelowTop) (cycle : Nat) : Routes params wbm wbs cycle where
  single := by
    intro i j left right
    obtain ⟨_, leftRequests⟩ := (strobes_iff below).mp left
    obtain ⟨_, rightRequests⟩ := (strobes_iff below).mp right
    exact (leftRequests.unique disjoint rightRequests).2
  delivered := fun _ => strobes_iff below
  unchanged := fun _ _ requests =>
    toSlave_of_owner params requests.1 (requests.selected below)
  accepted := fun m _ requests =>
    (toMaster_stall _ _ _ m).mpr ⟨requests.1, slaves.stall cycle⟩
  answered := answered_iff slaves below
  response := by
    intro m i requests
    refine ⟨?_, ?_, datS_of_lastStrobe disjoint below (lastStrobe_of_strobe requests.strobes) requests⟩
    · rw [Bool.eq_iff_iff, ack_iff slaves below, requested_iff disjoint requests]
    · rw [Bool.eq_iff_iff, err_iff slaves below, requested_iff disjoint requests]

theorem othersSeeLastOrZero (disjoint : params.Disjoint) (below : params.BelowTop) (cycle : Nat) :
    OthersSeeLastOrZero params wbm wbs cycle := by
  intro m _
  constructor
  · intro i lastRequest
    obtain ⟨last, found, requests⟩ := lastRequest
    exact datS_of_lastStrobe disjoint below found requests
  · intro none
    apply datS_of_others below
    intro last i found requests
    exact none ⟨i, last, found, requests⟩

end Requests

/-- In every run with slaves that answer in the next cycle, requests and responses are routed as
they should be.  A master without a response reads zero, unless the last strobe on the bus was its
own: then it reads what the slave of that strobe drives. -/
theorem routes_requests (params : Params nums) (disjoint : params.Disjoint) (below : params.BelowTop)
    (wbm : Nat → Fin numm → WbMaster) (wbs : Nat → Fin nums → WbSlave)
    (slaves : NextCycleSlaves params wbm wbs) (cycle : Nat) :
    Routes params wbm wbs cycle ∧ OthersSeeLastOrZero params wbm wbs cycle :=
  ⟨routes_of_nextCycle slaves disjoint below cycle, othersSeeLastOrZero disjoint below cycle⟩

/-! ## A stale read -/

def readOnce (cycle : Nat) : Fin 1 → WbMaster :=
  fun _ => if cycle = 0 then ⟨true, true, false, 4, 15, 0⟩ else .idle

/-- The slave acknowledges it in cycle 1 and drives 42 all the time. -/
def answersOnce (cycle : Nat) : Fin 1 → WbSlave := fun _ => ⟨decide (cycle = 1), false, false, 42⟩

theorem answersOnce_nextCycle : NextCycleSlaves oneRegion readOnce answersOnce where
  stall := fun _ _ => rfl
  initial := fun _ => ⟨rfl, rfl⟩
  answer := by
    intro cycle i strobed
    cases cycle with
    | zero => rfl
    | succ cycle =>
      rw [toSlave_strobes, request_idle fun _ => rfl] at strobed
      exact absurd strobed.1 (by decide)
  quiet := by
    intro cycle i idle
    cases cycle with
    | zero => exact absurd idle (by revert i; decide)
    | succ cycle => exact ⟨rfl, rfl⟩

theorem oneRegion_disjoint : oneRegion.Disjoint := fun _ _ _ _ _ => Subsingleton.elim _ _

/-- The response in cycle 1, and what is left of it in cycle 2. -/
theorem routes_requests_once : (masterPort oneRegion readOnce answersOnce 1 0).datS = 42 ∧
    (masterPort oneRegion readOnce answersOnce 2 0).datS = 42 := by
  have routes := routes_requests oneRegion oneRegion_disjoint (by decide) readOnce answersOnce
    answersOnce_nextCycle
  have last : LastRequest oneRegion readOnce 1 0 0 := ⟨0, by decide, by decide⟩
  exact ⟨((routes 0).1.response 0 0 (by decide)).2.2, ((routes 1).2 0 (by decide)).1 0 last⟩

/-- No strobe in cycle 1, and the master sees 42 in cycle 2. -/
theorem readOnce_stale : NextCycleSlaves oneRegion readOnce answersOnce ∧
    ¬ OthersSeeZero oneRegion readOnce answersOnce 1 := by
  refine ⟨answersOnce_nextCycle, fun zero => ?_⟩
  have seen := zero 0 (by decide)
  exact absurd seen (by decide)

end IbexWb.SharedBus
