import Mathlib.Data.List.Induction
import Mathlib.Logic.Function.Basic
import Mathlib.Tactic.Common

/-! # A memory loaded by a list of writes

`load` carries out writes in their order: an address that is not written has no value, and of
several writes to an address the last one counts.  `burst` are writes to consecutive addresses.
-/

namespace IbexWb.Memory

variable {α : Type}

def load (writes : List (Nat × α)) : Nat → Option α :=
  writes.foldl (fun memory write => Function.update memory write.1 (some write.2)) fun _ => none

def burst : Nat → List α → List (Nat × α)
  | _, [] => []
  | address, value :: rest => (address, value) :: burst (address + 1) rest

theorem load_append_singleton (writes : List (Nat × α)) (write : Nat × α) :
    load (writes ++ [write]) = Function.update (load writes) write.1 (some write.2) := by
  rw [load, List.foldl_append]
  rfl

theorem load_append (first second : List (Nat × α)) (address : Nat) :
    load (first ++ second) address = (load second address).or (load first address) := by
  induction second using List.reverseRecOn with
  | nil => rw [List.append_nil]; rfl
  | append_singleton writes write inductionHypothesis =>
    rw [← List.append_assoc, load_append_singleton, load_append_singleton]
    by_cases here : address = write.1
    · rw [here, Function.update_self, Function.update_self]
      rfl
    · rw [Function.update_of_ne here, Function.update_of_ne here, inductionHypothesis]

theorem load_burst (base : Nat) (values : List α) (address : Nat) :
    load (burst base values) address = if base ≤ address then values[address - base]? else none := by
  induction values generalizing base with
  | nil => simp [burst, load]
  | cons value rest inductionHypothesis =>
    have first : burst base (value :: rest) = [(base, value)] ++ burst (base + 1) rest := rfl
    have single : load [(base, value)] address = if address = base then some value else none := by
      by_cases here : address = base <;> simp [load, here]
    rw [first, load_append, inductionHypothesis, single]
    by_cases before : address < base
    · rw [if_neg (by omega), if_neg (by omega), if_neg (by omega)]
      rfl
    · by_cases here : address = base
      · rw [if_neg (by omega), if_pos here, if_pos (by omega), here, Nat.sub_self]
        rfl
      · have index : address - base = address - (base + 1) + 1 := by omega
        rw [if_pos (by omega), if_neg here, if_pos (by omega), index, List.getElem?_cons_succ,
          Option.or_none]

section Parts

variable {ι : Type} (writes : ι → List (Nat × α)) {parts : List ι} {address : Nat}

theorem load_flatMap_eq_none : load (parts.flatMap writes) address = none ↔
    ∀ part : Fin parts.length, load (writes (parts.get part)) address = none := by
  induction parts with
  | nil => exact iff_of_true rfl nofun
  | cons part rest inductionHypothesis =>
    rw [List.flatMap_cons, load_append, Option.or_eq_none_iff, inductionHypothesis]
    constructor
    · rintro ⟨others, first⟩ index
      exact Fin.cases first others index
    · exact fun all => ⟨fun index => all index.succ, all ⟨0, Nat.succ_pos _⟩⟩

/-- The value at an address is that of the last part that writes it. -/
theorem load_flatMap_eq_some {value : α} : load (parts.flatMap writes) address = some value ↔
    ∃ part : Fin parts.length, load (writes (parts.get part)) address = some value ∧
      ∀ later, part < later → load (writes (parts.get later)) address = none := by
  induction parts with
  | nil => exact iff_of_false nofun fun ⟨part, _⟩ => part.elim0
  | cons part rest inductionHypothesis =>
    rw [List.flatMap_cons, load_append, Option.or_eq_some_iff, inductionHypothesis,
      load_flatMap_eq_none]
    constructor
    · rintro (⟨last, written, final⟩ | ⟨others, first⟩)
      · refine ⟨last.succ, written, fun later after => ?_⟩
        induction later using Fin.cases with
        | zero => exact absurd after (Fin.not_lt_zero _)
        | succ later => exact final later (Fin.succ_lt_succ_iff.mp after)
      · refine ⟨⟨0, Nat.succ_pos _⟩, first, fun later after => ?_⟩
        induction later using Fin.cases with
        | zero => exact absurd after (Nat.lt_irrefl 0)
        | succ later => exact others later
    · rintro ⟨last, written, final⟩
      induction last using Fin.cases with
      | zero => exact Or.inr ⟨fun later => final later.succ (Fin.succ_pos later), written⟩
      | succ last =>
        exact Or.inl ⟨last, written, fun later after =>
          final later.succ (Fin.succ_lt_succ_iff.mpr after)⟩

end Parts

end IbexWb.Memory
