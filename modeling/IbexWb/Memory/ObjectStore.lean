import Mathlib.Algebra.BigOperators.Group.List.Basic
import Mathlib.Algebra.GroupWithZero.Nat
import Mathlib.Tactic.Common

/-! # Objects in a memory

An object is a number of bytes, of which some may be indeterminate.  Objects are laid out one
behind another from some address on, so a write to one of them leaves the others alone.
-/

namespace IbexWb.Memory

structure Object where
  size : Nat
  /-- A byte is `none` until it is written. -/
  bytes : Nat → Option (BitVec 8)

def Object.write (object : Object) (offset : Nat) (byte : BitVec 8) : Object :=
  { object with bytes := Function.update object.bytes offset (some byte) }

/-- The memory has the object's bytes at an address. -/
def Object.Holds (object : Object) (memory : Nat → BitVec 8) (address : Nat) : Prop :=
  ∀ index byte, index < object.size → object.bytes index = some byte →
    memory (address + index) = byte

def extent (objects : List Object) : Nat := (objects.map Object.size).sum

def addresses : Nat → List Object → List Nat
  | _, [] => []
  | address, object :: rest => address :: addresses (address + object.size) rest

def Laid (memory : Nat → BitVec 8) : Nat → List Object → Prop
  | _, [] => True
  | address, object :: rest =>
    object.Holds memory address ∧ Laid memory (address + object.size) rest

theorem extent_cons (object : Object) (objects : List Object) :
    extent (object :: objects) = object.size + extent objects := List.sum_cons

theorem extent_append (objects : List Object) (object : Object) :
    extent (objects ++ [object]) = extent objects + object.size := by
  simp [extent]

theorem addresses_append (address : Nat) (objects : List Object) (object : Object) :
    addresses address (objects ++ [object]) =
      addresses address objects ++ [address + extent objects] := by
  induction objects generalizing address with
  | nil => rfl
  | cons first rest inductionHypothesis =>
    rw [List.cons_append, addresses, inductionHypothesis, addresses, extent_cons, Nat.add_assoc,
      List.cons_append]

theorem length_addresses (address : Nat) (objects : List Object) :
    (addresses address objects).length = objects.length := by
  induction objects generalizing address with
  | nil => rfl
  | cons first rest inductionHypothesis =>
    exact congrArg (· + 1) (inductionHypothesis (address + first.size))

variable {memory after : Nat → BitVec 8}

theorem Object.Holds.congr {object : Object} {address : Nat} (holds : object.Holds memory address)
    (same : ∀ index, index < object.size → after (address + index) = memory (address + index)) :
    object.Holds after address := fun index byte inside known =>
  (same index inside).trans (holds index byte inside known)

theorem Laid.congr {address : Nat} {objects : List Object} (laid : Laid memory address objects)
    (same : ∀ place, address ≤ place → place < address + extent objects →
      after place = memory place) : Laid after address objects := by
  induction objects generalizing address with
  | nil => trivial
  | cons first rest inductionHypothesis =>
    rw [extent_cons] at same
    refine ⟨laid.1.congr fun index inside => same _ (by omega) (by omega), ?_⟩
    exact inductionHypothesis laid.2 fun place above below => same place (by omega) (by omega)

theorem Laid.append {address : Nat} {objects : List Object} {object : Object}
    (laid : Laid memory address objects) (holds : object.Holds memory (address + extent objects)) :
    Laid memory address (objects ++ [object]) := by
  induction objects generalizing address with
  | nil => exact ⟨holds, trivial⟩
  | cons first rest inductionHypothesis =>
    rw [extent_cons, ← Nat.add_assoc] at holds
    exact ⟨laid.1, inductionHypothesis laid.2 holds⟩

/-- The object at an index, and where it is. -/
theorem Laid.get {address index place : Nat} {objects : List Object} {object : Object}
    (laid : Laid memory address objects) (found : objects[index]? = some object)
    (located : (addresses address objects)[index]? = some place) :
    object.Holds memory place ∧ address ≤ place ∧
      place + object.size ≤ address + extent objects := by
  induction objects generalizing address index with
  | nil => exact absurd found (by simp)
  | cons first rest inductionHypothesis =>
    rw [extent_cons]
    cases index with
    | zero =>
      obtain rfl := Option.some.inj found
      obtain rfl := Option.some.inj located
      exact ⟨laid.1, Nat.le_refl _, by omega⟩
    | succ index =>
      obtain ⟨holds, above, below⟩ := inductionHypothesis laid.2 found located
      exact ⟨holds, by omega, by omega⟩

/-- A write to one of the objects. -/
theorem Laid.write {address index place offset : Nat} {objects : List Object} {object : Object}
    (laid : Laid memory address objects) (found : objects[index]? = some object)
    (located : (addresses address objects)[index]? = some place) (inside : offset < object.size)
    (byte : BitVec 8) : Laid (Function.update memory (place + offset) byte) address
      (objects.modify index (Object.write · offset byte)) := by
  induction objects generalizing address index with
  | nil => exact absurd found (by simp)
  | cons first rest inductionHypothesis =>
    cases index with
    | zero =>
      obtain rfl := Option.some.inj found
      obtain rfl := Option.some.inj located
      refine ⟨fun other value within known => ?_, laid.2.congr fun other above _ => ?_⟩
      · replace known : Function.update first.bytes offset (some byte) other = some value := known
        by_cases same : other = offset
        · subst same
          rw [Function.update_self] at known ⊢
          exact Option.some.inj known
        · rw [Function.update_of_ne same] at known
          rw [Function.update_of_ne (by omega)]
          exact laid.1 other value within known
      · exact Function.update_of_ne (by omega) _ _
    | succ index =>
      obtain ⟨_, above, _⟩ := laid.2.get found located
      refine ⟨laid.1.congr fun other within => ?_, inductionHypothesis laid.2 found located⟩
      exact Function.update_of_ne (by omega) _ _

theorem extent_modify (objects : List Object) (index offset : Nat) (byte : BitVec 8) :
    extent (objects.modify index (Object.write · offset byte)) = extent objects := by
  induction objects generalizing index with
  | nil => cases index <;> rfl
  | cons first rest inductionHypothesis =>
    cases index with
    | zero => rfl
    | succ index =>
      rw [List.modify_succ_cons, extent_cons, extent_cons, inductionHypothesis]

theorem addresses_modify (address : Nat) (objects : List Object) (index offset : Nat)
    (byte : BitVec 8) : addresses address (objects.modify index (Object.write · offset byte)) =
      addresses address objects := by
  induction objects generalizing address index with
  | nil => cases index <;> rfl
  | cons first rest inductionHypothesis =>
    cases index with
    | zero => rfl
    | succ index =>
      rw [List.modify_succ_cons, addresses, addresses, inductionHypothesis]

end IbexWb.Memory
