import Mathlib.Logic.Basic

/-!
# Cells in two tiers

A value under one key that may lie in a persistent tier, in an instance tier,
or in both. Readers look at the persistent tier first. A cell that holds a
value has no other value in either tier, so moving it changes no reader.
-/

structure Cell (α : Type*) where
  persistent : Option α := none
  inst : Option α := none

namespace Cell

variable {α : Type*} {x : Option α} {c : Cell α}

/-- The persistent value, else the one of the instance. -/
def read (c : Cell α) : Option α := c.persistent.or c.inst

/-- Only the instance has the value. -/
def inInstance (a : Option α) : Cell α := { inst := a }

/-- Only the persistent tier has the value. -/
def inPersistent (a : Option α) : Cell α := { persistent := a }

/-- The instance's value moves to the persistent tier. -/
def back (c : Cell α) : Cell α := inPersistent (c.inst.or c.persistent)

/-- Either tier has this value or nothing, and one of them has it. -/
structure Holds (x : Option α) (c : Cell α) : Prop where
  persistent : c.persistent = none ∨ c.persistent = x
  inst : c.inst = none ∨ c.inst = x
  read : c.read = x

@[simp] theorem read_inInstance (a : Option α) : (inInstance a).read = a := rfl

@[simp] theorem read_inPersistent (a : Option α) : (inPersistent a).read = a := by
  cases a <;> rfl

theorem holds_inInstance (x : Option α) : Holds x (inInstance x) := ⟨.inl rfl, .inr rfl, rfl⟩

theorem holds_inPersistent (x : Option α) : Holds x (inPersistent x) :=
  ⟨.inr rfl, .inl rfl, read_inPersistent x⟩

theorem Holds.back (h : Holds x c) : c.back = inPersistent x := by
  unfold Cell.back
  congr 1
  rcases h.inst with hinst | hinst
  · have hread := h.read
    unfold Cell.read at hread
    rw [hinst] at hread ⊢
    rwa [Option.none_or, ← Option.or_none (o := c.persistent)]
  · rw [hinst]
    cases x with
    | some a => rfl
    | none => exact h.persistent.elim id id

end Cell
