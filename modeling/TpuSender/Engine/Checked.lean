import Mathlib.Tactic.Common

/-!
# Checked — slots, `u64` sums and the panics of the engine

Slots are `u64` values.  They are kept as natural numbers here: a plain `+` of the source is
`checkedAdd`, which panics when the sum leaves the `u64` range, and `saturating_add` and
`saturating_sub` stay at the ends of the range.
-/

namespace TpuSender
namespace Engine

def u64Max : Nat := UInt64.size - 1

/-- Why a task of the engine stops. -/
inductive Panic
  | arithmeticOverflow
  | assertionFailed
  | indexOutOfBounds
  | unwrapOnNone
  deriving DecidableEq, Repr

def checkedAdd (a b : Nat) : Except Panic Nat :=
  if a + b ≤ u64Max then .ok (a + b) else .error .arithmeticOverflow

def saturatingAdd (a b : Nat) : Nat := min (a + b) u64Max

def saturatingSub (a b : Nat) : Nat := a - b

/-- Indexing as the source does it, `v[i]`. -/
def index {α : Type} (l : List α) (i : Nat) : Except Panic α :=
  match l[i]? with
  | some x => .ok x
  | none => .error .indexOutOfBounds

/-- A computation has one result. -/
theorem ok_unique {α : Type} {x : Except Panic α} {a b : α} (ha : x = .ok a) (hb : x = .ok b) :
    a = b := by
  have heq : Except.ok a = (Except.ok b : Except Panic α) := ha.symm.trans hb
  simpa using heq

theorem checkedAdd_of_le {a b : Nat} (h : a + b ≤ u64Max) : checkedAdd a b = .ok (a + b) := by
  simp [checkedAdd, h]

theorem checkedAdd_of_lt {a b : Nat} (h : u64Max < a + b) :
    checkedAdd a b = .error .arithmeticOverflow := by
  have hnot : ¬ a + b ≤ u64Max := by omega
  simp [checkedAdd, hnot]

theorem checkedAdd_eq_ok_iff {a b c : Nat} :
    checkedAdd a b = .ok c ↔ a + b ≤ u64Max ∧ c = a + b := by
  by_cases h : a + b ≤ u64Max
  · simp [checkedAdd, h, eq_comm]
  · simp [checkedAdd, h]

theorem index_of_lt {α : Type} {l : List α} {i : Nat} (h : i < l.length) :
    index l i = .ok (l.get ⟨i, h⟩) := by
  simp [index, h]

end Engine
end TpuSender
