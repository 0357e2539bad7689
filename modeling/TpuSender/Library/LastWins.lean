import TpuSender.Library.Machine
import Mathlib.Logic.Function.Basic

/-!
# LastWins — values that stay until they are overwritten

`lastOf f l` is the last value that `f` finds in `l`.  A component of a machine's state that each
step either overwrites with what was observed or leaves alone is, after any run, the last value
found in the run's history, or what it was at the start (`Machine.run_lastOf`).

A map that pairs are inserted into one after the other is the same thing key by key: under each key
it holds the last value inserted there (`foldl_update`).
-/

namespace TpuSender
namespace Library

variable {α β : Type*}

/-- The last value that `f` finds. -/
def lastOf (f : α → Option β) (l : List α) : Option β := (l.filterMap f).getLast?

theorem lastOf_singleton (f : α → Option β) (a : α) : lastOf f [a] = f a := by
  cases hfound : f a with
  | none => simp [lastOf, hfound]
  | some b => simp [lastOf, hfound]

theorem lastOf_append (f : α → Option β) (l m : List α) :
    lastOf f (l ++ m) = (lastOf f m).or (lastOf f l) := by
  rw [lastOf, List.filterMap_append, List.getLast?_append]
  rfl

/-- What is found later replaces what was found before. -/
theorem getD_lastOf_append (f : α → Option β) (l m : List α) (b : β) :
    (lastOf f (l ++ m)).getD b = (lastOf f m).getD ((lastOf f l).getD b) := by
  rw [lastOf_append]
  cases lastOf f m with
  | none => rfl
  | some found => rfl

/-- The last value is found in an entry that has nothing to be found behind it. -/
theorem lastOf_eq_some_iff {f : α → Option β} {l : List α} {b : β} :
    lastOf f l = some b ↔
      ∃ before a after, l = before ++ a :: after ∧ f a = some b ∧ ∀ x ∈ after, f x = none := by
  rw [lastOf, List.getLast?_filterMap, List.findSome?_eq_some_iff]
  constructor
  · rintro ⟨later, a, earlier, heq, hfound, hnone⟩
    refine ⟨earlier.reverse, a, later.reverse, ?_, hfound, ?_⟩
    · simpa using congrArg List.reverse heq
    · intro x hx
      exact hnone x (List.mem_reverse.1 hx)
  · rintro ⟨before, a, after, rfl, hfound, hnone⟩
    refine ⟨after.reverse, a, before.reverse, by simp, hfound, ?_⟩
    intro x hx
    exact hnone x (List.mem_reverse.1 hx)

theorem lastOf_filterMap {γ : Type*} (f : β → Option γ) (g : α → Option β) (l : List α) :
    lastOf f (l.filterMap g) = lastOf (fun a => (g a).bind f) l := by
  rw [lastOf, List.filterMap_filterMap]
  rfl

/-! ## Maps -/

section Maps

variable {κ : Type*} [DecidableEq κ]

/-- What a pair has for a key. -/
def valueAt (k : κ) (entry : κ × β) : Option β := if entry.1 = k then some entry.2 else none

theorem foldl_update (entries : List (κ × β)) (map : κ → Option β) (k : κ) :
    entries.foldl (fun (m : κ → Option β) entry => Function.update m entry.1 (some entry.2)) map k =
      (lastOf (valueAt k) entries).or (map k) := by
  induction entries generalizing map with
  | nil => rfl
  | cons entry entries ih =>
      have hhead : Function.update map entry.1 (some entry.2) k =
          (valueAt k entry).or (map k) := by
        by_cases hkey : entry.1 = k
        · subst hkey
          simp [valueAt]
        · simp [valueAt, hkey, Function.update_of_ne (Ne.symm hkey)]
      calc
        _ = (lastOf (valueAt k) entries).or ((valueAt k entry).or (map k)) := by
            rw [List.foldl_cons, ih, hhead]
        _ = ((lastOf (valueAt k) entries).or (valueAt k entry)).or (map k) :=
            Option.or_assoc.symm
        _ = (lastOf (valueAt k) (entry :: entries)).or (map k) := by
            rw [← List.singleton_append, lastOf_append, lastOf_singleton]

end Maps

namespace Machine

variable {State Label Obs : Type*} (M : Machine State Label)

/-- A component that every step overwrites with the last value it finds in its observations, if
there is one, holds after a run the last value found in the history. -/
theorem run_lastOf {observe : State → Label → List Obs} {f : Obs → Option β} (g : State → β)
    {I : State → Prop} (hinv : ∀ s l t, I s → M.next s l = some t → I t)
    (hstep : ∀ s l t, I s → M.next s l = some t → g t = (lastOf f (observe s l)).getD (g s))
    {s t : State} {ls : List Label} (hs : I s) (hrun : M.run s ls = some t) :
    g t = (lastOf f (M.history observe s ls)).getD (g s) := by
  have hall : M.Steps (fun _ _ => True) s ls := Steps.of_labels M fun _ _ => trivial
  have hboth : I t ∧ g t = (lastOf f ([] ++ M.history observe s ls)).getD (g s) := by
    refine M.run_history_invariant
      (I := fun past u => I u ∧ g u = (lastOf f past).getD (g s)) ?_ ⟨hs, rfl⟩ hall hrun
    rintro past u l v ⟨hu, hvalue⟩ _ hnext
    refine ⟨hinv u l v hu hnext, ?_⟩
    rw [getD_lastOf_append, ← hvalue]
    exact hstep u l v hu hnext
  exact hboth.2

end Machine

end Library
end TpuSender
