import Mathlib.Data.List.Nodup
import Mathlib.Data.List.Perm.Subperm
import Mathlib.Tactic.Common

/-!
# FirstOccurrence — a list without its repetitions

`FirstOccurrences l u` says that `u` has the entries of `l` in the order in which each of them comes
up first.  There is no other such list (`FirstOccurrences.unique`), it has no duplicates, and when
`l` grows at its end, so does `u` (`FirstOccurrences.mono`).

A loop that appends the entries it has not met yet arrives at `u`: `append_old` and `append_new` are
its two turns, and `FirstOccurrences.foldl` is the whole loop.
-/

namespace TpuSender
namespace Library

variable {α : Type*} [DecidableEq α]

structure FirstOccurrences (l u : List α) : Prop where
  mem_iff : ∀ a, a ∈ u ↔ a ∈ l
  ordered : u.Pairwise fun a b => l.idxOf a < l.idxOf b

namespace FirstOccurrences

variable {l m u v : List α} {a : α}

theorem nil : FirstOccurrences ([] : List α) [] :=
  { mem_iff := fun _ => Iff.rfl
    ordered := List.Pairwise.nil }

theorem nodup (h : FirstOccurrences l u) : u.Nodup := by
  refine h.ordered.imp ?_
  intro a b hlt hsame
  subst hsame
  exact Nat.lt_irrefl _ hlt

theorem length_le (h : FirstOccurrences l u) : u.length ≤ l.length := by
  have hsubset : u ⊆ l := fun a ha => (h.mem_iff a).1 ha
  exact (List.subperm_of_subset h.nodup hsubset).length_le

/-- The order of first occurrence leaves no choice. -/
theorem unique (h : FirstOccurrences l u) (h' : FirstOccurrences l v) : u = v := by
  have hperm : u.Perm v := by
    rw [List.perm_ext_iff_of_nodup h.nodup h'.nodup]
    intro a
    exact (h.mem_iff a).trans (h'.mem_iff a).symm
  refine List.Perm.eq_of_pairwise ?_ h.ordered h'.ordered hperm
  intro a b _ _ hab hba
  exact absurd hab (Nat.lt_asymm hba)

/-! ## The two turns of the loop -/

/-- More entries at the end leave the first occurrences where they are. -/
theorem ordered_append (h : FirstOccurrences l u) (m : List α) :
    u.Pairwise fun a b => (l ++ m).idxOf a < (l ++ m).idxOf b := by
  refine h.ordered.imp_of_mem ?_
  intro a b ha hb hlt
  rw [List.idxOf_append, List.idxOf_append, if_pos ((h.mem_iff a).1 ha),
    if_pos ((h.mem_iff b).1 hb)]
  exact hlt

theorem append_old (h : FirstOccurrences l u) (ha : a ∈ l) : FirstOccurrences (l ++ [a]) u := by
  refine
    { mem_iff := ?_
      ordered := h.ordered_append [a] }
  intro b
  rw [h.mem_iff, List.mem_append, List.mem_singleton]
  constructor
  · intro hb
    exact .inl hb
  · rintro (hb | rfl)
    · exact hb
    · exact ha

theorem append_new (h : FirstOccurrences l u) (ha : a ∉ l) :
    FirstOccurrences (l ++ [a]) (u ++ [a]) := by
  refine
    { mem_iff := ?_
      ordered := ?_ }
  · intro b
    rw [List.mem_append, List.mem_append, h.mem_iff]
  · rw [List.pairwise_append]
    refine ⟨h.ordered_append [a], List.pairwise_singleton _ a, ?_⟩
    -- the new entry comes up behind all of `l`
    intro b hb b' hb'
    cases List.mem_singleton.1 hb'
    have hmem : b ∈ l := (h.mem_iff b).1 hb
    rw [List.idxOf_append, List.idxOf_append, if_pos hmem, if_neg ha]
    calc
      l.idxOf b < l.length := List.idxOf_lt_length_of_mem hmem
      _ ≤ [a].idxOf a + l.length := Nat.le_add_left _ _

/-! ## Whole lists -/

theorem exists_append (h : FirstOccurrences l u) (m : List α) :
    ∃ v, FirstOccurrences (l ++ m) (u ++ v) := by
  induction m generalizing l u with
  | nil =>
      refine ⟨[], ?_⟩
      rw [List.append_nil, List.append_nil]
      exact h
  | cons a m ih =>
      by_cases ha : a ∈ l
      · rcases ih (h.append_old ha) with ⟨v, hv⟩
        refine ⟨v, ?_⟩
        rw [List.append_cons]
        exact hv
      · rcases ih (h.append_new ha) with ⟨v, hv⟩
        refine ⟨a :: v, ?_⟩
        rw [List.append_cons l, List.append_cons u]
        exact hv

/-- What comes later only adds entries at the end. -/
theorem mono (h : FirstOccurrences l u) (h' : FirstOccurrences m v) (hle : l <+: m) : u <+: v := by
  rcases hle with ⟨rest, rfl⟩
  rcases h.exists_append rest with ⟨w, hw⟩
  exact ⟨w, hw.unique h'⟩

/-- The loop keeps the entries it has appended and the ones it has seen, which are the same. -/
theorem foldl_of_seen {push : List α × List α → α → List α × List α}
    (hpush : ∀ acc b, push acc b = if b ∈ acc.2 then acc else (acc.1 ++ [b], b :: acc.2))
    (h : FirstOccurrences l u) {seen : List α} (hseen : ∀ b, b ∈ seen ↔ b ∈ l) (m : List α) :
    FirstOccurrences (l ++ m) (m.foldl push (u, seen)).1 := by
  induction m generalizing l u seen with
  | nil =>
      rw [List.append_nil]
      exact h
  | cons a m ih =>
      rw [List.append_cons, List.foldl_cons, hpush]
      by_cases ha : a ∈ l
      · rw [if_pos ((hseen a).2 ha)]
        refine ih (h.append_old ha) ?_
        intro b
        exact ((hseen b).trans (h.mem_iff b).symm).trans ((h.append_old ha).mem_iff b)
      · rw [if_neg (mt (hseen a).1 ha)]
        refine ih (h.append_new ha) ?_
        intro b
        rw [List.mem_cons, List.mem_append, List.mem_singleton, hseen b, or_comm]

theorem foldl {push : List α × List α → α → List α × List α}
    (hpush : ∀ acc b, push acc b = if b ∈ acc.2 then acc else (acc.1 ++ [b], b :: acc.2))
    (l : List α) : FirstOccurrences l (l.foldl push ([], [])).1 :=
  nil.foldl_of_seen hpush (fun _ => Iff.rfl) l

end FirstOccurrences

end Library
end TpuSender
