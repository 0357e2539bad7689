import Mathlib.Data.List.Sort
import Mathlib.Data.Fintype.Card
import Mathlib.Order.Bounds.Basic

/-!
# SortedRank — entries of a sorted copy, and how many entries lie on either side of them

Sorting forgets where an entry came from, so statements about the `k`-th entry of a sorted copy
are turned into counts over the original list:

* `succ_le_countP_le_sorted` and `length_sub_le_countP_sorted_le` — at least `k + 1` entries are
  at most the `k`-th one, at least `length - k` are at least it;
* `sorted_getElem_iff` — the `k`-th entry satisfies a downward closed predicate exactly when more
  than `k` entries do;
* `exists_notMem_of_card_lt_countP` — more entries satisfy `p` than there are excluded positions,
  so one of them is at a position that is not excluded;
* `find?_reverse_eq_some_iff` — searching a sorted list from its end for an entry `≤ b` finds the
  greatest such entry.
-/

namespace TpuSender
namespace Library
namespace SortedRank

variable {α : Type*} [LinearOrder α]

/-- The entries in nondecreasing order. -/
abbrev sorted (l : List α) : List α := l.insertionSort (· ≤ ·)

theorem sorted_perm (l : List α) : (sorted l).Perm l := List.perm_insertionSort (· ≤ ·) l

theorem mem_sorted {l : List α} {x : α} : x ∈ sorted l ↔ x ∈ l := (sorted_perm l).mem_iff

theorem length_sorted (l : List α) : (sorted l).length = l.length := (sorted_perm l).length_eq

theorem pairwise_sorted (l : List α) : (sorted l).Pairwise (· ≤ ·) :=
  List.pairwise_insertionSort (· ≤ ·) l

theorem sorted_eq_self {l : List α} (h : l.Pairwise (· ≤ ·)) : sorted l = l :=
  List.Pairwise.insertionSort_eq h

theorem getElem_le_getElem {l : List α} (h : l.Pairwise (· ≤ ·)) {i j : Nat} (hij : i ≤ j)
    (hj : j < l.length) : l[i] ≤ l[j] :=
  (List.sortedLE_iff_pairwise.2 h).getElem_le_getElem_of_le hij

/-! ## Counting below and above the `k`-th entry -/

theorem succ_le_countP_le_of_pairwise {s : List α} (h : s.Pairwise (· ≤ ·)) {k : Nat}
    (hk : k < s.length) : k + 1 ≤ s.countP fun x => decide (x ≤ s[k]) := by
  have hall : ∀ x ∈ s.take (k + 1), decide (x ≤ s[k]) = true := by
    intro x hx
    rcases List.mem_take_iff_getElem.1 hx with ⟨i, hi, rfl⟩
    simpa using getElem_le_getElem h (by omega) hk
  calc
    k + 1 = (s.take (k + 1)).length := by simp only [List.length_take]; omega
    _ = (s.take (k + 1)).countP fun x => decide (x ≤ s[k]) := (List.countP_eq_length.2 hall).symm
    _ ≤ s.countP fun x => decide (x ≤ s[k]) := (List.take_sublist _ _).countP_le

theorem length_sub_le_countP_of_pairwise {s : List α} (h : s.Pairwise (· ≤ ·)) {k : Nat}
    (hk : k < s.length) : s.length - k ≤ s.countP fun x => decide (s[k] ≤ x) := by
  have hall : ∀ x ∈ s.drop k, decide (s[k] ≤ x) = true := by
    intro x hx
    rcases List.mem_drop_iff_getElem.1 hx with ⟨i, hi, rfl⟩
    have hki : k + i < s.length := by omega
    simpa using getElem_le_getElem h (Nat.le_add_right k i) hki
  calc
    s.length - k = (s.drop k).length := by simp
    _ = (s.drop k).countP fun x => decide (s[k] ≤ x) := (List.countP_eq_length.2 hall).symm
    _ ≤ s.countP fun x => decide (s[k] ≤ x) := (List.drop_sublist _ _).countP_le

theorem succ_le_countP_le_sorted (l : List α) {k : Nat} (hk : k < (sorted l).length) :
    k + 1 ≤ l.countP fun x => decide (x ≤ (sorted l)[k]) :=
  (sorted_perm l).countP_eq (fun x => decide (x ≤ (sorted l)[k])) ▸
    succ_le_countP_le_of_pairwise (pairwise_sorted l) hk

theorem length_sub_le_countP_sorted_le (l : List α) {k : Nat} (hk : k < (sorted l).length) :
    l.length - k ≤ l.countP fun x => decide ((sorted l)[k] ≤ x) := by
  have hcount := length_sub_le_countP_of_pairwise (pairwise_sorted l) hk
  rwa [(sorted_perm l).countP_eq, length_sorted] at hcount

/-- The `k`-th entry satisfies a predicate that is closed downwards exactly when more than `k` of
the entries do. -/
theorem sorted_getElem_iff {l : List α} {p : α → Bool}
    (hp : ∀ x y, x ≤ y → p y = true → p x = true) {k : Nat} (hk : k < (sorted l).length) :
    p (sorted l)[k] = true ↔ k + 1 ≤ l.countP p := by
  constructor
  · intro hentry
    calc
      k + 1 ≤ l.countP fun x => decide (x ≤ (sorted l)[k]) := succ_le_countP_le_sorted l hk
      _ ≤ l.countP p := List.countP_mono_left fun x _ hx => hp x _ (of_decide_eq_true hx) hentry
  · intro hcount
    by_contra hentry
    -- all entries from the `k`-th one on violate `p` as well
    have habove : l.countP (fun x => decide ((sorted l)[k] ≤ x)) ≤ l.countP fun x => !p x := by
      apply List.countP_mono_left
      intro x _ hx
      have hnot : p x ≠ true := fun hpx => hentry (hp _ x (of_decide_eq_true hx) hpx)
      simpa using hnot
    have hsplit := List.length_eq_countP_add_countP p (l := l)
    have hmany := length_sub_le_countP_sorted_le l hk
    rw [length_sorted] at hk
    simp only [Bool.not_eq_true, Bool.decide_eq_false] at hsplit
    omega

/-! ## Counting over positions -/

omit [LinearOrder α] in
theorem countP_eq_card_positions (l : List α) (p : α → Bool) :
    l.countP p = (Finset.univ.filter fun i : Fin l.length => p (l.get i) = true).card := by
  have hmap : l.countP p = (List.finRange l.length).countP (p ∘ l.get) := by
    conv_lhs => rw [← List.map_get_finRange l]
    rw [List.countP_map]
  rw [hmap, List.countP_eq_length_filter]
  have hnodup : ((List.finRange l.length).filter (p ∘ l.get)).Nodup :=
    (List.nodup_finRange _).filter _
  rw [← List.toFinset_card_of_nodup hnodup]
  congr 1
  ext i
  simp

omit [LinearOrder α] in
/-- More entries satisfy `p` than positions are excluded: one of them is not excluded. -/
theorem exists_notMem_of_card_lt_countP {l : List α} {p : α → Bool}
    {excluded : Finset (Fin l.length)} (h : excluded.card < l.countP p) :
    ∃ i, i ∉ excluded ∧ p (l.get i) = true := by
  rw [countP_eq_card_positions] at h
  rcases Finset.exists_mem_notMem_of_card_lt_card h with ⟨i, hi, hnot⟩
  exact ⟨i, hnot, (Finset.mem_filter.1 hi).2⟩

/-! ## The greatest entry within a bound -/

/-- What the search finds is the greatest entry within the bound. -/
theorem isGreatest_of_find?_reverse {s : List α} (h : s.Pairwise (· ≤ ·)) {b e : α}
    (hfind : s.reverse.find? (fun x => decide (x ≤ b)) = some e) :
    IsGreatest {x | x ∈ s ∧ x ≤ b} e := by
  rcases List.find?_eq_some_iff_append.1 hfind with ⟨hb, front, back, hrev, hfront⟩
  have hs : s = back.reverse ++ e :: front.reverse := by
    have hback := congrArg List.reverse hrev
    simpa using hback
  refine ⟨⟨by simp [hs], by simpa using hb⟩, ?_⟩
  rintro x ⟨hx, hxb⟩
  rw [hs] at hx h
  have hcross := (List.pairwise_append.1 h).2.2
  rcases List.mem_append.1 hx with hearlier | hrest
  · exact hcross x hearlier e List.mem_cons_self
  · rcases List.mem_cons.1 hrest with rfl | hlater
    · exact le_rfl
    · -- the entries behind `e` were passed over by the search, so they exceed `b`
      have hno := hfront x (List.mem_reverse.1 hlater)
      simp [hxb] at hno

theorem find?_reverse_eq_some_iff {s : List α} (h : s.Pairwise (· ≤ ·)) {b e : α} :
    s.reverse.find? (fun x => decide (x ≤ b)) = some e ↔ IsGreatest {x | x ∈ s ∧ x ≤ b} e := by
  constructor
  · intro hfind
    exact isGreatest_of_find?_reverse h hfind
  · intro he
    cases hfind : s.reverse.find? (fun x => decide (x ≤ b)) with
    | none =>
        -- the search passes over no entry within the bound, and `e` is one
        have hno := List.find?_eq_none.1 hfind e (List.mem_reverse.2 he.1.1)
        simp [he.1.2] at hno
    | some y =>
        have hy : IsGreatest {x | x ∈ s ∧ x ≤ b} y := isGreatest_of_find?_reverse h hfind
        rw [hy.unique he]

end SortedRank
end Library
end TpuSender
