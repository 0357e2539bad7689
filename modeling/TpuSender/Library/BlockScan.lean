import Mathlib.Tactic.Common

/-!
# BlockScan — an interval seen at every `k`-th place

Places are grouped in aligned blocks of `k`, the block of `s` being `s / k`.  A scan of
`[start, stop)` in steps of `k` looks at one place of each block, always at the same offset.  Only
the last block can be missed, when the interval ends in it before that offset
(`exists_scanned_before_last`, `exists_scanned_in_last`).

For values that are constant on blocks, `scan_complete_iff` says exactly when a scan meets every
value of the interval.
-/

namespace TpuSender
namespace Library

section Scan

variable {k start stop : Nat}

/-- The scan of `[start, stop)` in steps of `k` looks at `t`. -/
def Scanned (k start stop t : Nat) : Prop := ∃ i, t = start + k * i ∧ t < stop

theorem Scanned.le {t : Nat} (h : Scanned k start stop t) : start ≤ t := by
  rcases h with ⟨i, rfl, _⟩
  exact Nat.le_add_right start (k * i)

theorem Scanned.lt {t : Nat} (h : Scanned k start stop t) : t < stop := by
  rcases h with ⟨_, _, hlt⟩
  exact hlt

theorem Scanned.mod {t : Nat} (h : Scanned k start stop t) : t % k = start % k := by
  rcases h with ⟨i, rfl, _⟩
  exact Nat.add_mul_mod_self_left start k i

/-- In one block the offset decides the order. -/
theorem le_iff_mod_le {s t : Nat} (h : s / k = t / k) : s ≤ t ↔ s % k ≤ t % k := by
  have hs := Nat.div_add_mod s k
  have ht := Nat.div_add_mod t k
  rw [h] at hs
  omega

/-- The place with the offset of `start` in the block of `s`. -/
theorem exists_place_in_block (hk : 0 < k) {s : Nat} (hs : start ≤ s) :
    ∃ i, (start + k * i) / k = s / k ∧ (start + k * i) % k = start % k := by
  have hdiv : start / k ≤ s / k := Nat.div_le_div_right hs
  refine ⟨s / k - start / k, ?_, Nat.add_mul_mod_self_left start k _⟩
  rw [Nat.add_mul_div_left start _ hk]
  exact Nat.add_sub_cancel' hdiv

/-- A block that is not the last one is looked at. -/
theorem exists_scanned_before_last (hk : 0 < k) {s : Nat} (hs : start ≤ s)
    (hblock : s / k < (stop - 1) / k) : ∃ t, Scanned k start stop t ∧ t / k = s / k := by
  rcases exists_place_in_block hk hs with ⟨i, hdiv, _⟩
  have hlt : start + k * i < stop - 1 := by
    apply Nat.lt_of_div_lt_div
    rw [hdiv]
    exact hblock
  exact ⟨start + k * i, ⟨i, rfl, by omega⟩, hdiv⟩

/-- The last block is looked at when the interval reaches the offset of its start there. -/
theorem exists_scanned_in_last (hk : 0 < k) {s : Nat} (hs : start ≤ s) (hstop : s < stop)
    (hblock : s / k = (stop - 1) / k) (hoffset : start % k ≤ (stop - 1) % k) :
    ∃ t, Scanned k start stop t ∧ t / k = s / k := by
  rcases exists_place_in_block hk hs with ⟨i, hdiv, hmod⟩
  have hle : start + k * i ≤ stop - 1 := by
    apply (le_iff_mod_le (hdiv.trans hblock)).2
    rw [hmod]
    exact hoffset
  exact ⟨start + k * i, ⟨i, rfl, by omega⟩, hdiv⟩

/-- Otherwise everything that is looked at lies before the last block. -/
theorem Scanned.before_last {t : Nat} (h : Scanned k start stop t)
    (hoffset : (stop - 1) % k < start % k) : t / k < (stop - 1) / k := by
  have hle : t ≤ stop - 1 := Nat.le_sub_one_of_lt h.lt
  have hdiv : t / k ≤ (stop - 1) / k := Nat.div_le_div_right hle
  apply Nat.lt_of_le_of_ne hdiv
  intro hsame
  have hmod := (le_iff_mod_le hsame).1 hle
  rw [h.mod] at hmod
  exact Nat.not_lt_of_le hmod hoffset

/-! ## Values that are constant on blocks -/

variable {β : Type*} {g : Nat → Option β}

/-- A scan meets every value of the interval exactly when it looks at the last block, or the value
there is missing or found before. -/
theorem scan_complete_iff (hk : 0 < k)
    (hg : ∀ s t, start ≤ s → s < stop → start ≤ t → t < stop → s / k = t / k → g s = g t) :
    (∀ s b, start ≤ s → s < stop → g s = some b → ∃ t, Scanned k start stop t ∧ g t = some b) ↔
      stop ≤ start ∨ start % k ≤ (stop - 1) % k ∨ g (stop - 1) = none ∨
        ∃ s, start ≤ s ∧ s / k < (stop - 1) / k ∧ g s = g (stop - 1) := by
  constructor
  · intro hcomplete
    by_cases hempty : stop ≤ start
    · exact .inl hempty
    · by_cases hoffset : start % k ≤ (stop - 1) % k
      · exact .inr (.inl hoffset)
      · cases hlast : g (stop - 1) with
        | none => exact .inr (.inr (.inl rfl))
        | some b =>
            -- what the scan found instead of the last place lies before its block
            rcases hcomplete (stop - 1) b (by omega) (by omega) hlast with ⟨t, ht, hvalue⟩
            have hbefore := ht.before_last (Nat.lt_of_not_le hoffset)
            exact .inr (.inr (.inr ⟨t, ht.le, hbefore, hvalue⟩))
  · intro hcondition s b hs hstop hvalue
    have hseen : ∀ s', start ≤ s' → s' < stop → g s' = some b →
        (∃ t, Scanned k start stop t ∧ t / k = s' / k) →
        ∃ t, Scanned k start stop t ∧ g t = some b := by
      rintro s' hs' hstop' hvalue' ⟨t, ht, hblock⟩
      exact ⟨t, ht, (hg t s' ht.le ht.lt hs' hstop' hblock).trans hvalue'⟩
    have hdiv : s / k ≤ (stop - 1) / k := Nat.div_le_div_right (Nat.le_sub_one_of_lt hstop)
    rcases Nat.lt_or_eq_of_le hdiv with hbefore | hlast
    · exact hseen s hs hstop hvalue (exists_scanned_before_last hk hs hbefore)
    · have hend : g (stop - 1) = some b :=
        (hg (stop - 1) s (by omega) (by omega) hs hstop hlast.symm).trans hvalue
      rcases hcondition with hempty | hoffset | hnone | ⟨s', hs', hbefore, hsame⟩
      · omega
      · exact hseen s hs hstop hvalue (exists_scanned_in_last hk hs hstop hlast hoffset)
      · rw [hnone] at hend
        cases hend
      · have hlt : s' < stop - 1 := Nat.lt_of_div_lt_div hbefore
        exact hseen s' hs' (by omega) (hsame.trans hend)
          (exists_scanned_before_last hk hs' hbefore)

end Scan

end Library
end TpuSender
