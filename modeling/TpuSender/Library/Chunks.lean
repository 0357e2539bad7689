import Mathlib.Data.List.Basic
import Mathlib.Tactic.Common

/-!
# Chunks — a list cut into pieces of one size

`chunks size l` cuts `l` into consecutive pieces of `size` elements; the last piece has what is
left over.  The pieces are given by their positions, so that an element of a piece can be traced
back to its place in the list (`getElem?_of_chunk`).
-/

namespace TpuSender
namespace Library

section Chunks

variable {α : Type*}

/-- The number of pieces. -/
def chunkCount (size length : Nat) : Nat := (length + (size - 1)) / size

/-- The piece number `i`. -/
def chunk (size : Nat) (l : List α) (i : Nat) : List α := (l.drop (i * size)).take size

def chunks (size : Nat) (l : List α) : List (List α) :=
  (List.range (chunkCount size l.length)).map (chunk size l)

variable {size : Nat} {l : List α}

theorem lt_chunkCount_iff (hsize : 0 < size) {i length : Nat} :
    i < chunkCount size length ↔ i * size < length := by
  rw [chunkCount, Nat.lt_iff_add_one_le, Nat.le_div_iff_mul_le hsize, Nat.succ_mul]
  omega

@[simp] theorem length_chunks : (chunks size l).length = chunkCount size l.length := by
  simp [chunks]

theorem getElem?_chunks_eq_some_iff (hsize : 0 < size) {i : Nat} {piece : List α} :
    (chunks size l)[i]? = some piece ↔ i * size < l.length ∧ piece = chunk size l i := by
  by_cases hi : i < chunkCount size l.length
  · have hlt : i * size < l.length := (lt_chunkCount_iff hsize).1 hi
    simp [chunks, hi, hlt, eq_comm]
  · have hge : ¬ i * size < l.length := fun hlt => hi ((lt_chunkCount_iff hsize).2 hlt)
    simp [chunks, hi, hge]

theorem length_chunk (size : Nat) (l : List α) (i : Nat) :
    (chunk size l i).length = min size (l.length - i * size) := by
  simp [chunk]

/-- Every piece has an element, and at most `size` of them. -/
theorem length_of_mem_chunks (hsize : 0 < size) {piece : List α} (h : piece ∈ chunks size l) :
    1 ≤ piece.length ∧ piece.length ≤ size := by
  rcases List.mem_iff_getElem?.1 h with ⟨i, hi⟩
  rcases (getElem?_chunks_eq_some_iff hsize).1 hi with ⟨hlt, rfl⟩
  have hlen := length_chunk size l i
  omega

/-- Every piece that is not the last one is full. -/
theorem length_of_not_last (hsize : 0 < size) {i : Nat} {piece : List α}
    (h : (chunks size l)[i]? = some piece) (hnext : i + 1 < (chunks size l).length) :
    piece.length = size := by
  rcases (getElem?_chunks_eq_some_iff hsize).1 h with ⟨_, rfl⟩
  have hlt : (i + 1) * size < l.length := by
    rw [length_chunks] at hnext
    exact (lt_chunkCount_iff hsize).1 hnext
  have hlen := length_chunk size l i
  rw [Nat.succ_mul] at hlt
  omega

/-- The element at position `p` of piece `i` is the element `i * size + p` of the list. -/
theorem getElem?_of_chunk {i p : Nat} (hp : p < size) :
    (chunk size l i)[p]? = l[i * size + p]? := by
  simp [chunk, hp]

/-- The first `m` pieces are the first `m * size` elements. -/
theorem flatten_map_chunk (m : Nat) :
    ((List.range m).map (chunk size l)).flatten = l.take (m * size) := by
  induction m with
  | zero => simp
  | succ m ih =>
      rw [List.range_succ, List.map_append, List.flatten_append, ih, Nat.succ_mul, List.take_add]
      simp [chunk]

/-- The pieces put together are the list. -/
theorem flatten_chunks (hsize : 0 < size) : (chunks size l).flatten = l := by
  have hall : l.length ≤ chunkCount size l.length * size := by
    apply Nat.le_of_not_lt
    intro hlt
    exact Nat.lt_irrefl _ ((lt_chunkCount_iff hsize).2 hlt)
  rw [chunks, flatten_map_chunk, List.take_of_length_le hall]

/-- Every element of the list is in the piece its position names. -/
theorem exists_chunk_of_getElem? (hsize : 0 < size) {k : Nat} {x : α} (h : l[k]? = some x) :
    (chunks size l)[k / size]? = some (chunk size l (k / size)) ∧
      (chunk size l (k / size))[k % size]? = some x := by
  have hk : k < l.length := (List.getElem?_eq_some_iff.1 h).1
  have hpos : k / size * size + k % size = k := Nat.div_add_mod' k size
  refine ⟨(getElem?_chunks_eq_some_iff hsize).2 ⟨?_, rfl⟩, ?_⟩
  · omega
  · rw [getElem?_of_chunk (Nat.mod_lt k hsize), hpos]
    exact h

end Chunks

end Library
end TpuSender
