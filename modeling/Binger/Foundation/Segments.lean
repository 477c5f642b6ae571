import Mathlib.Data.List.Basic
import Mathlib.Data.List.Flatten
import Mathlib.Tactic.Ring

/-!
# Cutting a list into consecutive segments

`segments size list` is the list cut into consecutive pieces of `size`
elements, the last one possibly shorter.  The definition gives piece `j`
directly; `segments_cons` is the recursive reading that a loop over the list
follows.
-/

namespace Binger.Foundation

variable {α : Type*}

def segmentCount (size length : Nat) : Nat := (length + size - 1) / size

def segments (size : Nat) (list : List α) : List (List α) :=
  (List.range (segmentCount size list.length)).map fun j =>
    (list.drop (j * size)).take size

@[simp] theorem segments_length (size : Nat) (list : List α) :
    (segments size list).length = segmentCount size list.length := by
  simp [segments]

theorem getElem?_segments {size j : Nat} {list : List α}
    (hj : j < segmentCount size list.length) :
    (segments size list)[j]? =
      some (list.extract (j * size) (min ((j + 1) * size) list.length)) := by
  simp only [segments, List.getElem?_map, List.getElem?_range hj,
    Option.map_some, List.extract_eq_take_drop, Option.some.injEq]
  rw [List.take_eq_take_iff, List.length_drop, Nat.succ_mul]
  omega

@[simp] theorem segmentCount_zero (size : Nat) : segmentCount size 0 = 0 := by
  cases size with
  | zero => rfl
  | succ size => simp [segmentCount]

@[simp] theorem segments_nil (size : Nat) :
    segments size ([] : List α) = [] := by
  simp [segments]

theorem segmentCount_eq_one {size length : Nat} (hlength : 0 < length)
    (hle : length ≤ size) : segmentCount size length = 1 := by
  apply Nat.div_eq_of_lt_le <;> omega

theorem segmentCount_sub {size length : Nat} (hsize : 0 < size)
    (hlength : 0 < length) :
    segmentCount size length = segmentCount size (length - size) + 1 := by
  rcases Nat.le_total length size with hle | hge
  · rw [segmentCount_eq_one hlength hle, Nat.sub_eq_zero_of_le hle,
      segmentCount_zero]
  · have h : length + size - 1 = length - size + size - 1 + size := by omega
    unfold segmentCount
    rw [h, Nat.add_div_right _ hsize]

theorem segments_cons {size : Nat} (hsize : 0 < size) {list : List α}
    (hlist : list ≠ []) :
    segments size list = list.take size :: segments size (list.drop size) := by
  have hlength : 0 < list.length := List.length_pos_of_ne_nil hlist
  simp only [segments, List.length_drop]
  rw [segmentCount_sub hsize hlength, List.range_succ_eq_map]
  simp [Function.comp_def, Nat.succ_mul, Nat.add_comm]

theorem flatten_segments {size : Nat} (hsize : 0 < size) (list : List α) :
    (segments size list).flatten = list := by
  induction hn : list.length using Nat.strong_induction_on
    generalizing list with
  | _ n ih =>
      by_cases hlist : list = []
      · simp [hlist]
      · have hlength : 0 < list.length := List.length_pos_of_ne_nil hlist
        rw [segments_cons hsize hlist, List.flatten_cons,
          ih (list.drop size).length (by rw [List.length_drop]; omega) _ rfl,
          List.take_append_drop]

theorem segments_injective {size : Nat} (hsize : 0 < size) :
    Function.Injective (segments (α := α) size) := by
  intro first second h
  rw [← flatten_segments hsize first, h, flatten_segments hsize second]

theorem take_segments {size : Nat} (hsize : 0 < size) (k : Nat)
    (list : List α) :
    (segments size list).take k = segments size (list.take (k * size)) := by
  induction k generalizing list with
  | zero => simp
  | succ k ih =>
      by_cases hlist : list = []
      · simp [hlist]
      · have hfront : list.take ((k + 1) * size) ≠ [] := by
          simp [hlist, Nat.ne_of_gt hsize]
        have hsub : (k + 1) * size - size = k * size := by
          rw [Nat.succ_mul, Nat.add_sub_cancel]
        rw [segments_cons hsize hlist, segments_cons hsize hfront,
          List.take_succ_cons, ih, List.take_take, List.drop_take, hsub,
          Nat.min_eq_left (Nat.le_mul_of_pos_left size (Nat.succ_pos k))]

theorem length_le_of_mem_segments {size : Nat} {list piece : List α}
    (h : piece ∈ segments size list) : piece.length ≤ size := by
  obtain ⟨j, -, rfl⟩ := List.mem_map.mp h
  exact List.length_take_le _ _

theorem length_le_length_of_mem_segments {size : Nat} {list piece : List α}
    (h : piece ∈ segments size list) : piece.length ≤ list.length := by
  obtain ⟨j, -, rfl⟩ := List.mem_map.mp h
  simp

/-! ## Joining the pieces again -/

/-- Nonempty pieces of `size` elements, the last one possibly shorter. -/
def Uniform (size : Nat) : List (List α) → Prop
  | [] => True
  | [last] => last ≠ [] ∧ last.length ≤ size
  | piece :: pieces => piece.length = size ∧ Uniform size pieces

theorem Uniform.of_prefix {size : Nat} (hsize : 0 < size)
    {front pieces : List (List α)} (h : Uniform size pieces)
    (hfront : front <+: pieces) : Uniform size front := by
  induction front generalizing pieces with
  | nil => trivial
  | cons piece front ih =>
      obtain ⟨rest, rfl⟩ := hfront
      cases front with
      | nil =>
          cases rest with
          | nil => exact h
          | cons next rest =>
              obtain ⟨rfl, -⟩ := h
              exact ⟨List.ne_nil_of_length_pos hsize, le_rfl⟩
      | cons next front =>
          obtain ⟨hpiece, hrest⟩ := h
          exact ⟨hpiece, ih hrest ⟨rest, rfl⟩⟩

theorem segments_flatten {size : Nat} (hsize : 0 < size)
    {pieces : List (List α)} (h : Uniform size pieces) :
    segments size pieces.flatten = pieces := by
  induction pieces with
  | nil => simp
  | cons piece pieces ih =>
      cases pieces with
      | nil =>
          obtain ⟨hne, hle⟩ := h
          rw [List.flatten_singleton, segments_cons hsize hne,
            List.take_of_length_le hle, List.drop_of_length_le hle,
            segments_nil]
      | cons next pieces =>
          obtain ⟨rfl, hrest⟩ := h
          have hne : (piece :: next :: pieces).flatten ≠ [] := by
            rw [List.flatten_cons]
            intro hnil
            rw [List.append_eq_nil_iff] at hnil
            simp [hnil.1] at hsize
          rw [segments_cons hsize hne, List.flatten_cons, List.take_left,
            List.drop_left, ih hrest]

end Binger.Foundation
