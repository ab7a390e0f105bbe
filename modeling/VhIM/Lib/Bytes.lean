import Mathlib

/-! # Blocks of memory as lists

A block is the list of its cells. `memcpy` is meant for copies that stay
inside the destination; one that runs past the end makes the list longer,
which no other copy does. -/
namespace VhIM.Lib

variable {α : Type*}

/-- Overwrite the cells of `dst` from `off` on with `src`. -/
def memcpy (dst : List α) (off : Nat) (src : List α) : List α :=
  dst.take off ++ src ++ dst.drop (off + src.length)

theorem memcpy_length {dst src : List α} {off : Nat} (h : off + src.length ≤ dst.length) :
    (memcpy dst off src).length = dst.length := by
  simp only [memcpy, List.length_append, List.length_take, List.length_drop]
  omega

theorem memcpy_take {dst src : List α} {off : Nat} (h : off ≤ dst.length) :
    (memcpy dst off src).take (off + src.length) = dst.take off ++ src := by
  have hlen : (dst.take off ++ src).length = off + src.length := by simp [h]
  rw [memcpy, ← hlen, List.take_left']
  rfl

theorem memcpy_zero_append (src dst : List α) :
    memcpy dst 0 src = src ++ dst.drop src.length := by
  simp [memcpy]

/-- The cells after a copy. -/
theorem memcpy_getD {dst src : List α} {off : Nat} (h : off + src.length ≤ dst.length) (k : Nat)
    (d : α) : (memcpy dst off src).getD k d =
      if off ≤ k ∧ k < off + src.length then src.getD (k - off) d else dst.getD k d := by
  have htake : (dst.take off).length = off := by rw [List.length_take]; omega
  rw [memcpy, List.append_assoc]
  by_cases hlow : k < off
  · rw [if_neg (by omega), List.getD_append _ _ _ _ (by omega)]
    simp [List.getD_eq_getElem?_getD, hlow]
  · rw [List.getD_append_right _ _ _ _ (by omega), htake]
    by_cases hmid : k < off + src.length
    · rw [if_pos ⟨by omega, hmid⟩, List.getD_append _ _ _ _ (by omega)]
    · rw [if_neg (fun h => hmid h.2), List.getD_append_right _ _ _ _ (by omega)]
      simp only [List.getD_eq_getElem?_getD, List.getElem?_drop]
      rw [show off + src.length + (k - off - src.length) = k by omega]

end VhIM.Lib
