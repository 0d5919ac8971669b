import Mathlib.Data.List.Basic

set_option autoImplicit false

/- A stream that is the concatenation of encoded items, and how much of it a
receiver can decode from a prefix. -/
namespace Framing

variable {π β : Type} (frame : π → List β)

/-- The items whose frames lie entirely in the first `count` symbols of the
concatenation of the frames of `items`. -/
def within : List π → Nat → List π
  | [], _ => []
  | item :: rest, count =>
      if (frame item).length ≤ count then
        item :: within rest (count - (frame item).length)
      else []

theorem within_begins (items : List π) (count : Nat) : within frame items count <+: items := by
  induction items generalizing count with
  | nil => exact List.prefix_rfl
  | cons item rest ih =>
      unfold within
      split
      · exact List.cons_prefix_cons.mpr ⟨rfl, ih _⟩
      · exact List.nil_prefix

theorem within_eq_take (items : List π) (count : Nat) :
    within frame items count = items.take (within frame items count).length :=
  List.prefix_iff_eq_take.mp (within_begins frame items count)

@[simp] theorem within_zero (items : List π) (nonempty : ∀ item ∈ items, frame item ≠ []) :
    within frame items 0 = [] := by
  cases items with
  | nil => rfl
  | cons item rest =>
      have positive := List.length_pos_iff.mpr (nonempty item (by simp))
      have outside : ¬ (frame item).length ≤ 0 := by omega
      simp only [within, outside, ↓reduceIte]

/-- Item number `index` is among the decodable ones exactly when all frames up
to and including its own have arrived. -/
theorem lt_within_length_iff (items : List π) (count index : Nat) :
    index < (within frame items count).length ↔
      index < items.length ∧ ((items.take (index + 1)).flatMap frame).length ≤ count := by
  induction items generalizing count index with
  | nil => simp [within]
  | cons item rest ih =>
      unfold within
      split
      · rename_i fits
        cases index with
        | zero => simp [fits]
        | succ index =>
            simp only [List.length_cons, Nat.add_lt_add_iff_right, ih, List.take_succ_cons,
              List.flatMap_cons, List.length_append]
            omega
      · rename_i short
        simp only [List.length_nil, Nat.not_lt_zero, List.take_succ_cons, List.flatMap_cons,
          List.length_append, false_iff, not_and]
        omega

theorem within_length_mono (items : List π) {few many : Nat} (order : few ≤ many) :
    (within frame items few).length ≤ (within frame items many).length := by
  by_contra shorter
  have last : (within frame items many).length < (within frame items few).length := by omega
  have arrived := (lt_within_length_iff frame items few _).mp last
  have kept := (lt_within_length_iff frame items many (within frame items many).length).mpr
    ⟨arrived.1, Nat.le_trans arrived.2 order⟩
  omega

theorem within_all (items : List π) (count : Nat)
    (enough : (items.flatMap frame).length ≤ count) : within frame items count = items := by
  induction items generalizing count with
  | nil => rfl
  | cons item rest ih =>
      simp only [List.flatMap_cons, List.length_append] at enough
      have fits : (frame item).length ≤ count := by omega
      simp only [within, fits, ↓reduceIte, ih _ (show _ ≤ count - (frame item).length by omega)]

/-- The stream behind the first `index` frames is the stream of the other items. -/
theorem drop_frames (items : List π) (index : Nat) :
    (items.flatMap frame).drop ((items.take index).flatMap frame).length =
      (items.drop index).flatMap frame := by
  conv => lhs; rw [← List.take_append_drop index items, List.flatMap_append]
  rw [List.take_append_drop]
  exact List.drop_left

end Framing
