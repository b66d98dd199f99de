import IPPcode24.Operation.Comparison
import IPPcode24.Text.Utf8
import Mathlib.Data.List.Lex
import Mathlib.Order.Compare

/-!
# The order of texts

Texts are ordered as the lists of their code points are, and the UTF-8 bytes of two texts are
ordered in the same way: the bytes of a greater character are greater at the first place where
they differ, and they do differ.
-/

namespace IPPcode24.Text

/-- Lists that begin alike compare as the rest of them does. -/
theorem compares_cons {order : Ordering} {left right : List Nat} (code : Nat)
    (later : order.Compares left right) : order.Compares (code :: left) (code :: right) := by
  cases order with
  | lt | gt => exact List.cons_lt_cons_iff.mpr (.inr ⟨rfl, later⟩)
  | eq => exact congrArg (code :: ·) later

theorem order_compares (left right : Text) :
    (order left right).Compares (left.map Char.toNat) (right.map Char.toNat) := by
  induction left generalizing right with
  | nil =>
    cases right with
    | nil => rfl
    | cons d right => exact List.nil_lt_cons _ _
  | cons c left ih =>
    cases right with
    | nil => exact List.nil_lt_cons _ _
    | cons d right =>
      rw [order]
      rcases lt_trichotomy c.toNat d.toNat with less | equal | greater
      · rw [Nat.compare_eq_lt.mpr less]
        exact List.cons_lt_cons_iff.mpr (.inl less)
      · rw [Nat.compare_eq_eq.mpr equal, List.map_cons, List.map_cons, equal]
        exact compares_cons d.toNat (ih right)
      · rw [Nat.compare_eq_gt.mpr greater]
        exact List.cons_lt_cons_iff.mpr (.inl greater)

theorem order_eq_lt_iff {left right : Text} :
    order left right = .lt ↔ List.Lex (· < ·) (left.map Char.toNat) (right.map Char.toNat) :=
  (Ordering.Compares.eq_lt (order_compares left right)).trans List.lex_lt.symm

theorem order_eq_gt_iff {left right : Text} : order left right = .gt ↔ order right left = .lt :=
  (Ordering.Compares.eq_gt (order_compares left right)).trans
    (Ordering.Compares.eq_lt (order_compares right left)).symm

theorem order_eq_eq_iff {left right : Text} : order left right = .eq ↔ left = right := by
  have injective : Function.Injective Char.toNat := fun _ _ => Char.toNat_inj.mp
  rw [Ordering.Compares.eq_eq (order_compares left right)]
  exact (List.map_injective_iff.mpr injective).eq_iff

section Bytes

variable {a b : Nat} {front back : List UInt8} {c d : Char} {left right : Text}

/-- Of two lists of bytes the first byte decides, unless it is the same in both. -/
theorem lex_byte (small : b < 256) (atMost : a ≤ b) (rest : a = b → List.Lex (· < ·) front back) :
    List.Lex (· < ·) (UInt8.ofNat a :: front) (UInt8.ofNat b :: back) := by
  by_cases same : a = b
  · rw [same]
    exact .cons (rest same)
  · refine .rel (UInt8.lt_iff_toNat_lt.mpr ?_)
    rw [UInt8.toNat_ofNat_of_lt' small, UInt8.toNat_ofNat_of_lt' (show a < 256 by omega)]
    omega

/-- The bytes of a smaller character come before those of a greater one, whatever follows. -/
theorem lex_utf8EncodeChar (less : c.toNat < d.toNat) (front back : List UInt8) :
    List.Lex (· < ·) (String.utf8EncodeChar c ++ front) (String.utf8EncodeChar d ++ back) := by
  have bound : d.val.toNat < 0x110000 := by
    have valid := d.valid
    simp only [UInt32.isValidChar, Nat.isValidChar] at valid
    omega
  change c.val.toNat < d.val.toNat at less
  unfold String.utf8EncodeChar
  generalize c.val.toNat = v at less
  generalize d.val.toNat = w at less bound
  -- A longer character has a greater first byte. With the same length the bytes are the digits of
  -- the code points, so that not all of them are the same.
  simp only
  split_ifs
  all_goals
    simp only [List.cons_append, List.nil_append]
    repeat'
      first
      | omega
      | refine lex_byte (by omega) (by omega) fun _ => ?_

theorem lex_utf8_of_order (less : order left right = .lt) :
    List.Lex (· < ·) (utf8 left) (utf8 right) := by
  induction left generalizing right with
  | nil =>
    cases right with
    | nil => cases less
    | cons d right =>
      cases encoded : utf8 (d :: right) with
      | nil => exact absurd (List.append_eq_nil_iff.mp encoded).1 String.utf8EncodeChar_ne_nil
      | cons byte bytes => exact .nil
  | cons c left ih =>
    cases right with
    | nil => cases less
    | cons d right =>
      rw [order] at less
      rcases lt_trichotomy c.toNat d.toNat with smaller | equal | greater
      · exact lex_utf8EncodeChar smaller (utf8 left) (utf8 right)
      · rw [Nat.compare_eq_eq.mpr equal] at less
        rw [Char.toNat_inj.mp equal]
        exact List.Lex.append_left _ (ih less) (String.utf8EncodeChar d)
      · rw [Nat.compare_eq_gt.mpr greater] at less
        cases less

/-- The bytes of texts are ordered as the texts are. -/
theorem lex_utf8_iff :
    List.Lex (· < ·) (utf8 left) (utf8 right) ↔ order left right = .lt := by
  constructor
  · intro bytes
    cases result : order left right with
    | lt => rfl
    | eq =>
      rw [order_eq_eq_iff.mp result] at bytes
      exact absurd bytes (List.lex_irrefl (fun byte => UInt8.lt_irrefl byte) _)
    | gt =>
      have reversed := lex_utf8_of_order (order_eq_gt_iff.mp result)
      exact absurd reversed (Std.Asymm.asymm _ _ bytes)
  · exact lex_utf8_of_order

end Bytes

end IPPcode24.Text
