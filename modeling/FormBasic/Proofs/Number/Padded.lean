import FormBasic.Proofs.Number.Display
import FormBasic.Proofs.Token.Blanks

/-!
# Integers between blanks

Values that are kept as texts are compared as numbers. A text is trimmed before it is read, so the
display text of an integer stands for that integer with any blanks around it: converted to a number,
tested for being one, compared for equality from either side, and ordered.

## Main definitions

* `Text.IsPadded` - a text with blanks around it
* `Value.Order.relates` - the order of integers that a comparison asks for

## Main statements

* `Text.trim_eq_of_isPadded` - trimming removes the blanks again
* `Value.integers_survive_display` - display texts are compared as the integers they stand for
-/

namespace FormBasic

instance (cs : List CodePoint) : Decidable (AllBlank cs) :=
  inferInstanceAs (Decidable (∀ c ∈ cs, Text.isBlankPoint c = true))

namespace Text

/-- Whether a text is another one with blanks before and behind it. -/
def IsPadded (s padded : Text) : Prop :=
  ∃ before after : Text, AllBlank before.toList ∧ AllBlank after.toList ∧
    padded = before ++ s ++ after

theorem dropWhileEnd_append_of_pos {α : Type} {p : α → Bool} {ys : List α}
    (hys : ∀ y ∈ ys, p y = true) (xs : List α) :
    dropWhileEnd p (xs ++ ys) = dropWhileEnd p xs := by
  have hreverse : ∀ y ∈ ys.reverse, p y = true := fun y hy => hys y (List.mem_reverse.1 hy)
  rw [dropWhileEnd, List.reverse_append, List.dropWhile_append_of_pos hreverse, dropWhileEnd]

/-- Blanks around a text are trimmed. -/
theorem trim_append {before after : Text} (hbefore : AllBlank before.toList)
    (hafter : AllBlank after.toList) (s : Text) : trim (before ++ s ++ after) = trim s := by
  rw [trim, toList_append, toList_append, List.append_assoc, List.dropWhile_append_of_pos hbefore,
    trim, ← toList_inj, toList_ofList, toList_ofList, List.dropWhile_append]
  split
  · next hempty =>
    have hnil : after.toList.dropWhile isBlankPoint = [] := by
      rw [← List.append_nil after.toList, List.dropWhile_append_of_pos hafter, List.dropWhile_nil]
    rw [hnil, List.isEmpty_iff.1 hempty]
  · exact dropWhileEnd_append_of_pos hafter _

theorem trim_eq_of_isPadded {s padded : Text} (h : s.IsPadded padded) : trim padded = trim s := by
  obtain ⟨before, after, hbefore, hafter, rfl⟩ := h
  exact trim_append hbefore hafter s

end Text

namespace Value

/-- The order of integers that a comparison asks for. -/
def Order.relates : Order → Int → Int → Prop
  | .less, m, n => m < n
  | .greater, m, n => m > n
  | .atMost, m, n => m ≤ n
  | .atLeast, m, n => m ≥ n

section Padded

variable {m n : Int} {s t : Text}

/-- A text with the number of an integer between blanks. -/
theorem numberOfText?_of_isPadded (h : Number.integerText n = .ok s) (hpadded : s.IsPadded t) :
    numberOfText? t = some (.int n) := by
  rw [← numberOfText?_of_integerText h, numberOfText?, numberOfText?,
    Text.trim_eq_of_isPadded hpadded]

theorem toNumber_of_isPadded (h : Number.integerText n = .ok s) (hpadded : s.IsPadded t) :
    (Value.text t).toNumber = .int n := by
  rw [toNumber, numberOfText?_of_isPadded h hpadded]
  rfl

theorem isNumeric_of_isPadded (h : Number.integerText n = .ok s) (hpadded : s.IsPadded t) :
    (Value.text t).isNumeric = true := by
  have hs := isNumeric_of_integerText h
  rw [isNumeric, numberOfText?_of_integerText h] at hs
  rw [isNumeric, Text.trim_eq_of_isPadded hpadded, numberOfText?_of_isPadded h hpadded, hs]

theorem Order.holds_int (order : Order) (m n : Int) :
    order.holds (.int m) (.int n) = true ↔ order.relates m n := by
  cases order <;> simp [holds, relates]

/-- The display texts of integers, with any blanks around them, are numbers, namely the integers:
they equal no other integer, and they are ordered as the integers are. -/
theorem integers_survive_display (hm : (Nat.toDigits 10 m.natAbs).length ≤ digitLimit)
    (hn : (Nat.toDigits 10 n.natAbs).length ≤ digitLimit) :
    ∃ s t : Text, (Value.int m).display = .ok s ∧ (Value.int n).display = .ok t ∧
      ∀ left right : Text, s.IsPadded left → t.IsPadded right →
        (Value.text right).toNumber = .int n ∧ (Value.text right).isNumeric = true ∧
        ((Value.int m).looselyEqual (.text right) = true ↔ m = n) ∧
        ((Value.text right).looselyEqual (.int m) = true ↔ m = n) ∧
        ∀ order : Order, ordered order (.text left) (.text right) = true ↔ order.relates m n := by
  have hs := Number.integerText_eq_ok_iff.2 ⟨hm, rfl⟩
  have ht := Number.integerText_eq_ok_iff.2 ⟨hn, rfl⟩
  refine ⟨_, _, hs, ht, fun left right hleft hright => ?_⟩
  have hnumber := toNumber_of_isPadded ht hright
  have hnumeric := isNumeric_of_isPadded ht hright
  refine ⟨hnumber, hnumeric, ?_, ?_, fun order => ?_⟩
  · simp only [looselyEqual, number?, hnumeric, hnumber, Number.same_int, Bool.true_and, beq_iff_eq]
    exact eq_comm
  · simp only [looselyEqual, number?, hnumeric, hnumber, Number.same_int, Bool.true_and, beq_iff_eq]
    exact eq_comm
  · rw [ordered, toNumber_of_isPadded hs hleft, hnumber, Order.holds_int]

theorem integers_survive_display_tabbed :
    ((Nat.toDigits 10 (-12 : Int).natAbs).length ≤ digitLimit ∧
      (Nat.toDigits 10 (7 : Int).natAbs).length ≤ digitLimit ∧
      Text.IsPadded "-12" "\t-12 " ∧ Text.IsPadded "7" "\u00a07\n") ∧
    (Value.text "\u00a07\n").toNumber = .int 7 ∧
    (Value.int (-12)).looselyEqual (.text "\u00a07\n") = false ∧
    ordered .less (.text "\t-12 ") (.text "\u00a07\n") = true := by
  have hm : (Nat.toDigits 10 (-12 : Int).natAbs).length ≤ digitLimit := by decide
  have hn : (Nat.toDigits 10 (7 : Int).natAbs).length ≤ digitLimit := by decide
  have hs : Number.integerText (-12) = .ok "-12" := Number.integerText_eq_ok_iff.2 ⟨hm, rfl⟩
  have ht : Number.integerText 7 = .ok "7" := Number.integerText_eq_ok_iff.2 ⟨hn, rfl⟩
  have hleft : Text.IsPadded "-12" "\t-12 " := ⟨"\t", " ", by decide, by decide, rfl⟩
  have hright : Text.IsPadded "7" "\u00a07\n" := ⟨"\u00a0", "\n", by decide, by decide, rfl⟩
  obtain ⟨s, t, hs', ht', hpadded⟩ := integers_survive_display hm hn
  obtain rfl := Except.ok.inj (hs'.symm.trans hs)
  obtain rfl := Except.ok.inj (ht'.symm.trans ht)
  obtain ⟨hnumber, -, hequal, -, hordered⟩ := hpadded _ _ hleft hright
  refine ⟨⟨hm, hn, hleft, hright⟩, hnumber, ?_, (hordered .less).2 (show (-12 : Int) < 7 by decide)⟩
  exact Bool.eq_false_iff.2 fun h => absurd (hequal.1 h) (by decide)

end Padded

end Value

end FormBasic
