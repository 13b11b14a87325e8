import FormBasic.Text.Slice

/-!
# Parts and occurrences

The parts of a text that scripts cut out count positions from one, and every count is moved into the
text: a part that starts before the text starts with it, and one that goes beyond the text ends with
it. Where a text occurs in another one is said without any search, by what stands before and behind
it; the search finds the first such place from a start on.

## Main definitions

* `Text.firstPart`, `Text.lastPart`, `Text.partFrom`, `Text.part` - parts of a text
* `Text.OccursAt` - where a text occurs in another one, counted from one
* `Text.boundPosition` - the position that a bound of a slice stands for

## Main statements

* `Text.firstPart_append_partFrom`, `Text.firstPart_append_lastPart` - two parts that make up a text
* `Text.occursAt_of_indexFrom?`, `Text.not_occursAt_of_indexFrom?` - what the search finds
* `Text.ofList_slice` - a slice is a part
-/

namespace FormBasic.Text

-- ════════════════════════════════════════════════════════════════════════════
-- Parts
-- ════════════════════════════════════════════════════════════════════════════

/-- The first `n` code points; none if `n` is negative, all if there are fewer. -/
def firstPart (s : Text) (n : Int) : Text := .ofList (s.toList.take n.toNat)

/-- The last `n` code points; none if `n` is negative, all if there are fewer. -/
def lastPart (s : Text) (n : Int) : Text := .ofList (s.toList.drop (s.length - n.toNat))

/-- The code points from position `p` on, counted from one. -/
def partFrom (s : Text) (p : Int) : Text := .ofList (s.toList.drop (p - 1).toNat)

/-- At most `n` code points from position `p` on, counted from one. -/
def part (s : Text) (p n : Int) : Text := .ofList ((s.toList.drop (p - 1).toNat).take n.toNat)

section Parts

variable (s : Text) (n p : Int)

@[simp]
theorem toList_firstPart : (s.firstPart n).toList = s.toList.take n.toNat := toList_ofList _

@[simp]
theorem toList_lastPart : (s.lastPart n).toList = s.toList.drop (s.length - n.toNat) :=
  toList_ofList _

@[simp]
theorem toList_partFrom : (s.partFrom p).toList = s.toList.drop (p - 1).toNat := toList_ofList _

@[simp]
theorem toList_part : (s.part p n).toList = (s.toList.drop (p - 1).toNat).take n.toNat :=
  toList_ofList _

/-- The first code points and those behind them make up the text. -/
theorem firstPart_append_partFrom : s.firstPart n ++ s.partFrom (n + 1) = s := by
  rw [← toList_inj, toList_append, toList_firstPart, toList_partFrom, Int.add_sub_cancel,
    List.take_append_drop]

/-- The last code points and those before them make up the text. -/
theorem firstPart_append_lastPart : s.firstPart (s.length - n) ++ s.lastPart n = s := by
  rw [← toList_inj, toList_append, toList_firstPart, toList_lastPart]
  rcases Int.le_total n 0 with hn | hn
  · -- nothing is taken from the end, and everything from the start
    have hall : s.toList.length ≤ ((s.length : Int) - n).toNat := by
      simp only [length]
      omega
    have hnone : s.toList.length ≤ s.length - n.toNat := by
      simp only [length]
      omega
    rw [List.take_of_length_le hall, List.drop_eq_nil_of_le hnone, List.append_nil]
  · have hcut : ((s.length : Int) - n).toNat = s.length - n.toNat := by omega
    rw [hcut, List.take_append_drop]

/-- A part is the first code points of all those from its start on. -/
theorem firstPart_partFrom : (s.partFrom p).firstPart n = s.part p n := by
  rw [← toList_inj, toList_firstPart, toList_partFrom, toList_part]

theorem length_part : (s.part p n).length = min n.toNat (s.length - (p - 1).toNat) := by
  rw [length, toList_part, List.length_take, List.length_drop, length]

/-- Parts from one position on are the same if they have the same length. -/
theorem part_eq_part_iff (m n p : Int) : s.part p m = s.part p n ↔
    min m.toNat (s.length - (p - 1).toNat) = min n.toNat (s.length - (p - 1).toNat) := by
  rw [← toList_inj, toList_part, toList_part, List.take_eq_take_iff, List.length_drop, length]

theorem partFrom_eq_partFrom_iff (p q : Int) : s.partFrom p = s.partFrom q ↔
    min (p - 1).toNat s.length = min (q - 1).toNat s.length := by
  rw [← toList_inj, toList_partFrom, toList_partFrom, List.drop_eq_drop_iff, length]

end Parts

-- ════════════════════════════════════════════════════════════════════════════
-- Occurrences
-- ════════════════════════════════════════════════════════════════════════════

/-- Whether a text occurs in another one at a position, counted from one. -/
def OccursAt (needle s : Text) (position : Int) : Prop :=
  ∃ before after : Text, s = before ++ needle ++ after ∧ (before.length : Int) + 1 = position

section Occurrences

variable {needle s : Text} {position : Int} {ns cs : List CodePoint} {start i j : Nat}

/-- A text occurs behind `i` code points if what is left there starts with it. -/
theorem occursAt_iff :
    OccursAt needle s (i + 1) ↔ i ≤ s.length ∧ needle.toList <+: s.toList.drop i := by
  constructor
  · rintro ⟨before, after, rfl, hposition⟩
    have hi : i = before.toList.length := by
      simp only [length] at hposition
      omega
    subst hi
    refine ⟨by simp [length], after.toList, ?_⟩
    rw [toList_append, toList_append, List.append_assoc, List.drop_left]
  · rintro ⟨hi, after, hafter⟩
    refine ⟨.ofList (s.toList.take i), .ofList after, ?_, ?_⟩
    · rw [← toList_inj, toList_append, toList_append, toList_ofList, toList_ofList,
        List.append_assoc, hafter, List.take_append_drop]
    · rw [length] at hi
      rw [length, toList_ofList, List.length_take, Nat.min_eq_left hi]

theorem exists_of_occursAt (h : OccursAt needle s position) : ∃ i : Nat, position = i + 1 := by
  obtain ⟨before, -, -, rfl⟩ := h
  exact ⟨before.length, rfl⟩

/-- What occurs at a position can be cut out there. -/
theorem part_of_occursAt (h : OccursAt needle s position) :
    s.part position needle.length = needle := by
  obtain ⟨before, after, rfl, rfl⟩ := h
  rw [← toList_inj, toList_part, toList_append, toList_append, Int.add_sub_cancel,
    Int.toNat_natCast, Int.toNat_natCast, length, length, List.append_assoc, List.drop_left,
    List.take_left]

/-- The search gives the first place at which what is left starts with the text. -/
theorem indexOf?_eq_some (h : indexOf? ns cs = some i) :
    i ≤ cs.length ∧ ns <+: cs.drop i ∧ ∀ j < i, ¬ ns <+: cs.drop j := by
  induction cs generalizing i with
  | nil =>
    rw [indexOf?] at h
    split at h
    · next hempty =>
      obtain rfl := Option.some.inj h
      rw [List.isEmpty_iff.1 hempty]
      exact ⟨Nat.le_refl 0, List.nil_prefix, nofun⟩
    · cases h
  | cons c cs ih =>
    rw [indexOf?] at h
    split at h
    · next hprefix =>
      obtain rfl := Option.some.inj h
      exact ⟨Nat.zero_le _, List.isPrefixOf_iff_prefix.1 hprefix, nofun⟩
    · next hprefix =>
      obtain ⟨i, hi, rfl⟩ := Option.map_eq_some_iff.1 h
      obtain ⟨hle, hstands, hbefore⟩ := ih hi
      refine ⟨Nat.succ_le_succ hle, hstands, fun j hj => ?_⟩
      cases j with
      | zero => exact fun hzero => hprefix (List.isPrefixOf_iff_prefix.2 hzero)
      | succ j => exact hbefore j (Nat.lt_of_succ_lt_succ hj)

/-- Where the search finds nothing, no place is left out. -/
theorem indexOf?_eq_none (h : indexOf? ns cs = none) (hj : j ≤ cs.length) :
    ¬ ns <+: cs.drop j := by
  induction cs generalizing j with
  | nil =>
    rw [indexOf?] at h
    split at h
    · cases h
    · next hempty =>
      rw [List.drop_nil, List.prefix_nil]
      exact fun hnil => hempty (List.isEmpty_iff.2 hnil)
  | cons c cs ih =>
    rw [indexOf?] at h
    split at h
    · cases h
    · next hprefix =>
      cases j with
      | zero => exact fun hzero => hprefix (List.isPrefixOf_iff_prefix.2 hzero)
      | succ j => exact ih (Option.map_eq_none_iff.1 h) (Nat.le_of_succ_le_succ hj)

/-- The search from a start on finds the first occurrence that does not lie before the start. -/
theorem occursAt_of_indexFrom? (h : indexFrom? needle.toList s.toList start = some i) :
    start ≤ i ∧ OccursAt needle s (i + 1) ∧
      ∀ j : Nat, start ≤ j → OccursAt needle s (j + 1) → i ≤ j := by
  rw [indexFrom?] at h
  split at h
  · cases h
  · next hstart =>
    obtain ⟨k, hk, rfl⟩ := Option.map_eq_some_iff.1 h
    obtain ⟨hle, hstands, hbefore⟩ := indexOf?_eq_some hk
    rw [List.length_drop] at hle
    rw [List.drop_drop, Nat.add_comm] at hstands
    refine ⟨Nat.le_add_left _ _, occursAt_iff.2 ⟨?_, hstands⟩, fun j hj hoccurs => ?_⟩
    · rw [length]
      omega
    · obtain ⟨k', rfl⟩ := Nat.exists_eq_add_of_le hj
      have hdrop : needle.toList <+: (s.toList.drop start).drop k' := by
        rw [List.drop_drop]
        exact (occursAt_iff.1 hoccurs).2
      have hk' : ¬ k' < k := fun hlt => hbefore k' hlt hdrop
      omega

/-- Where it finds nothing, there is no such occurrence. -/
theorem not_occursAt_of_indexFrom? (h : indexFrom? needle.toList s.toList start = none)
    (hj : start ≤ j) : ¬ OccursAt needle s (j + 1) := by
  rw [occursAt_iff, length]
  rintro ⟨hle, hstands⟩
  rw [indexFrom?, if_neg (by omega), Option.map_eq_none_iff] at h
  obtain ⟨k, rfl⟩ := Nat.exists_eq_add_of_le hj
  refine indexOf?_eq_none h (j := k) ?_ ?_
  · rw [List.length_drop]
    omega
  · rwa [List.drop_drop]

end Occurrences

-- ════════════════════════════════════════════════════════════════════════════
-- Slices
-- ════════════════════════════════════════════════════════════════════════════

/-- The position, counted from zero, that a bound of a slice stands for in a text of some length: a
negative bound counts from the end and is moved to the start. -/
def boundPosition (length : Nat) (bound : Int) : Int :=
  if bound < 0 then max (bound + length) 0 else bound

section Slices

theorem clampBound_eq (length : Nat) (bound : Int) :
    clampBound length bound = min (boundPosition length bound).toNat length := by
  rw [clampBound, boundPosition]
  split <;> omega

theorem boundPosition_nonneg (length : Nat) (bound : Int) : 0 ≤ boundPosition length bound := by
  rw [boundPosition]
  split <;> omega

/-- A bound beyond the text means its end. -/
theorem drop_clampBound (s : Text) (bound : Int) :
    s.toList.drop (clampBound s.toList.length bound) =
      s.toList.drop (boundPosition s.length bound).toNat := by
  rw [clampBound_eq, length, List.drop_eq_drop_iff, Nat.min_eq_left (Nat.min_le_right _ _)]

/-- A slice is the part from the position of its first bound on, as long as its bounds are apart. -/
theorem ofList_slice (s : Text) (start stop : Int) :
    .ofList (slice s.toList start stop) =
      s.part (boundPosition s.length start + 1)
        (boundPosition s.length stop - boundPosition s.length start) := by
  have hstart := boundPosition_nonneg s.length start
  have hstop := boundPosition_nonneg s.length stop
  rw [← toList_inj, toList_ofList, toList_part, slice, List.drop_take, drop_clampBound,
    Int.add_sub_cancel, List.take_eq_take_iff, List.length_drop]
  simp only [clampBound_eq, length] at *
  omega

theorem ofList_sliceFrom (s : Text) (start : Int) :
    .ofList (sliceFrom s.toList start) = s.partFrom (boundPosition s.length start + 1) := by
  rw [partFrom, sliceFrom, drop_clampBound, Int.add_sub_cancel]

end Slices

end FormBasic.Text
