import FormBasic.Text.Blank
import FormBasic.Text.Case

/-!
# Letter case and blanks of ASCII texts

On ASCII characters the case mappings of texts are those of single characters, and capitalising a
word in small letters can be undone by lowering it. Any text may be lowered after its ASCII capitals
were: neither the case mapping of a character nor the way in which a sigma is written tells an ASCII
capital from its small letter.

## Main definitions

* `Text.asciiLower` - a text without ASCII capitals

## Main statements

* `Text.lower_asciiLower` - ASCII capitals may be lowered first
* `Text.lower_ofChars`, `Text.capitalize_ofChars` - case mappings character by character
* `Text.dropWhileEnd_eq_self`, `Text.dropWhileEnd_concat` - trimming the end of a text
-/

namespace FormBasic

/-- The code point with an ASCII capital turned into its small letter. -/
def CodePoint.asciiLower : CodePoint → CodePoint
  | .char c => .char c.toLower
  | .half offset => .half offset

namespace Text

/-- The text with its ASCII capitals turned into their small letters. -/
def asciiLower (s : Text) : Text := .ofList (s.toList.map CodePoint.asciiLower)

/-- Whether the character is an ASCII character. -/
def isAscii (c : Char) : Bool := c.toNat < 128

/-- A property of the 128 ASCII characters holds of every character that is one of them. -/
theorem ascii_induction {P : Char → Prop} (h : ∀ n : Fin 128, P (Char.ofNat n)) {c : Char}
    (hc : isAscii c = true) : P c := by
  have hn : c.toNat < 128 := by simpa [isAscii] using hc
  have := h ⟨c.toNat, hn⟩
  rwa [show Char.ofNat (⟨c.toNat, hn⟩ : Fin 128).1 = c from Char.ofNat_toNat c] at this

@[simp]
theorem toList_ofChars (cs : List Char) : (ofChars cs).toList = cs.map .char := by
  simp [ofChars]

theorem ofList_map_char (cs : List Char) : ofList (cs.map .char) = ofChars cs := by
  rw [← toList_inj, toList_ofList, toList_ofChars]

theorem ofChars_inj {cs ds : List Char} : ofChars cs = ofChars ds ↔ cs = ds := by
  refine ⟨fun h => ?_, fun h => h ▸ rfl⟩
  have := congrArg toList h
  rw [toList_ofChars, toList_ofChars] at this
  exact (List.map_inj_right fun _ _ h => by cases h; rfl).1 this

theorem lowerChar_of_isAscii {c : Char} (h : isAscii c = true) : lowerChar c = [c.toLower] :=
  ascii_induction (P := fun c => lowerChar c = [c.toLower]) (by decide) h

theorem titleChar_of_isAscii {c : Char} (h : isAscii c = true) : titleChar c = [c.toUpper] :=
  ascii_induction (P := fun c => titleChar c = [c.toUpper]) (by decide +kernel) h

theorem ne_capitalSigma_of_isAscii {c : Char} (h : isAscii c = true) : c ≠ capitalSigma :=
  ascii_induction (P := fun c => c ≠ capitalSigma) (by decide) h

theorem lowerAfter_map_char {cs : List Char} (h : cs.all isAscii = true)
    (before : List CodePoint) :
    lowerAfter before (cs.map .char) = (cs.map Char.toLower).map .char := by
  induction cs generalizing before with
  | nil => rfl
  | cons c cs ih =>
    simp only [List.all_cons, Bool.and_eq_true] at h
    simp [lowerAfter, ne_capitalSigma_of_isAscii h.1, CodePoint.mapChar,
      lowerChar_of_isAscii h.1, ih h.2]

/-- Lowering works character by character. -/
theorem lower_ofChars {cs : List Char} (h : cs.all isAscii = true) :
    lower (ofChars cs) = ofChars (cs.map Char.toLower) := by
  rw [lower, toList_ofChars, lowerAfter_map_char h, ofList_map_char]

theorem word_ofChars {cs : List Char} (h : cs.all isAscii = true) :
    word (ofChars cs) = String.ofList (cs.map Char.toLower) := by
  rw [word, lower_ofChars h]
  rfl

/-- Capitalising changes the first character to a capital and the others to small letters. -/
theorem capitalize_ofChars {c : Char} {cs : List Char} (h : (c :: cs).all isAscii = true) :
    capitalize (ofChars (c :: cs)) = ofChars (c.toUpper :: cs.map Char.toLower) := by
  simp only [List.all_cons, Bool.and_eq_true] at h
  simp only [capitalize, toList_ofChars, List.map_cons, CodePoint.mapChar,
    titleChar_of_isAscii h.1, lowerAfter_map_char h.2]
  exact ofList_map_char (c.toUpper :: cs.map Char.toLower)

-- ════════════════════════════════════════════════════════════════════════════
-- ASCII capitals in any text
-- ════════════════════════════════════════════════════════════════════════════

/-- A character is its own small letter unless it is one of the 26 ASCII capitals. -/
theorem toLower_cases (c : Char) :
    c.toLower = c ∨ ∃ n : Fin 26, c = Char.ofNat (65 + n) ∧ c.toLower = Char.ofNat (97 + n) := by
  cases hc : isAscii c with
  | true =>
    exact ascii_induction (P := fun c => c.toLower = c ∨
      ∃ n : Fin 26, c = Char.ofNat (65 + n) ∧ c.toLower = Char.ofNat (97 + n)) (by decide) hc
  | false =>
    have hbeyond : ¬ c.toNat < 128 := by simpa [isAscii] using hc
    have hcapital : ¬ (c.val ≥ 'A'.val ∧ c.val ≤ 'Z'.val) := by
      rintro ⟨-, hle⟩
      have hle' : c.toNat ≤ 90 := hle
      omega
    exact .inl (dif_neg hcapital)

/-- What is the same for ASCII capitals and their small letters is the same for every character and
its small letter. -/
theorem apply_toLower {β : Type} {f : Char → β}
    (h : ∀ n : Fin 26, f (Char.ofNat (97 + n)) = f (Char.ofNat (65 + n))) (c : Char) :
    f c.toLower = f c := by
  obtain hself | ⟨n, hc, hlower⟩ := toLower_cases c
  · rw [hself]
  · rw [hlower, hc]
    exact h n

theorem lowerChar_toLower (c : Char) : lowerChar c.toLower = lowerChar c :=
  apply_toLower (by decide) c

theorem satisfies_asciiLower {p : Char → Bool} (h : ∀ c : Char, p c.toLower = p c)
    (c : CodePoint) : c.asciiLower.satisfies p = c.satisfies p := by
  cases c with
  | char c => exact h c
  | half => rfl

theorem nextIsCased_map_asciiLower (cs : List CodePoint) :
    nextIsCased (cs.map CodePoint.asciiLower) = nextIsCased cs := by
  have hignorable := satisfies_asciiLower (p := within ignorableRanges)
    (apply_toLower (by decide +kernel))
  have hcased := satisfies_asciiLower (p := within casedRanges) (apply_toLower (by decide +kernel))
  induction cs with
  | nil => rfl
  | cons c cs ih =>
    simp only [nextIsCased, List.map_cons, List.dropWhile_cons, hignorable] at ih ⊢
    split
    · exact ih
    · simp [hcased]

theorem asciiLower_eq_capitalSigma_iff (c : CodePoint) :
    c.asciiLower = .char capitalSigma ↔ c = .char capitalSigma := by
  cases c with
  | half => exact ⟨nofun, nofun⟩
  | char c =>
    have hsigma := apply_toLower (f := fun c => decide (c = capitalSigma)) (by decide) c
    simpa [CodePoint.asciiLower] using hsigma

theorem lowerAfter_map_asciiLower (before cs : List CodePoint) :
    lowerAfter (before.map CodePoint.asciiLower) (cs.map CodePoint.asciiLower) =
      lowerAfter before cs := by
  induction cs generalizing before with
  | nil => rfl
  | cons c cs ih =>
    have hc : c.asciiLower.mapChar lowerChar = c.mapChar lowerChar := by
      cases c with
      | char c => exact congrArg (List.map CodePoint.char) (lowerChar_toLower c)
      | half => rfl
    rw [List.map_cons, lowerAfter, lowerAfter, nextIsCased_map_asciiLower,
      nextIsCased_map_asciiLower, hc, ← List.map_cons, ih]
    simp only [asciiLower_eq_capitalSigma_iff]

/-- ASCII capitals may be lowered before a text is. -/
theorem lower_asciiLower (s : Text) : lower s.asciiLower = lower s := by
  rw [lower, lower, asciiLower, toList_ofList]
  exact congrArg ofList (lowerAfter_map_asciiLower [] s.toList)

variable {α : Type} {p : α → Bool}

theorem dropWhileEnd_concat (xs : List α) (x : α) :
    dropWhileEnd p (xs ++ [x]) = if p x then dropWhileEnd p xs else xs ++ [x] := by
  by_cases h : p x <;> simp [dropWhileEnd, h]

/-- Nothing is dropped from a list whose last element stays. -/
theorem dropWhileEnd_eq_self {xs : List α} (h : xs.getLast?.any p = false) :
    dropWhileEnd p xs = xs := by
  cases hx : xs.getLast? with
  | none => rw [List.getLast?_eq_none_iff.1 hx]; rfl
  | some x =>
    obtain ⟨ys, rfl⟩ := List.getLast?_eq_some_iff.1 hx
    rw [dropWhileEnd_concat]
    simp_all

@[simp]
theorem toList_trimRight (s : Text) :
    (trimRight s).toList = dropWhileEnd isBlankPoint s.toList := by
  rw [trimRight, toList_ofList]

end Text

end FormBasic
