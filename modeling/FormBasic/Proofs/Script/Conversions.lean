import FormBasic.Proofs.Number.Rounding
import FormBasic.Proofs.Script.Parts
import Mathlib.Data.List.TakeWhile

/-!
# Conversions to integers

Scripts make integers of numbers and of texts by many names, and all of them go through a float: the
number that a value stands for is read exactly, then made a float and rounded, and the number at the
start of a text is read as a float at once. An integer with at most 53 significant bits is not
changed by this, whether it is given as a number or as its display text. Every other integer becomes
the nearest one that has no more.

## Main definitions

* `Script.integerConversions` - the calls that make an integer of a value
* `Script.ClassesShown` - no variable and no component has the name of a class used by them

## Main statements

* `Number.leadingNumber?_of_integerText` - the number at the start of the text of an integer
* `Script.hasValue_integerConversion` - all conversions round the number that a value stands for
* `Script.conversions_round_to_float` - what becomes of an integer and of its display text
-/

namespace FormBasic

-- ════════════════════════════════════════════════════════════════════════════
-- Reading
-- ════════════════════════════════════════════════════════════════════════════

namespace Number

/-- Three decimal digits are worth less than ten bits. -/
theorem log2_lt_of_length_toDigits {m k : Nat} (hk : 0 < k)
    (h : (Nat.toDigits 10 m).length ≤ 3 * k) : m.log2 < 10 * k := by
  rcases Nat.eq_zero_or_pos m with rfl | hpos
  · exact Nat.mul_pos (by decide) hk
  · rw [Nat.log2_lt (Nat.ne_of_gt hpos)]
    calc m < 10 ^ (3 * k) := (Nat.length_toDigits_le_iff (by decide) (by omega)).1 h
      _ = (10 ^ 3) ^ k := Nat.pow_mul 10 3 k
      _ ≤ (2 ^ 10) ^ k := Nat.pow_le_pow_left (by decide) k
      _ = 2 ^ (10 * k) := (Nat.pow_mul 2 10 k).symm

section Leading

variable {n : Int} {t : Text}

theorem takeDecimal?_digits {cs : List Char} (h : cs.all isDigitChar = true) (hne : cs ≠ []) :
    takeDecimal? cs = some (digitsValue cs, 0, []) := by
  have hascii : ∀ c ∈ cs, Text.isAsciiDigit c = true :=
    fun c hc => isAsciiDigit_of_isDigitChar (List.all_eq_true.1 h c hc)
  have hwhole : cs.takeWhile Text.isAsciiDigit = cs := List.takeWhile_eq_self_iff.2 hascii
  have hrest : cs.dropWhile Text.isAsciiDigit = [] := List.dropWhile_eq_nil_iff.2 hascii
  simp [takeDecimal?, hwhole, hrest, hne, takeExponent]

/-- The number that the display text of an integer starts with is the integer as a float. -/
theorem leadingNumber?_of_integerText (h : integerText n = .ok t) (hlog : n.natAbs.log2 ≤ 1021) :
    leadingNumber? t = some (.int (rounded n)) := by
  obtain ⟨-, rfl⟩ := integerText_eq_ok_iff.1 h
  have hdigits := all_isDigitChar_toDigits n.natAbs
  have hblanks : (integerDigits n).dropWhile Text.isBlank = integerDigits n :=
    List.dropWhile_eq_self_iff.2 fun hl => Bool.eq_false_iff.1
      (integer_facts (mem_signed hdigits (List.getElem_mem hl))).1
  have hvalue : digitsValue (Nat.toDigits 10 n.natAbs) = n.natAbs := by
    rw [digitsValue_eq]
    exact Nat.ofDigitChars_toDigits (by decide) (Nat.le_refl 10)
  obtain ⟨-, hwhole⟩ := Binary64.isWhole_magnitudeBits (n := n.natAbs) (by omega) (n < 0)
  rw [leadingNumber?, shown_ofChars, hblanks, integerDigits, takeSign_signed hdigits]
  simp only [map_asciiDigit_numeral (isNumeralChar_of_digits hdigits),
    takeDecimal?_digits hdigits Nat.toDigits_ne_nil, hvalue, Option.bind_eq_bind, Option.bind_some,
    Binary64.ofDecimal_zero (show n.natAbs.log2 ≤ 1022 by omega), normalize_of_isWhole hwhole]
  rfl

end Leading

end Number

-- ════════════════════════════════════════════════════════════════════════════
-- Functions
-- ════════════════════════════════════════════════════════════════════════════

namespace Library

section Functions

variable {n : Int} {v : Value} {t : Text}

theorem toInteger_of_toNumber (hv : v.toNumber = .int n) (hlog : n.natAbs.log2 ≤ 1021) :
    toInteger [v] = .ok (.int (Number.rounded n)) := by
  change (v.toInt >>= fun m => Except.ok (Value.int m)) = _
  rw [Value.toInt, hv, Number.roundToInt_int hlog]
  rfl

theorem rounded_of_toNumber (hv : v.toNumber = .int n) (hlog : n.natAbs.log2 ≤ 1021) :
    rounded [v] = .ok (.int (Number.rounded n)) := by
  change (v.toNumber.roundTo (.int 0) >>= fun m => Except.ok (Value.ofNumber m)) = _
  rw [hv, Number.roundTo_int hlog]
  rfl

theorem leadingValue_of_integerText (h : Number.integerText n = .ok t)
    (hlog : n.natAbs.log2 ≤ 1021) :
    leadingValue (.text t) = .ok (.int (Number.rounded n)) := by
  change Except.ok (Value.ofNumber ((Number.leadingNumber? t).getD (.int 0))) = _
  rw [Number.leadingNumber?_of_integerText h hlog]
  rfl

end Functions

end Library

-- ════════════════════════════════════════════════════════════════════════════
-- Calls
-- ════════════════════════════════════════════════════════════════════════════

namespace Script

/-- The functions that make an integer of a value. -/
def freeConversions : List Text := ["CInt", "CLng", "Round"]

/-- The methods of static classes that make an integer of a value. Names of types are keywords, which
parsers give in small letters however they are written. -/
def classConversions : List (Text × Text) :=
  [("Math", "Round"), ("Convert", "ToInt16"), ("Convert", "ToInt32"), ("Convert", "ToInt64"),
    ("integer", "Parse"), ("long", "Parse")]

/-- The calls that make an integer of the value of an expression. -/
def integerConversions (e : Expr) : List Expr :=
  freeConversions.map (fun name => .call (.ident name) [e]) ++
    classConversions.map fun (owner, method) => .call (.member (.ident owner) method) [e]

/-- Whether the names of the classes with a conversion refer to the classes: no variable and no
component has one of these names. -/
def ClassesShown (w : World) : Prop :=
  ∀ c ∈ classConversions, w.staticClass? (.ident c.1) = some (Text.word c.1)

instance (w : World) : Decidable (ClassesShown w) :=
  inferInstanceAs (Decidable (∀ c ∈ classConversions, _ = _))

section Conversions

variable {line : Line} {w : World} {e : Expr} {es : List Expr} {v : Value} {vs : List Value}
  {n : Int} {owner method : Text} {className : String} {what : Text}

/-- A method of a static class is called by the name of the class. -/
theorem hasValue_classCall {f : Library.Function}
    (hclass : w.staticClass? (.ident owner) = some className)
    (hmethod : callClass line className (Text.word method) vs = guarded what line (f vs))
    (hargs : List.Forall₂ (HasValue line w) es vs) (hf : f vs = .ok v) :
    HasValue line w (.call (.member (.ident owner) method) es) v := by
  have hlist : callOnList? (.ident owner) (Text.word method) vs w = .done w none := rfl
  rw [HasValue, eval, bind_of_done (evalAll_of_hasValue hargs), callMethod, bind_of_done hlist]
  refine (bind_of_done (m := world) rfl _).trans ?_
  simp only [hclass, hmethod, hf]
  rfl

/-- All conversions give the number that a value stands for, rounded as a float. -/
theorem hasValue_integerConversion (hclasses : ClassesShown w) (he : HasValue line w e v)
    (hv : v.toNumber = .int n) (hlog : n.natAbs.log2 ≤ 1021) :
    ∀ c ∈ integerConversions e, HasValue line w c (.int (Number.rounded n)) := by
  have hinteger := Library.toInteger_of_toNumber hv hlog
  have hround := Library.rounded_of_toNumber hv hlog
  have hargs : List.Forall₂ (HasValue line w) [e] [v] := .cons he .nil
  intro c hc
  rw [integerConversions, List.mem_append, List.mem_map, List.mem_map] at hc
  rcases hc with ⟨name, hname, rfl⟩ | ⟨⟨owner, method⟩, hcall, rfl⟩
  · simp only [freeConversions, List.mem_cons, List.not_mem_nil, or_false] at hname
    rcases hname with rfl | rfl | rfl
    · exact hasValue_call rfl hargs hinteger
    · exact hasValue_call rfl hargs hinteger
    · exact hasValue_call rfl hargs hround
  · have hclass := hclasses _ hcall
    simp only [classConversions, List.mem_cons, List.not_mem_nil, or_false, Prod.mk.injEq] at hcall
    rcases hcall with ⟨rfl, rfl⟩ | ⟨rfl, rfl⟩ | ⟨rfl, rfl⟩ | ⟨rfl, rfl⟩ | ⟨rfl, rfl⟩ | ⟨rfl, rfl⟩
    · exact hasValue_classCall hclass rfl hargs hround
    all_goals exact hasValue_classCall hclass rfl hargs hinteger

/-- However the name of a type is written, the call that is read is one of the conversions. -/
example : ∃ e ∈ integerConversions (.ident "x"), Expr.parse "Integer.Parse(x)" = .ok e := by
  refine ⟨.call (.member (.ident "integer") "Parse") [.ident "x"],
    by simp [integerConversions, classConversions], ?_⟩
  have hscan : Token.scan "Integer.Parse(x)" =
      [⟨.keyword, "integer", .ofNat 1, 1⟩, ⟨.punctuation, ".", .ofNat 1, 8⟩,
        ⟨.identifier, "Parse", .ofNat 1, 9⟩, ⟨.punctuation, "(", .ofNat 1, 14⟩,
        ⟨.identifier, "x", .ofNat 1, 15⟩, ⟨.punctuation, ")", .ofNat 1, 16⟩,
        ⟨.eof, "", .ofNat 1, 17⟩] := by
    decide +kernel
  rw [Expr.parse, Stream.ofSource, hscan]
  cbv

/-- An integer of at most 300 digits, given as a number or as its display text, is converted to the
nearest integer with at most 53 significant bits: all conversions agree, and so does the number at
the start of the text. They keep the integers with at most 53 significant bits and no others. -/
theorem conversions_round_to_float (hclasses : ClassesShown w) (he : HasValue line w e (.int n))
    (hn : (Nat.toDigits 10 n.natAbs).length ≤ 300) :
    let r := Number.rounded n
    (∃ text, (Value.int n).display = .ok text ∧
      HasValue line w (.call (.ident "CStr") [e]) (.text text)) ∧
    (∀ c ∈ integerConversions e ++ integerConversions (.call (.ident "CStr") [e]),
      HasValue line w c (.int r)) ∧
    HasValue line w (.call (.ident "Val") [.call (.ident "CStr") [e]]) (.int r) ∧
    (r = n ↔ Binary64.Representable n.natAbs) ∧ Binary64.Representable r.natAbs ∧
    ∀ k : Int, Binary64.Representable k.natAbs → (n - r).natAbs ≤ (n - k).natAbs := by
  have hlog : n.natAbs.log2 ≤ 1021 := by
    have := Number.log2_lt_of_length_toDigits (k := 100) (by decide) hn
    omega
  have htext := Number.integerText_eq_ok_iff.2 ⟨Nat.le_trans hn (by decide), rfl⟩
  have hdisplay : Library.toText [.int n] = .ok (.text (.ofChars (Number.integerDigits n))) := by
    change ((Value.int n).display >>= fun t => Except.ok (Value.text t)) = _
    rw [show (Value.int n).display = _ from htext]
    rfl
  have hshown : HasValue line w (.call (.ident "CStr") [e]) _ :=
    hasValue_call rfl (.cons he .nil) hdisplay
  refine ⟨⟨_, htext, hshown⟩, fun c hc => ?_, ?_, Number.rounded_eq_self_iff,
    Number.representable_rounded n, fun k hk => Number.natAbs_sub_rounded_le hk⟩
  · rcases List.mem_append.1 hc with hnumber | htextual
    · exact hasValue_integerConversion hclasses he rfl hlog c hnumber
    · exact hasValue_integerConversion hclasses hshown (Value.toNumber_of_integerText htext) hlog c
        htextual
  · exact hasValue_call rfl (.cons hshown .nil) (Library.leadingValue_of_integerText htext hlog)

/-- The first integer that needs a 54th significant bit is not kept. -/
theorem conversions_round_to_float_least :
    (ClassesShown {} ∧
      HasValue none {} (.number (.int 9007199254740993)) (.int 9007199254740993) ∧
      (Nat.toDigits 10 (9007199254740993 : Int).natAbs).length ≤ 300) ∧
    HasValue none {} (.call (.ident "CInt") [.number (.int 9007199254740993)])
      (.int 9007199254740992) ∧
    HasValue none {}
      (.call (.ident "Val") [.call (.ident "CStr") [.number (.int 9007199254740993)]])
      (.int 9007199254740992) := by
  have hclasses : ClassesShown {} := by decide
  have he : HasValue none {} (.number (.int 9007199254740993)) (.int 9007199254740993) :=
    hasValue_number _
  have hn : (Nat.toDigits 10 (9007199254740993 : Int).natAbs).length ≤ 300 := by decide
  have hr : Number.rounded 9007199254740993 = 9007199254740992 := by decide
  obtain ⟨-, hconversions, hval, -⟩ := conversions_round_to_float hclasses he hn
  rw [hr] at hconversions hval
  exact ⟨⟨hclasses, he, hn⟩, hconversions _ (List.mem_append_left _ List.mem_cons_self), hval⟩

end Conversions

end Script

end FormBasic
