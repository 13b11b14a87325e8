import FormBasic.Proofs.Script.Running
import FormBasic.Proofs.Text.Search
import Mathlib.Data.List.Forall2

/-!
# Cutting and searching texts in scripts

The functions `Left`, `Right` and `Mid` cut a text at positions that are moved into it, so what two
of them cut out fits together for all counts, negative ones and too large ones included; `InStr`
finds the first occurrence from a start on, which `Mid` cuts out again. The method `Substring` takes
the bounds of a slice, of which a negative one counts from the end: it cuts out what `Mid` does
where both of its bounds lie in the text or behind it, and something else in most other cases.

## Main definitions

* `Script.HasValue` - expressions that can be evaluated without any effect
* `Script.IsBare` - expressions whose members are those of their value

## Main statements

* `Script.callNamed_of_function?` - a function is called by its name, whatever else has that name
* `Script.parts_fit_together` - the laws of `Left`, `Right`, `Mid` and `InStr`
* `Script.substring_matches_mid_iff` - when `Substring` cuts out what `Mid` does
-/

namespace FormBasic

-- ════════════════════════════════════════════════════════════════════════════
-- The functions
-- ════════════════════════════════════════════════════════════════════════════

namespace Library

variable (s t : Text) (n p : Int)

theorem left_text : left (.text s) (.int n) = .ok (.text (s.firstPart n)) := rfl

theorem right_text : right (.text s) (.int n) = .ok (.text (s.lastPart n)) := rfl

theorem mid_text : mid (.text s) (.int p) (.int n) = .ok (.text (s.part p n)) := rfl

theorem mid_text_nothing : mid (.text s) (.int p) .nothing = .ok (.text (s.partFrom p)) := rfl

theorem substring_text : substring s [.int p, .int n] =
    .ok (.text (s.part (Text.boundPosition s.length p + 1)
      (Text.boundPosition s.length (p + n) - Text.boundPosition s.length p))) := by
  rw [← Text.ofList_slice]
  rfl

theorem substring_text_nothing :
    substring s [.int p] = .ok (.text (s.partFrom (Text.boundPosition s.length p + 1))) := by
  rw [← Text.ofList_sliceFrom]
  rfl

/-- The position counted from one, or zero. -/
theorem inStr_texts {s t : Text} {p : Int} {found : Option Nat}
    (h : Text.indexFrom? t.toList s.toList (max p 1 - 1).toNat = found) :
    inStr [.int p, .text s, .text t] = .ok (.int (found.elim 0 fun i => (i : Int) + 1)) := by
  have htext (u : Text) : (Value.text u).display = .ok u := rfl
  have hstart : (Value.int p).toPosition = .ok p := rfl
  simp only [inStr, hstart, htext, bind, Except.bind, pure, Except.pure, h]
  cases found <;> rfl

/-- The search gives the first occurrence that does not lie before its start, or zero. -/
theorem exists_inStr : ∃ k : Int, inStr [.int p, .text s, .text t] = .ok (.int k) ∧
    (k = 0 ↔ ∀ position, max p 1 ≤ position → ¬ Text.OccursAt t s position) ∧
    (k ≠ 0 → max p 1 ≤ k ∧ Text.OccursAt t s k ∧
      ∀ position, max p 1 ≤ position → Text.OccursAt t s position → k ≤ position) := by
  cases hindex : Text.indexFrom? t.toList s.toList (max p 1 - 1).toNat with
  | none =>
    refine ⟨0, inStr_texts hindex, ⟨fun _ position hle hoccurs => ?_, fun _ => rfl⟩,
      fun h => absurd rfl h⟩
    obtain ⟨i, rfl⟩ := Text.exists_of_occursAt hoccurs
    exact Text.not_occursAt_of_indexFrom? hindex (by omega) hoccurs
  | some i =>
    obtain ⟨hstart, hoccurs, hfirst⟩ := Text.occursAt_of_indexFrom? hindex
    have hle : max p 1 ≤ (i : Int) + 1 := by omega
    refine ⟨i + 1, inStr_texts hindex, ⟨fun h => by omega, fun h => absurd hoccurs (h _ hle)⟩,
      fun _ => ⟨hle, hoccurs, fun position hposition hother => ?_⟩⟩
    obtain ⟨j, rfl⟩ := Text.exists_of_occursAt hother
    have := hfirst j (by omega) hother
    omega

end Library

namespace Script

-- ════════════════════════════════════════════════════════════════════════════
-- Expressions and their values
-- ════════════════════════════════════════════════════════════════════════════

/-- Whether an expression has a value, and finding it leaves the world as it is. -/
def HasValue (line : Line) (w : World) (e : Expr) (v : Value) : Prop := eval line e w = .done w v

/-- Whether the members of an expression are those of its value: it is neither the form nor the name
of a component or of a static class. -/
def IsBare (w : World) (e : Expr) : Prop :=
  e ≠ .ident selfName ∧ w.component? e = none ∧ w.staticClass? e = none

section Values

variable {line : Line} {w : World} {e e' : Expr} {es : List Expr} {v : Value} {vs : List Value}
  {name : Text} {s t : Text} {m n : Int}

theorem evalAll_of_hasValue (h : List.Forall₂ (HasValue line w) es vs) :
    evalAll line es w = .done w vs := by
  induction h with
  | nil => rfl
  | cons hv _ ih =>
    rw [evalAll, bind_of_done hv, bind_of_done ih]
    rfl

/-- No function has the name of a constructor, a box or the calculator, so what is called by the
name of a function is the function. -/
theorem callNamed_of_function? {f : Library.Function}
    (h : Library.function? (Text.word name) = some f) (line : Line) (args : List Value) :
    callNamed line name args = guarded name line (f args) := by
  rw [callNamed]
  generalize Text.word name = lowered at h
  have hconstruct : construct? lowered args = none := by
    unfold construct?
    split
    · cases h
    · cases h
    · cases h
    · cases h
    · rfl
  simp only [hconstruct]
  split
  · cases h
  · cases h
  · cases h
  · cases h
  · rw [h]

theorem hasValue_call {f : Library.Function} (hname : Library.function? (Text.word name) = some f)
    (hargs : List.Forall₂ (HasValue line w) es vs) (hf : f vs = .ok v) :
    HasValue line w (.call (.ident name) es) v := by
  rw [HasValue, eval, bind_of_done (evalAll_of_hasValue hargs), callNamed_of_function? hname, hf]
  rfl

/-- Lists have no method of the name `Substring`. -/
theorem callOnList?_substring (object : Expr) (args : List Value) (w : World) :
    callOnList? object "substring" args w = .done w none := by
  cases object with
  | member owner property =>
    rw [callOnList?, bind_of_done (m := world) rfl]
    cases w.component? owner with
    | none => rfl
    | some component =>
      change callList? component property "substring" args w = _
      rw [callList?, bind_of_done (m := world) rfl]
      cases listProperty? w component (canonicalProperty property) <;> rfl
  | _ => rfl

/-- A method of a bare expression is one of its value, unless it is one of a list. -/
theorem callMethod_of_isBare {args : List Value} (hbare : IsBare w e)
    (hlist : callOnList? e (Text.word name) args w = .done w none) (line : Line)
    (value : Script Value) :
    callMethod line e name args value w = (value >>= fun v => callMember v name args) w := by
  obtain ⟨hself, hcomponent, hclass⟩ := hbare
  rw [callMethod, bind_of_done hlist]
  refine (bind_of_done (m := world) rfl _).trans ?_
  cases e with
  | ident owner =>
    simp only [hclass, hcomponent]
    rw [if_neg fun h => hself (congrArg Expr.ident h)]
  | _ => simp only [hclass, hcomponent]

/-- The method `Substring` of a bare expression is that of its text. -/
theorem hasValue_substring (hbare : IsBare w e) (hs : HasValue line w e (.text s))
    (hargs : List.Forall₂ (HasValue line w) es vs) (hcut : Library.substring s vs = .ok v) :
    HasValue line w (.call (.member e "Substring") es) v := by
  have hword : Text.word "Substring" = "substring" := by decide
  have hlist := callOnList?_substring e vs w
  rw [← hword] at hlist
  have hmethod : callMember (.text s) "Substring" vs = compute (Library.substring s vs) := by
    rw [callMember, Library.callMethod, hword]
    rfl
  rw [HasValue, eval, bind_of_done (evalAll_of_hasValue hargs), callMethod_of_isBare hbare hlist,
    bind_of_done hs, hmethod, hcut]
  rfl

theorem hasValue_number (n : Int) : HasValue line w (.number (.int n)) (.int n) := rfl

theorem hasValue_concat (hs : HasValue line w e (.text s)) (ht : HasValue line w e' (.text t)) :
    HasValue line w (.binary .concat e e') (.text (s ++ t)) := by
  rw [HasValue, eval, bind_of_done hs, bind_of_done ht]
  rfl

theorem hasValue_add (hm : HasValue line w e (.int m)) (hn : HasValue line w e' (.int n)) :
    HasValue line w (.binary .add e e') (.int (m + n)) := by
  rw [HasValue, eval, bind_of_done hm, bind_of_done hn]
  rfl

theorem hasValue_sub (hm : HasValue line w e (.int m)) (hn : HasValue line w e' (.int n)) :
    HasValue line w (.binary .sub e e') (.int (m - n)) := by
  rw [HasValue, eval, bind_of_done hm, bind_of_done hn]
  rfl

end Values

-- ════════════════════════════════════════════════════════════════════════════
-- Left, Right, Mid and InStr
-- ════════════════════════════════════════════════════════════════════════════

section Parts

variable {line : Line} {w : World} {s t n p : Expr} {source sought : Text} {count position : Int}

theorem hasValue_left (hs : HasValue line w s (.text source))
    (hn : HasValue line w n (.int count)) :
    HasValue line w (.call (.ident "Left") [s, n]) (.text (source.firstPart count)) :=
  hasValue_call rfl (.cons hs (.cons hn .nil)) (Library.left_text source count)

theorem hasValue_right (hs : HasValue line w s (.text source))
    (hn : HasValue line w n (.int count)) :
    HasValue line w (.call (.ident "Right") [s, n]) (.text (source.lastPart count)) :=
  hasValue_call rfl (.cons hs (.cons hn .nil)) (Library.right_text source count)

theorem hasValue_mid (hs : HasValue line w s (.text source))
    (hp : HasValue line w p (.int position)) (hn : HasValue line w n (.int count)) :
    HasValue line w (.call (.ident "Mid") [s, p, n]) (.text (source.part position count)) :=
  hasValue_call rfl (.cons hs (.cons hp (.cons hn .nil))) (Library.mid_text source count position)

theorem hasValue_midFrom (hs : HasValue line w s (.text source))
    (hp : HasValue line w p (.int position)) :
    HasValue line w (.call (.ident "Mid") [s, p]) (.text (source.partFrom position)) :=
  hasValue_call rfl (.cons hs (.cons hp .nil)) (Library.mid_text_nothing source position)

theorem hasValue_len (hs : HasValue line w s (.text source)) :
    HasValue line w (.call (.ident "Len") [s]) (.int source.length) :=
  hasValue_call rfl (.cons hs .nil) rfl

/-- What `Left`, `Right` and `Mid` cut out of a text fits together, for all counts and positions;
and `InStr` gives the first position from a start on at which a text occurs, from where `Mid` cuts
it out, or zero if it occurs at none. -/
theorem parts_fit_together (hs : HasValue line w s (.text source))
    (ht : HasValue line w t (.text sought)) (hn : HasValue line w n (.int count))
    (hp : HasValue line w p (.int position)) :
    HasValue line w (.binary .concat (.call (.ident "Left") [s, n])
      (.call (.ident "Mid") [s, .binary .add n (.number (.int 1))])) (.text source) ∧
    HasValue line w (.binary .concat
      (.call (.ident "Left") [s, .binary .sub (.call (.ident "Len") [s]) n])
      (.call (.ident "Right") [s, n])) (.text source) ∧
    (∃ part, HasValue line w (.call (.ident "Mid") [s, p, n]) (.text part) ∧
      HasValue line w (.call (.ident "Left") [.call (.ident "Mid") [s, p], n]) (.text part)) ∧
    ∃ k : Int, HasValue line w (.call (.ident "InStr") [p, s, t]) (.int k) ∧
      (k = 0 ↔ ∀ place, max position 1 ≤ place → ¬ Text.OccursAt sought source place) ∧
      (k ≠ 0 → max position 1 ≤ k ∧ Text.OccursAt sought source k ∧
        (∀ place, max position 1 ≤ place → Text.OccursAt sought source place → k ≤ place) ∧
        HasValue line w (.call (.ident "Mid")
          [s, .call (.ident "InStr") [p, s, t], .call (.ident "Len") [t]]) (.text sought)) := by
  refine ⟨?_, ?_, ⟨source.part position count, hasValue_mid hs hp hn, ?_⟩, ?_⟩
  · have hnext := hasValue_add hn (hasValue_number 1)
    have := hasValue_concat (hasValue_left hs hn) (hasValue_midFrom hs hnext)
    rwa [Text.firstPart_append_partFrom] at this
  · have := hasValue_concat (hasValue_left hs (hasValue_sub (hasValue_len hs) hn))
      (hasValue_right hs hn)
    rwa [Text.firstPart_append_lastPart] at this
  · have := hasValue_left (hasValue_midFrom hs hp) hn
    rwa [Text.firstPart_partFrom] at this
  · obtain ⟨k, hk, hzero, hfound⟩ := Library.exists_inStr source sought position
    have hinStr : HasValue line w (.call (.ident "InStr") [p, s, t]) (.int k) :=
      hasValue_call rfl (.cons hp (.cons hs (.cons ht .nil))) hk
    refine ⟨k, hinStr, hzero, fun hk0 => ?_⟩
    obtain ⟨hle, hoccurs, hfirst⟩ := hfound hk0
    have hmid := hasValue_mid hs hinStr (hasValue_len ht)
    rw [Text.part_of_occursAt hoccurs] at hmid
    exact ⟨hle, hoccurs, hfirst, hmid⟩

/-- A world in which the variable `s` holds a text. -/
def greeting : World := ({} : World).setVariable "s" (.text "hello")

theorem parts_fit_together_greeting :
    (HasValue none greeting (.ident "s") (.text "hello") ∧
      HasValue none greeting (.string "l") (.text "l") ∧
      HasValue none greeting (.number (.int (-2))) (.int (-2)) ∧
      HasValue none greeting (.number (.int 4)) (.int 4)) ∧
    HasValue none greeting (.binary .concat
      (.call (.ident "Left") [.ident "s",
        .binary .sub (.call (.ident "Len") [.ident "s"]) (.number (.int (-2)))])
      (.call (.ident "Right") [.ident "s", .number (.int (-2))])) (.text "hello") ∧
    ∃ k, HasValue none greeting
        (.call (.ident "InStr") [.number (.int 4), .ident "s", .string "l"]) (.int k) ∧
      4 ≤ k ∧ Text.OccursAt "l" "hello" k := by
  have hs : HasValue none greeting (.ident "s") (.text "hello") := rfl
  have ht : HasValue none greeting (.string "l") (.text "l") := rfl
  have hn : HasValue none greeting (.number (.int (-2))) (.int (-2)) := hasValue_number _
  have hp : HasValue none greeting (.number (.int 4)) (.int 4) := hasValue_number _
  obtain ⟨-, hends, -, k, hk, hzero, hfound⟩ := parts_fit_together hs ht hn hp
  have hoccurs : Text.OccursAt "l" "hello" 4 := ⟨"hel", "o", rfl, rfl⟩
  obtain ⟨hle, hk', -⟩ := hfound fun h => hzero.1 h 4 (by decide) hoccurs
  exact ⟨⟨hs, ht, hn, hp⟩, hends, k, hk, hle, hk'⟩

-- ════════════════════════════════════════════════════════════════════════════
-- Substring and Mid
-- ════════════════════════════════════════════════════════════════════════════

/-- `Substring` cuts out the part between the positions of its bounds. Where its first bound is not
negative, this is what `Mid` cuts out unless the second bound is negative and stands for a later
position in the text; and only there it has more code points than it was asked for. Without a length
the two agree unless a negative bound stands for a position behind the start of the text. -/
theorem substring_matches_mid_iff (hbare : IsBare w s) (hs : HasValue line w s (.text source))
    (hp : HasValue line w p (.int position)) (hn : HasValue line w n (.int count)) :
    let first := Text.boundPosition source.length position
    let last := Text.boundPosition source.length (position + count)
    let reversed := position < -count ∧ -count < source.length
    ∃ cut part tail rest : Text,
      HasValue line w (.call (.member s "Substring") [p, n]) (.text cut) ∧
      HasValue line w (.call (.ident "Mid") [s, .binary .add p (.number (.int 1)), n])
        (.text part) ∧
      HasValue line w (.call (.member s "Substring") [p]) (.text tail) ∧
      HasValue line w (.call (.ident "Mid") [s, .binary .add p (.number (.int 1))]) (.text rest) ∧
      cut = source.part (first + 1) (last - first) ∧ tail = source.partFrom (first + 1) ∧
      (0 ≤ position → (cut = part ↔ ¬ reversed)) ∧
      (tail = rest ↔ 0 ≤ position ∨ position + source.length ≤ 0) ∧
      (cut.length ≤ max count 0 ↔ ¬ (0 ≤ position ∧ reversed)) := by
  intro first last reversed
  have hnext := hasValue_add hp (hasValue_number 1)
  refine ⟨_, _, _, _,
    hasValue_substring hbare hs (.cons hp (.cons hn .nil)) (Library.substring_text _ _ _),
    hasValue_mid hs hnext hn,
    hasValue_substring hbare hs (.cons hp .nil) (Library.substring_text_nothing _ _),
    hasValue_midFrom hs hnext, rfl, rfl, fun hposition => ?_, ?_, ?_⟩
  · have hfirst : Text.boundPosition source.length position = position :=
      if_neg (Int.not_lt.2 hposition)
    rw [hfirst, Text.part_eq_part_iff, Text.boundPosition]
    split <;> omega
  · rw [Text.partFrom_eq_partFrom_iff, Text.boundPosition]
    split <;> omega
  · rw [Text.length_part, Text.boundPosition, Text.boundPosition]
    split <;> split <;> omega

/-- A negative length is no length of zero: it makes `Substring` stop before the end. -/
theorem substring_matches_mid_iff_negativeLength :
    (IsBare greeting (.ident "s") ∧ HasValue none greeting (.ident "s") (.text "hello") ∧
      HasValue none greeting (.number (.int 0)) (.int 0) ∧
      HasValue none greeting (.number (.int (-1))) (.int (-1))) ∧
    ∃ cut part : Text,
      HasValue none greeting
        (.call (.member (.ident "s") "Substring") [.number (.int 0), .number (.int (-1))])
        (.text cut) ∧
      HasValue none greeting
        (.call (.ident "Mid")
          [.ident "s", .binary .add (.number (.int 0)) (.number (.int 1)), .number (.int (-1))])
        (.text part) ∧
      cut = "hell" ∧ cut ≠ part := by
  have hbare : IsBare greeting (.ident "s") :=
    ⟨fun h => absurd (Expr.ident.inj h) (by decide), by decide, by decide⟩
  have hs : HasValue none greeting (.ident "s") (.text "hello") := rfl
  have hp : HasValue none greeting (.number (.int 0)) (.int 0) := hasValue_number _
  have hn : HasValue none greeting (.number (.int (-1))) (.int (-1)) := hasValue_number _
  obtain ⟨cut, part, -, -, hcut, hpart, -, -, heq, -, hiff, -⟩ :=
    substring_matches_mid_iff hbare hs hp hn
  exact ⟨⟨hbare, hs, hp, hn⟩, cut, part, hcut, hpart, heq,
    fun h => (hiff (by decide)).1 h (by decide)⟩

end Parts

end Script

end FormBasic
