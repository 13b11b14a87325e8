import FormBasic.Proofs.Grammar.Bounded
import Mathlib.Logic.Relation

/-!
# Cursors with an index

A parser can also walk over the whole list of tokens and keep the index of the next one. The list has
end markers in its middle and tokens behind them, and nothing but the way it is moved keeps an index
from passing the first marker or from leaving the list. Here are the operations that move and question
such a cursor; they have no result where an index is outside. A cursor that starts at the first token
and is moved by them stays in front of the first end marker or on it, every token that it asks for is
in the list, also the one after the next, and each of the operations agrees with a step on what is
left in the stream.

## Main definitions

* `Cursor`, `Cursor.peek?`, `Cursor.peekAhead?`, `Cursor.advance?` - lists with an index
* `Cursor.At` - cursors in front of what is left in a stream
* `Cursor.Reads` - how the operations agree with the steps on what is left

## Main statements

* `Cursor.At.reads` - all operations of a cursor have results, which are those of the stream
* `Cursor.At.advances` - a cursor gets by advancing to wherever a parsing function ends
-/

namespace FormBasic

/-- A list of tokens and the index of the next one. -/
structure Cursor where
  items : List Token
  index : Nat

namespace Cursor

-- ════════════════════════════════════════════════════════════════════════════
-- Operations
-- ════════════════════════════════════════════════════════════════════════════

/-- The cursor after the next token. -/
def next (c : Cursor) : Cursor := { c with index := c.index + 1 }

/-- The next token. -/
def peek? (c : Cursor) : Option Token := c.items[c.index]?

/-- A token further on, or the last one of the list if there are not so many. -/
def peekAhead? (c : Cursor) (offset : Nat) : Option Token :=
  c.items[min (c.index + offset) (c.items.length - 1)]?

/-- Whether the next token is an end marker. -/
def atEnd? (c : Cursor) : Option Bool := c.peek?.map fun t => t.kind == .eof

/-- Takes the next token, unless it is an end marker. -/
def advance? (c : Cursor) : Option (Token × Cursor) :=
  c.peek?.map fun t => (t, if t.kind = .eof then c else c.next)

/-- Takes all line ends that come next. -/
def skipNewlines? (c : Cursor) : Option Cursor :=
  if h : c.index < c.items.length then
    if c.items[c.index].kind = .newline then c.next.skipNewlines? else some c
  else none
termination_by c.items.length - c.index
decreasing_by exact Nat.sub_lt_sub_left h (Nat.lt_succ_self _)

/-- Whether the next token is one of the symbols. -/
def check? (c : Cursor) (texts : List Text) : Option Bool := c.peek?.map fun t => t.isAnyOf texts

/-- Whether the next two tokens are `End` and one of the words; the second one is only asked for
after the first one. -/
def atEndOf? (c : Cursor) (words : List Text) : Option Bool := do
  if ← c.check? ["end"] then (c.peekAhead? 1).map fun t => t.isAnyOf words else some false

/-- Whether no further token belongs to the statement. -/
def atStatementEnd? (c : Cursor) : Option Bool := c.peek?.map Token.endsStatement

/-- Takes a given symbol. -/
def expect? (c : Cursor) (want : Text) : Option (Except ParseFailure (Token × Cursor)) := do
  let t ← c.peek?
  if t.isSymbol want then c.advance?.map .ok else some (failAt t (.expected want (shown t)))

/-- Whether a cursor gets to another one by taking tokens. -/
abbrev Advances : Cursor → Cursor → Prop :=
  Relation.ReflTransGen fun c c' => ∃ t, c.advance? = some (t, c')

-- ════════════════════════════════════════════════════════════════════════════
-- What is left
-- ════════════════════════════════════════════════════════════════════════════

/-- Whether a cursor stands in front of what is left in a stream: these tokens and the first end marker
come next in its list. -/
def At (c : Cursor) (s : Stream) (ts : List Token) : Prop :=
  ∃ before later, s.tokens = before ++ ts ∧ c.items = s.tokens ++ s.stop :: later ∧
    c.index = before.length

/-- How the operations of a cursor agree with the steps on what is left in a stream. -/
structure Reads (c : Cursor) (s : Stream) (ts : List Token) : Prop where
  /-- The cursor has not passed the first end marker. -/
  index : c.index + ts.length = s.tokens.length
  peek : c.peek? = some (peek s.stop ts)
  /-- Where a token is left, the one after it is in the list as well. -/
  peekAhead : ∀ t rest, ts = t :: rest → c.peekAhead? 1 = some (FormBasic.peek s.stop rest)
  atEnd : c.atEnd? = some ts.isEmpty
  check : ∀ texts, c.check? texts = some (nextIs ts texts)
  atEndOf : ∀ words, c.atEndOf? words = some (atEndOf ts words)
  atStatementEnd : c.atStatementEnd? = some (atStatementEnd ts)
  advance : ∃ c', c.advance? = some (FormBasic.peek s.stop ts, c') ∧ c'.At s (ts.drop 1)
  skipNewlines : ∃ c', c.skipNewlines? = some c' ∧ c'.At s (skipNewlines ts)
  expect : ∀ want p, expect s.stop want ts = .ok p →
    ∃ c', c.expect? want = some (.ok (p.value, c')) ∧ c'.At s p.rest
  expectFails : ∀ want failure, FormBasic.expect s.stop want ts = .error failure →
    c.expect? want = some (.error failure)

namespace At

variable {c : Cursor} {s : Stream} {t : Token} {ts rest : List Token}

/-- A cursor starts in front of the whole stream. -/
theorem start {items : List Token} (h : ∃ later, items = s.tokens ++ s.stop :: later) :
    (⟨items, 0⟩ : Cursor).At s s.tokens := by
  obtain ⟨later, hitems⟩ := h
  exact ⟨[], later, rfl, hitems, rfl⟩

theorem index_add (h : c.At s ts) : c.index + ts.length = s.tokens.length := by
  obtain ⟨before, later, htokens, -, hindex⟩ := h
  rw [hindex, htokens, List.length_append]

/-- A token is taken by moving on. -/
theorem next (h : c.At s (t :: ts)) : c.next.At s ts := by
  obtain ⟨before, later, htokens, hitems, hindex⟩ := h
  refine ⟨before ++ [t], later, ?_, hitems, ?_⟩
  · rw [htokens, List.append_assoc, List.singleton_append]
  · rw [Cursor.next, hindex, List.length_append, List.length_singleton]

/-- Everything is taken from the list by its index. -/
theorem getElem? (h : c.At s ts) (n : Nat) :
    ∃ later, c.items.length = c.index + (ts.length + 1 + later.length) ∧
      c.items[c.index + n]? = (ts ++ s.stop :: later)[n]? := by
  obtain ⟨before, later, htokens, hitems, hindex⟩ := h
  refine ⟨later, ?_, ?_⟩
  · rw [hitems, htokens, hindex]
    simp only [List.length_append, List.length_cons]
    omega
  · rw [hitems, htokens, hindex, List.append_assoc, List.getElem?_append_right (Nat.le_add_right _ _),
      Nat.add_sub_cancel_left]

theorem peek?_eq (h : c.At s ts) : c.peek? = some (peek s.stop ts) := by
  obtain ⟨later, -, hget⟩ := h.getElem? 0
  rw [Cursor.peek?, ← Nat.add_zero c.index, hget]
  cases ts <;> rfl

theorem peekAhead?_eq (h : c.At s (t :: ts)) : c.peekAhead? 1 = some (peek s.stop ts) := by
  obtain ⟨later, hlength, hget⟩ := h.getElem? 1
  have hmin : min (c.index + 1) (c.items.length - 1) = c.index + 1 := by
    rw [List.length_cons] at hlength
    omega
  rw [peekAhead?, hmin, hget]
  cases ts <;> rfl

section Marked

variable (hstop : s.stop.kind = .eof) (hkinds : ∀ t ∈ s.tokens, t.kind ≠ .eof)

include hkinds in
theorem kind_ne_eof (h : c.At s ts) : ∀ t ∈ ts, t.kind ≠ .eof := by
  obtain ⟨before, later, htokens, -, -⟩ := h
  exact fun t ht => hkinds t (htokens ▸ List.mem_append_right before ht)

include hstop in
/-- An end marker is no symbol. -/
theorem isSymbol_stop (want : Text) : s.stop.isSymbol want = false := by
  rw [Token.isSymbol, hstop]
  rfl

include hstop in
theorem isAnyOf_peek (ts : List Token) (texts : List Text) :
    (peek s.stop ts).isAnyOf texts = nextIs ts texts := by
  cases ts with
  | nil =>
    change texts.any s.stop.isSymbol = false
    exact List.any_eq_false.2 fun text _ => Bool.not_eq_true _ ▸ isSymbol_stop hstop text
  | cons t ts => rfl

include hstop in
theorem check?_eq (h : c.At s ts) (texts : List Text) : c.check? texts = some (nextIs ts texts) := by
  rw [check?, h.peek?_eq, Option.map_some, isAnyOf_peek hstop]

include hstop in
theorem atEndOf?_eq (h : c.At s ts) (words : List Text) :
    c.atEndOf? words = some (atEndOf ts words) := by
  rw [atEndOf?, h.check?_eq hstop, atEndOf]
  cases hnext : nextIs ts ["end"] with
  | false => rfl
  | true =>
    obtain ⟨t, rest, rfl, -⟩ := exists_of_nextIs hnext
    change (c.peekAhead? 1).map _ = _
    rw [h.peekAhead?_eq, Option.map_some, isAnyOf_peek hstop]
    rfl

include hstop in
theorem atStatementEnd?_eq (h : c.At s ts) : c.atStatementEnd? = some (atStatementEnd ts) := by
  rw [atStatementEnd?, h.peek?_eq, Option.map_some]
  cases ts with
  | nil =>
    change some (s.stop.kind == .newline || s.stop.kind == .eof) = _
    rw [hstop]
    rfl
  | cons t ts => rfl

include hstop hkinds in
theorem atEnd?_eq (h : c.At s ts) : c.atEnd? = some ts.isEmpty := by
  rw [atEnd?, h.peek?_eq, Option.map_some]
  cases ts with
  | nil =>
    change some (s.stop.kind == .eof) = _
    rw [hstop]
    rfl
  | cons t ts =>
    exact congrArg some (beq_eq_false_iff_ne.2 (h.kind_ne_eof hkinds t List.mem_cons_self))

include hkinds in
theorem advance?_cons (h : c.At s (t :: ts)) : c.advance? = some (t, c.next) := by
  rw [advance?, h.peek?_eq]
  exact congrArg (fun c' => some (t, c')) (if_neg (h.kind_ne_eof hkinds t List.mem_cons_self))

include hstop in
theorem advance?_nil (h : c.At s []) : c.advance? = some (s.stop, c) := by
  rw [advance?, h.peek?_eq]
  exact congrArg (fun c' => some (s.stop, c')) (if_pos hstop)

include hstop hkinds in
theorem exists_advance? (h : c.At s ts) :
    ∃ c', c.advance? = some (peek s.stop ts, c') ∧ c'.At s (ts.drop 1) := by
  cases ts with
  | nil => exact ⟨c, h.advance?_nil hstop, h⟩
  | cons t ts => exact ⟨c.next, h.advance?_cons hkinds, h.next⟩

/-- What is looked at is in the list. -/
theorem skipNewlines?_eq (h : c.At s ts) :
    c.skipNewlines? =
      if (peek s.stop ts).kind = .newline then c.next.skipNewlines? else some c := by
  have hpeek := h.peek?_eq
  rw [Cursor.peek?] at hpeek
  obtain ⟨hindex, hget⟩ := List.getElem?_eq_some_iff.1 hpeek
  rw [skipNewlines?, dif_pos hindex, hget]

include hstop in
theorem exists_skipNewlines? (h : c.At s ts) :
    ∃ c', c.skipNewlines? = some c' ∧ c'.At s (skipNewlines ts) := by
  induction ts generalizing c with
  | nil =>
    have hkind : (peek s.stop []).kind ≠ .newline := by
      change s.stop.kind ≠ _
      rw [hstop]
      exact fun hkind => nomatch hkind
    exact ⟨c, by rw [h.skipNewlines?_eq, if_neg hkind], h⟩
  | cons t ts ih =>
    rw [h.skipNewlines?_eq]
    by_cases hkind : t.kind = .newline
    · have hskip : skipNewlines (t :: ts) = skipNewlines ts :=
        List.dropWhile_cons_of_pos (by rw [hkind]; rfl)
      rw [hskip, if_pos (by exact hkind)]
      exact ih h.next
    · have hskip : skipNewlines (t :: ts) = t :: ts :=
        List.dropWhile_cons_of_neg (by rwa [beq_iff_eq])
      rw [hskip, if_neg (by exact hkind)]
      exact ⟨c, rfl, h⟩

include hkinds in
theorem exists_expect? (h : c.At s ts) {want : Text} {p : Parsed Token ts.length}
    (hp : expect s.stop want ts = .ok p) :
    ∃ c', c.expect? want = some (.ok (p.value, c')) ∧ c'.At s p.rest := by
  cases ts with
  | nil => cases hp
  | cons t ts =>
    rw [FormBasic.expect] at hp
    split at hp
    · next hsymbol =>
      cases hp
      refine ⟨c.next, ?_, h.next⟩
      rw [expect?, h.peek?_eq]
      change (if t.isSymbol want then _ else _) = _
      rw [if_pos hsymbol, h.advance?_cons hkinds]
      rfl
    · cases hp

include hstop in
theorem expect?_of_error (h : c.At s ts) {want : Text} {failure : ParseFailure}
    (hfails : expect s.stop want ts = .error failure) : c.expect? want = some (.error failure) := by
  have hsymbol : (peek s.stop ts).isSymbol want = false ∧
      failAt (peek s.stop ts) (.expected want (shown (peek s.stop ts))) =
        (.error failure : Except ParseFailure (Token × Cursor)) := by
    cases ts with
    | nil =>
      cases hfails
      exact ⟨isSymbol_stop hstop want, rfl⟩
    | cons t ts =>
      rw [FormBasic.expect] at hfails
      split at hfails
      · cases hfails
      · next hsymbol =>
        cases hfails
        exact ⟨Bool.not_eq_true _ ▸ hsymbol, rfl⟩
  rw [expect?, h.peek?_eq]
  change (if (peek s.stop ts).isSymbol want then _ else _) = _
  rw [if_neg (by rw [hsymbol.1]; exact Bool.false_ne_true), hsymbol.2]

include hstop hkinds in
/-- In front of what is left in a stream all operations have results, which are those of the stream,
and they leave the cursor in front of what is left then. -/
theorem reads (h : c.At s ts) : c.Reads s ts where
  index := h.index_add
  peek := h.peek?_eq
  peekAhead t rest hts := by
    subst hts
    exact h.peekAhead?_eq
  atEnd := h.atEnd?_eq hstop hkinds
  check := h.check?_eq hstop
  atEndOf := h.atEndOf?_eq hstop
  atStatementEnd := h.atStatementEnd?_eq hstop
  advance := h.exists_advance? hstop hkinds
  skipNewlines := h.exists_skipNewlines? hstop
  expect _ _ := h.exists_expect? hkinds
  expectFails _ _ := h.expect?_of_error hstop

include hkinds in
/-- A cursor gets by advancing to all that comes later in the stream. -/
theorem advances (h : c.At s ts) (hrest : rest <:+ ts) :
    ∃ c', c.Advances c' ∧ c'.At s rest := by
  induction ts generalizing c with
  | nil =>
    obtain rfl := List.suffix_nil.1 hrest
    exact ⟨c, .refl, h⟩
  | cons t ts ih =>
    obtain rfl | hrest := List.suffix_cons_iff.1 hrest
    · exact ⟨c, .refl, h⟩
    · obtain ⟨c', hadvances, hc'⟩ := ih h.next hrest
      exact ⟨c', .head ⟨t, h.advance?_cons hkinds⟩ hadvances, hc'⟩

end Marked

end At

end Cursor

end FormBasic
