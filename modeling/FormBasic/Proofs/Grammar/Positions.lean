import FormBasic.Proofs.Grammar.Indices

/-!
# Positions in lists of tokens

Parsers may be given any tokens: with or without an end marker, with end markers in the middle, and
with tokens that the scanner does not make. What they read is a list without comments that ends with
an end marker, and only the part up to the first end marker matters. A position is the number of
tokens before it; it never lies behind the first end marker. The stream is cut there, which a cursor
over the whole list does not notice: it never asks for what comes later.

## Main definitions

* `Stream.items` - the list that is read
* `Stream.Bounded` - how parsers move in it

## Main statements

* `Stream.items_eq` - a stream is what comes up to the first end marker
* `Stream.ofTokens_eq_of_begins` - what comes after the first end marker does not matter
* `Stream.bounded_ofTokens` - parsers end, and stay before the first end marker
-/

namespace FormBasic

namespace Stream

/-- The list that parsers read: the tokens without comments, and where the last one is no end marker,
one on its line. -/
def items (all : List Token) : List Token :=
  let ts := all.filter fun t => t.kind != .comment
  if ts.getLast?.any fun t => t.kind == .eof then ts
  else ts ++ [⟨.eof, "", (ts.getLast?.map Token.line).getD (.ofNat 1), 0⟩]

variable (all : List Token)

theorem kind_of_mem_tokens {t : Token} (h : t ∈ (ofTokens all).tokens) : t.kind ≠ .eof := by
  have hkind := List.all_eq_true.1 List.all_takeWhile t h
  simpa using hkind

theorem kind_stop : (ofTokens all).stop.kind = .eof := by
  unfold ofTokens
  simp only
  cases hrest : (all.filter fun t => t.kind != .comment).dropWhile fun t => t.kind != .eof with
  | nil => rfl
  | cons t rest =>
    have hkind := List.head?_dropWhile_not (fun t : Token => t.kind != .eof)
      (all.filter fun t => t.kind != .comment)
    rw [hrest] at hkind
    simpa using hkind

/-- A stream is what comes up to the first end marker. -/
theorem items_eq : ∃ later, items all = (ofTokens all).tokens ++ (ofTokens all).stop :: later := by
  unfold items ofTokens
  simp only
  generalize all.filter (fun t => t.kind != .comment) = ts
  generalize (⟨.eof, "", (ts.getLast?.map Token.line).getD (.ofNat 1), 0⟩ : Token) = implied
  have hsplit := List.takeWhile_append_dropWhile (p := fun t : Token => t.kind != .eof) (l := ts)
  cases hrest : ts.dropWhile fun t => t.kind != .eof with
  | nil =>
    rw [hrest, List.append_nil] at hsplit
    have hlast : (ts.getLast?.any fun t => t.kind == .eof) = false := by
      rw [← Bool.not_eq_true, Option.any_eq_true]
      rintro ⟨t, ht, hmarker⟩
      have hkind := List.all_eq_true.1 List.all_takeWhile t
        (hsplit.symm ▸ List.mem_of_getLast? ht : t ∈ ts.takeWhile fun t => t.kind != .eof)
      rw [bne, hmarker] at hkind
      cases hkind
    rw [hlast, hsplit]
    exact ⟨[], rfl⟩
  | cons t rest =>
    rw [hrest] at hsplit
    cases hlast : ts.getLast?.any fun t => t.kind == .eof with
    | true => exact ⟨rest, hsplit.symm⟩
    | false =>
      refine ⟨rest ++ [implied], ?_⟩
      show ts ++ [implied] = _
      rw [← List.cons_append, ← List.append_assoc]
      exact congrArg (· ++ [implied]) hsplit.symm

/-- A list has one first end marker. -/
theorem first_marker_unique {before before' after after' : List Token} {t t' : Token}
    (h : before ++ t :: after = before' ++ t' :: after') (hbefore : ∀ u ∈ before, u.kind ≠ .eof)
    (ht : t.kind = .eof) (hbefore' : ∀ u ∈ before', u.kind ≠ .eof) (ht' : t'.kind = .eof) :
    before = before' ∧ t = t' := by
  induction before generalizing before' with
  | nil =>
    cases before' with
    | nil => exact ⟨rfl, (List.cons.inj h).1⟩
    | cons u us => exact absurd ((List.cons.inj h).1 ▸ ht) (hbefore' u List.mem_cons_self)
  | cons u us ih =>
    cases before' with
    | nil => exact absurd ((List.cons.inj h).1.symm ▸ ht') (hbefore u List.mem_cons_self)
    | cons u' us' =>
      obtain ⟨rfl, hrest⟩ := List.cons.inj h
      obtain ⟨rfl, rfl⟩ := ih hrest (fun v hv => hbefore v (List.mem_cons_of_mem _ hv))
        fun v hv => hbefore' v (List.mem_cons_of_mem _ hv)
      exact ⟨rfl, rfl⟩

/-- What comes after the first end marker does not matter. -/
theorem ofTokens_eq_of_begins {all all' : List Token}
    (h : (ofTokens all).tokens ++ [(ofTokens all).stop] <+: items all') :
    ofTokens all' = ofTokens all := by
  obtain ⟨later, hitems⟩ := h
  obtain ⟨later', hitems'⟩ := items_eq all'
  rw [List.append_assoc, hitems'] at hitems
  obtain ⟨htokens, hstop⟩ := first_marker_unique hitems (fun _ => kind_of_mem_tokens all)
    (kind_stop all) (fun _ => kind_of_mem_tokens all') (kind_stop all')
  show Stream.mk (ofTokens all').tokens (ofTokens all').stop = ofTokens all
  rw [← htokens, ← hstop]

variable {all}

/-- At every position up to the first end marker the next token is the one that stands there. -/
theorem getElem?_items {i : Nat} (hi : i ≤ (ofTokens all).tokens.length) :
    (items all)[i]? = some (peek (ofTokens all).stop ((ofTokens all).tokens.drop i)) := by
  obtain ⟨later, hitems⟩ := items_eq all
  rw [hitems, peek, List.head?_drop]
  rcases Nat.lt_or_eq_of_le hi with hlt | rfl
  · rw [List.getElem?_append_left hlt, List.getElem?_eq_getElem hlt]
    rfl
  · rw [List.getElem?_append_right (Nat.le_refl _), Nat.sub_self, List.getElem?_eq_none (Nat.le_refl _)]
    rfl

/-- An end of what is left at a position is what is left at a later one. -/
theorem exists_position {ts rest : List Token} {i : Nat} (hi : i ≤ ts.length)
    (h : rest <:+ ts.drop i) : ∃ j, i ≤ j ∧ j ≤ ts.length ∧ rest = ts.drop j := by
  have hlength := h.length_le
  rw [List.length_drop] at hlength
  refine ⟨ts.length - rest.length, by omega, Nat.sub_le _ _, ?_⟩
  exact List.suffix_iff_eq_drop.1 (h.trans (List.drop_suffix i ts))

-- ════════════════════════════════════════════════════════════════════════════
-- Parsers
-- ════════════════════════════════════════════════════════════════════════════

/-- How parsers move in a list of tokens of which a stream is the part up to the first end marker. -/
structure Bounded (s : Stream) (items : List Token) : Prop where
  first : ∃ later, items = s.tokens ++ s.stop :: later
  marker : s.stop.kind = .eof
  before : ∀ t ∈ s.tokens, t.kind ≠ .eof
  /-- At every position the next token is in the list. -/
  next : ∀ i ≤ s.tokens.length, items[i]? = some (peek s.stop (s.tokens.drop i))
  /-- A cursor over the whole list starts in front of the stream. -/
  start : (⟨items, 0⟩ : Cursor).At s s.tokens
  /-- Its operations agree with the steps in the stream, and take no token from behind the first end
  marker. -/
  reads : ∀ (c : Cursor) (ts : List Token), c.At s ts → c.Reads s ts
  /-- It gets by advancing to wherever a parsing function ends. -/
  advances : ∀ (c : Cursor) (ts rest : List Token), c.At s ts → Reading s.stop ts rest →
    ∃ c' : Cursor, c.Advances c' ∧ c'.At s rest
  /-- A parsing function that starts at a position ends there or further on, and at the first end
  marker at the latest. -/
  forward : ∀ i ≤ s.tokens.length, ∀ rest, Reading s.stop (s.tokens.drop i) rest →
    ∃ j, i ≤ j ∧ j ≤ s.tokens.length ∧ rest = s.tokens.drop j
  /-- A statement that starts after line ends takes at least one more token. -/
  progress : ∀ i ≤ s.tokens.length, ∀ t ts p, skipNewlines (s.tokens.drop i) = t :: ts →
    parseStatement s.stop t ts = .ok p → ∃ j k, i ≤ j ∧ j < k ∧ k ≤ s.tokens.length ∧
      t :: ts = s.tokens.drop j ∧ p.rest = s.tokens.drop k
  /-- What is not read fails at a token up to the first end marker. -/
  body : FailsWithin s.stop s.tokens s.body
  program : FailsWithin s.stop s.tokens s.program
  leadingExpr : FailsWithin s.stop s.tokens s.leadingExpr
  /-- Other tokens that begin in the same way, up to the first end marker, are read in the same
  way. -/
  depends : ∀ all, s.tokens ++ [s.stop] <+: Stream.items all → (ofTokens all).body = s.body ∧
    (ofTokens all).program = s.program ∧ (ofTokens all).leadingExpr = s.leadingExpr

theorem progress_parseStatement {stop t : Token} {ts : List Token}
    {p : Parsed (Option Stmt) (ts.length + 1)} (h : parseStatement stop t ts = .ok p) :
    p.rest <:+ ts := by
  have hsuffix := (stays_parseStatement stop t ts).suffix h
  rcases List.suffix_cons_iff.1 hsuffix with hall | hrest
  · have hfewer := p.fewer
    rw [hall, List.length_cons] at hfewer
    omega
  · exact hrest

/-- Whatever the tokens are, parsers end, with a result or with a failure at a token up to the first
end marker. They read tokens of the list only, as a cursor with an index does that walks over the
whole list; their positions move forward and never past the first end marker, every statement takes a
token, and what comes after the first end marker does not matter. -/
theorem bounded_ofTokens (all : List Token) : (ofTokens all).Bounded (items all) where
  first := items_eq all
  marker := kind_stop all
  before _ := kind_of_mem_tokens all
  next _ hi := getElem?_items hi
  start := .start (items_eq all)
  reads _ _ h := h.reads (kind_stop all) fun _ => kind_of_mem_tokens all
  advances _ _ _ h hreading := h.advances (fun _ => kind_of_mem_tokens all) hreading.suffix
  forward _ hi _ h := exists_position hi h.suffix
  progress i hi t ts p hskip h := by
    have hstart : t :: ts <:+ (ofTokens all).tokens.drop i := hskip ▸ suffix_skipNewlines _
    obtain ⟨j, hij, hj, hts⟩ := exists_position hi hstart
    have hrest : p.rest <:+ (ofTokens all).tokens.drop (j + 1) := by
      rw [← List.drop_drop, ← hts]
      exact progress_parseStatement h
    have hlength : j < (ofTokens all).tokens.length := by
      have hpos := congrArg List.length hts
      rw [List.length_cons, List.length_drop] at hpos
      omega
    obtain ⟨k, hjk, hk, hp⟩ := exists_position hlength hrest
    exact ⟨j, k, hij, hjk, hk, hts, hp⟩
  body := (stays_parseBlock _ .handler _).failsWithin fun _ _ _ => trivial
  program := failsWithin_parseItems _ {} _
  leadingExpr := (stays_parseExpr _ _).failsWithin fun _ _ _ => trivial
  depends all' h := by
    rw [ofTokens_eq_of_begins h]
    exact ⟨rfl, rfl, rfl⟩

end Stream

end FormBasic
