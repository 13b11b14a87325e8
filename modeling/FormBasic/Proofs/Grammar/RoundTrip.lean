import FormBasic.Proofs.Grammar.Statements

/-!
# Bodies are read back from their text

Writing a block of well-formed statements and parsing the text gives the block back, apart from the
lines the statements start on.

## Main definitions

* `wellFormedBlock` - blocks whose names, literals and operators are those of the language

## Main statements

* `parseBody_of_legible` - every legible block is read back
* `parseBody_writeBody` - every well-formed block is read back
-/

namespace FormBasic

open Token (Content)

/-- Whether the number is a natural number of at most 4300 digits. -/
def Number.isShortNatural : Number → Bool
  | .int n => decide (0 ≤ n) && decide ((Nat.toDigits 10 n.toNat).length ≤ digitLimit)
  | .float _ => false

/-- Whether a literal is a short natural number, and a name one that can stand as an expression. -/
def Expr.isPlain : Expr → Bool
  | .number n => n.isShortNatural
  | .ident name => isReferenceName name
  | _ => true

/-- Whether a declared type is a type name, and what is left nothing or a word in small letters. -/
def Stmt.isPlain : Stmt → Bool
  | .dim _ typeName _ _ => isTypeName typeName
  | .exit what _ => what == "" || isSmallWord what
  | _ => true

/-- Whether every node of a block is one that the language has, with plain literals and names. -/
def wellFormedBlock : List Stmt → Bool :=
  everyStmt (fun e => e.fits && e.isPlain) fun s => s.fits && s.isPlain

theorem readsBack_of_isShortNatural {n : Number} (h : n.isShortNatural = true) :
    n.readsBack = true := by
  cases n with
  | float x => cases h
  | int n =>
    simp only [Number.isShortNatural, Bool.and_eq_true, decide_eq_true_eq] at h
    rw [← Int.toNat_of_nonneg h.1]
    exact readsBack_natural h.2

theorem Expr.isClear_of_isPlain {e : Expr} (h : e.isPlain = true) : e.isClear = true := by
  cases e with
  | number n => exact readsBack_of_isShortNatural h
  | ident name => exact h
  | _ => rfl

theorem Stmt.isClear_of_isPlain {s : Stmt} (h : s.isPlain = true) : s.isClear = true := by
  cases s with
  | dim name typeName initial line => exact h
  | exit what line =>
    simp only [Stmt.isPlain, Bool.or_eq_true] at h
    simp only [Stmt.isClear, isExitWord, Bool.or_eq_true]
    exact .inl (.inl (.inl h))
  | _ => rfl

theorem legibleBlock_of_wellFormedBlock {body : List Stmt} (h : wellFormedBlock body = true) :
    legibleBlock body = true := by
  refine everyStmt_of_everyStmt ?_ ?_ body h h
  · intro e he _
    simp only [Bool.and_eq_true] at he ⊢
    exact ⟨he.1, Expr.isClear_of_isPlain he.2⟩
  · intro s hs _
    simp only [Bool.and_eq_true] at hs ⊢
    exact ⟨hs.1, Stmt.isClear_of_isPlain hs.2⟩

/-- Lines are joined by the line feeds between them. -/
theorem newline_joinLines {lines : List Text} (h : lines ≠ []) :
    .char '\n' :: (joinLines lines).toList = onLines lines ++ [.char '\n'] := by
  cases lines with
  | nil => exact absurd rfl h
  | cons l ls =>
    rw [joinLines, Text.toList_append, Text.toList_joined_cons]
    simp [onLines]

/-- Tokens without comments, before the end marker, are the tokens of their stream. -/
theorem stream_of_contents {ts : List Token} {stop : Token}
    (h : ∀ w ∈ ts.map Token.content, w.kind ≠ .comment ∧ w.kind ≠ .eof)
    (hstop : stop.kind = .eof) :
    Stream.ofTokens (ts ++ [stop]) = { tokens := ts, stop := stop } := by
  have hkinds : ∀ t ∈ ts, t.kind ≠ .comment ∧ t.kind ≠ .eof :=
    fun t ht => h t.content (List.mem_map_of_mem ht)
  have hfilter : (ts ++ [stop]).filter (fun t => t.kind != .comment) = ts ++ [stop] := by
    rw [List.filter_eq_self]
    intro t ht
    rcases List.mem_append.1 ht with ht | ht
    · simpa using (hkinds t ht).1
    · rw [List.mem_singleton.1 ht, hstop]
      rfl
  have hall : ∀ t ∈ ts, (t.kind != .eof) = true := fun t ht => by simpa using (hkinds t ht).2
  simp only [Stream.ofTokens, hfilter, List.takeWhile_append_of_pos hall,
    List.dropWhile_append_of_pos hall]
  simp [hstop]

/-- The text of some lines is scanned line by line. The line feed in front of the first line is
missing, which makes no difference to a parser that passes over leading line ends. -/
theorem ofSource_joinLines {lines : List Text} {ws : List Content}
    (h : Scans (onLines lines) ws LineEnd) :
    ∃ ts n, ts.map Token.content = ws ∧ n.content = .newline ∧
      skipNewlines (Stream.ofSource (joinLines lines)).tokens = skipNewlines (ts ++ [n]) := by
  have hall : Scans (onLines lines ++ [.char '\n']) (ws ++ [.newline]) Anything :=
    h.append scans_newline fun rest _ => .inr ⟨rest, rfl⟩
  have hsource : ∀ ts stop, Token.scan (joinLines lines) = ts ++ [stop] →
      (∀ w ∈ ts.map Token.content, w ∈ ws ++ [.newline]) → stop.kind = .eof →
      (Stream.ofSource (joinLines lines)).tokens = ts := by
    intro ts stop hts hws hstop
    rw [Stream.ofSource, hts, stream_of_contents (fun w hw => hall.kinds w (hws w hw)) hstop]
  -- without lines the line feed at the end is the whole text
  by_cases hne : lines = []
  · subst hne
    obtain ⟨ts, stop, hts, hws, hstop⟩ := scanFrom_of_scans hall trivial 1 1
    obtain ⟨us, ns, rfl, hus, hns⟩ := List.map_eq_append_iff.1 hws
    obtain ⟨n, rfl, hn⟩ : ∃ n, ns = [n] ∧ n.content = .newline := by simpa using hns
    refine ⟨us, n, hus, hn, ?_⟩
    rw [hsource _ stop hts (fun w hw => hws ▸ hw) hstop]
  · obtain ⟨ts, stop, hts, hws, hstop⟩ := scanFrom_of_scans hall trivial 0 1
    rw [← newline_joinLines hne, scanFrom_newline] at hts
    obtain ⟨us, ns, rfl, hus, hns⟩ := List.map_eq_append_iff.1 hws
    obtain ⟨n, rfl, hn⟩ : ∃ n, ns = [n] ∧ n.content = .newline := by simpa using hns
    refine ⟨us, n, hus, hn, ?_⟩
    cases us with
    | nil =>
      simp only [List.nil_append, List.cons_append, List.cons.injEq] at hts
      rw [hsource [] stop hts.2 (fun _ hw => absurd hw List.not_mem_nil) hstop,
        List.nil_append, skipNewlines_cons_newline hn]
    | cons m us =>
      simp only [List.cons_append, List.cons.injEq] at hts
      have hm : m.content = .newline := by rw [← hts.1]; rfl
      rw [hsource _ stop hts.2 (fun w hw => hws ▸ List.mem_cons_of_mem _ hw) hstop,
        List.cons_append, skipNewlines_cons_newline hm]

/-- Leading line ends make no difference to a block. -/
theorem plain_parseBlock_congr {stop : Token} {closer : Closer} {ts us : List Token}
    (h : skipNewlines ts = skipNewlines us) :
    (parseBlock stop closer ts).plain = (parseBlock stop closer us).plain := by
  rw [plain_parseBlock, plain_parseBlock, h]

/-- A body is what its block parser reads. -/
theorem body_of_plain {s : Stream} {body : List Stmt} {rest : List Token}
    (h : (parseBlock s.stop .handler s.tokens).plain = .ok (body, rest)) :
    s.body = .ok body := by
  obtain ⟨fewer, hparse⟩ := Answer.exists_of_plain_eq_ok h
  rw [Stream.body, hparse]
  rfl

/-- A legible block is read back from its text. -/
theorem parseBody_of_legible {body : List Stmt} (h : legibleBlock body = true) :
    ∃ text body', writeBody body = .ok text ∧ parseBody text = .ok body' ∧
      sameBlock body body' = true := by
  obtain ⟨lines, hlines, hscan⟩ := spells_blockLines body 0 h
  have hwrite : writeBody body = .ok (joinLines lines) := by
    simp only [writeBody, hlines]
    rfl
  obtain ⟨ts, n, hts, hn, hskip⟩ := ofSource_joinLines hscan
  obtain ⟨body', hsame, hparse⟩ :=
    readsBlock (Stream.ofSource (joinLines lines)).stop body h ts hts
  refine ⟨joinLines lines, body', hwrite, ?_, hsame⟩
  have hall := hparse .handler n [] hn (.inl rfl)
  exact body_of_plain ((plain_parseBlock_congr hskip).trans hall)

/-- Writing a well-formed block and parsing its text succeed and give the block back, apart from the
lines of its statements. -/
theorem parseBody_writeBody {body : List Stmt} (h : wellFormedBlock body = true) :
    ∃ text body', writeBody body = .ok text ∧ parseBody text = .ok body' ∧
      sameBlock body body' = true :=
  parseBody_of_legible (legibleBlock_of_wellFormedBlock h)

/-- A body with every sort of statement. -/
def sampleBody : List Stmt :=
  [.dim "total" "integer" (some (.number (.int 0))) (.ofNat 1),
   .forLoop "i" (.number (.int 1)) (.number (.int 10)) (some (.unary .neg (.number (.int 2))))
     [.cond (.binary .mod (.ident "i") (.number (.int 3)))
       [.assign (.member (.ident "Me") "text") (.string "tick") (.ofNat 4), .exit "for" (.ofNat 5)]
       [.mk (.unary .not (.boolean true)) []] [] (.ofNat 3)] (.ofNat 2),
   .whileLoop (.boolean false) [.call (.member (.number (.int 5)) "end") [.nothing] (.ofNat 9)]
     (.ofNat 8),
   .doLoop [.ret none (.ofNat 12)] (some (.ident "object")) false true (.ofNat 11)]

theorem parseBody_writeBody_sample :
    wellFormedBlock sampleBody = true ∧ ∃ text body', writeBody sampleBody = .ok text ∧
      parseBody text = .ok body' ∧ sameBlock sampleBody body' = true :=
  ⟨by decide, parseBody_writeBody (by decide)⟩

end FormBasic
