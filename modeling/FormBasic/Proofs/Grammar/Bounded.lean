import FormBasic.Proofs.Grammar.Placement

/-!
# Where parsers read

A reading position is what is left of the tokens before the first end marker. Every parsing function
leaves an end of what it was given, so positions only move forward and never past the end marker;
and when a parsing function fails, it does so at one of the tokens it was given or at the end marker.

## Main definitions

* `ParseFailure.At`, `FailsWithin` - failures that are about the tokens that were given
* `Answer.Stays` - answers that stay within the tokens that were given
* `Reading` - where the parsing functions start and where they end

## Main statements

* `stays_parseExpr`, `stays_parseBlock`, `stays_parseSub` - parsing functions stay within their tokens
* `Reading.suffix` - positions move forward
-/

namespace FormBasic

/-- Whether a failure is about given tokens: something is wrong at one of them or at the end marker,
or a number among them is refused. -/
def ParseFailure.At (stop : Token) (ts : List Token) : ParseFailure → Prop
  | .malformed e => ∃ t ∈ stop :: ts, e.line = t.line
  | .refused refusal => ∃ t ∈ ts, t.IsRefused refusal

theorem ParseFailure.At.of_suffix {stop : Token} {ts rest : List Token} {failure : ParseFailure}
    (h : failure.At stop rest) (hrest : rest <:+ ts) : failure.At stop ts := by
  cases failure with
  | malformed e =>
    obtain ⟨t, ht, hline⟩ := h
    exact ⟨t, List.cons_subset_cons stop hrest.subset ht, hline⟩
  | refused refusal =>
    obtain ⟨t, ht, hrefused⟩ := h
    exact ⟨t, hrest.subset ht, hrefused⟩

/-- Whether what is read from given tokens, if it is not read, fails because of them. -/
def FailsWithin {α : Type} (stop : Token) (ts : List Token) : Except ParseFailure α → Prop
  | .ok _ => True
  | .error failure => failure.At stop ts

/-- Whether a parsing function stays within the tokens that it was given: it leaves an end of them,
or its failure is about them. -/
def Answer.Stays {α : Type} {bound : Nat} (stop : Token) (ts : List Token) : Answer α bound → Prop
  | .ok p => p.rest <:+ ts
  | .error failure => failure.At stop ts

section Combining

variable {α β : Type} {bound bound' : Nat} {stop : Token} {ts rest : List Token}

theorem FailsWithin.of_suffix {result : Except ParseFailure α} (h : FailsWithin stop rest result)
    (hrest : rest <:+ ts) : FailsWithin stop ts result := by
  cases result with
  | error failure => exact ParseFailure.At.of_suffix h hrest
  | ok => trivial

theorem stays_failAt {t : Token} (h : t ∈ stop :: ts) (cause : Misparse) :
    Answer.Stays stop ts (failAt t cause : Answer α bound) :=
  ⟨t, h, rfl⟩

theorem stays_failAt_stop (cause : Misparse) :
    Answer.Stays stop ts (failAt stop cause : Answer α bound) :=
  stays_failAt List.mem_cons_self cause

theorem stays_failAt_head {t : Token} (cause : Misparse) :
    Answer.Stays stop (t :: ts) (failAt t cause : Answer α bound) :=
  stays_failAt (List.mem_cons_of_mem _ List.mem_cons_self) cause

namespace Answer.Stays

theorem of_suffix {a : Answer α bound} (h : a.Stays stop rest) (hrest : rest <:+ ts) :
    a.Stays stop ts := by
  cases a with
  | error failure => exact ParseFailure.At.of_suffix h hrest
  | ok p => exact h.trans hrest

theorem cons {a : Answer α bound} (h : a.Stays stop ts) (t : Token) : a.Stays stop (t :: ts) :=
  h.of_suffix (List.suffix_cons t ts)

/-- What is read again starts from the same tokens. -/
theorem again {a : Answer α bound} (ha : a.Stays stop ts) {f : Parsed α bound → Answer β bound'}
    (hf : ∀ value rest fewer, rest <:+ ts → (f ⟨value, rest, fewer⟩).Stays stop ts) :
    Answer.Stays stop ts (a >>= f) := by
  cases a with
  | error failure => exact ha
  | ok p => exact hf p.value p.rest p.fewer ha

/-- What is read next starts from the tokens that are left. -/
theorem bind {a : Answer α bound} (ha : a.Stays stop ts) {f : Parsed α bound → Answer β bound'}
    (hf : ∀ value rest fewer, (f ⟨value, rest, fewer⟩).Stays stop rest) :
    Answer.Stays stop ts (a >>= f) :=
  ha.again fun value rest fewer hrest => (hf value rest fewer).of_suffix hrest

theorem failsWithin {a : Answer α bound} (ha : a.Stays stop ts)
    {f : Parsed α bound → Except ParseFailure β}
    (hf : ∀ value rest fewer, FailsWithin stop rest (f ⟨value, rest, fewer⟩)) :
    FailsWithin stop ts (a >>= f) := by
  cases a with
  | error failure => exact ha
  | ok p => exact (hf p.value p.rest p.fewer).of_suffix ha

theorem suffix {a : Answer α bound} (h : a.Stays stop ts) {p : Parsed α bound} (hp : a = .ok p) :
    p.rest <:+ ts := by
  rw [hp] at h
  exact h

end Answer.Stays

theorem stays_expect (stop : Token) (want : Text) (ts : List Token) :
    (expect stop want ts).Stays stop ts := by
  unfold expect
  split
  · exact stays_failAt_stop _
  · split
    · exact List.suffix_cons _ _
    · exact stays_failAt_head _

theorem suffix_typeSegments (stop : Token) (name : Text) (ts : List Token) :
    (typeSegments stop name ts).rest <:+ ts := by
  fun_induction typeSegments stop name ts with
  | case1 => exact List.suffix_rfl
  | case2 => exact List.nil_suffix
  | case3 => exact List.suffix_rfl
  | case4 name t n rest hpoint ih =>
    exact ih.trans ((List.suffix_cons n rest).trans (List.suffix_cons t _))
  | case5 => exact List.suffix_rfl

theorem stays_parseTypeName (stop : Token) (ts : List Token) :
    (parseTypeName stop ts).Stays stop ts := by
  unfold parseTypeName
  split
  · exact stays_failAt_stop _
  · split
    · exact (suffix_typeSegments _ _ _).trans (List.suffix_cons _ _)
    · exact stays_failAt_head _

end Combining

-- ════════════════════════════════════════════════════════════════════════════
-- Expressions
-- ════════════════════════════════════════════════════════════════════════════

section Expressions

variable (stop : Token)

mutual

theorem stays_parseBinary (level : Level) (ts : List Token) :
    (parseBinary stop level ts).Stays stop ts := by
  rw [parseBinary]
  refine (stays_parseOperand level ts).bind fun left rest hlt => ?_
  exact (stays_parseOperators level left rest).bind fun _ _ _ => List.suffix_rfl
termination_by (ts.length, 2 * level.height + 1)

theorem stays_parseOperand (level : Level) (ts : List Token) :
    (parseOperand stop level ts).Stays stop ts := by
  rw [parseOperand.eq_def]
  cases level with
  | conjunction => exact stays_parseNot ts
  | power => exact stays_parseSigned ts
  | _ => exact stays_parseBinary _ ts
termination_by (ts.length, 2 * level.height)
decreasing_by all_goals exact Prod.Lex.right _ (by decide)

theorem stays_parseOperators (level : Level) (left : Expr) (ts : List Token) :
    (parseOperators stop level left ts).Stays stop ts := by
  match ts with
  | [] =>
    rw [parseOperators]
    exact List.suffix_rfl
  | t :: ts =>
    rw [parseOperators]
    split
    · refine .cons ((stays_parseOperand level ts).bind fun right rest hlt => ?_) t
      exact (stays_parseOperators level _ rest).bind fun _ _ _ => List.suffix_rfl
    · exact List.suffix_rfl
termination_by (ts.length, 0)
decreasing_by
  all_goals
    simp only [List.length_cons]
    exact Prod.Lex.left _ _ (by omega)

theorem stays_parseNot (ts : List Token) : (parseNot stop ts).Stays stop ts := by
  match ts with
  | [] =>
    rw [parseNot]
    exact stays_parseBinary .comparison []
  | t :: rest =>
    rw [parseNot]
    split
    · refine .cons ?_ t
      exact (stays_parseNot rest).bind fun _ _ _ => List.suffix_rfl
    · exact stays_parseBinary .comparison (t :: rest)
termination_by (ts.length, 16)
decreasing_by
  · exact Prod.Lex.right _ (by decide)
  · exact Prod.Lex.right _ (by decide)
  · exact Prod.Lex.left _ _ (Nat.lt_succ_self _)

theorem stays_parseSigned (ts : List Token) : (parseSigned stop ts).Stays stop ts := by
  match ts with
  | [] =>
    rw [parseSigned]
    exact stays_parsePostfix []
  | t :: rest =>
    rw [parseSigned]
    split
    · refine .cons ?_ t
      exact (stays_parseSigned rest).bind fun _ _ _ => List.suffix_rfl
    split
    · refine .cons ?_ t
      exact (stays_parseSigned rest).bind fun _ _ _ => List.suffix_rfl
    · exact stays_parsePostfix (t :: rest)
termination_by (ts.length, 4)

theorem stays_parsePostfix (ts : List Token) : (parsePostfix stop ts).Stays stop ts := by
  rw [parsePostfix]
  refine (stays_parsePrimary ts).bind fun e rest hlt => ?_
  exact (stays_parseSuffixes e rest).bind fun _ _ _ => List.suffix_rfl
termination_by (ts.length, 3)

theorem stays_parseSuffixes (e : Expr) (ts : List Token) :
    (parseSuffixes stop e ts).Stays stop ts := by
  match ts with
  | [] =>
    rw [parseSuffixes]
    exact List.suffix_rfl
  | t :: ts =>
    rw [parseSuffixes.eq_def]
    simp only
    split
    · match ts with
      | [] => exact stays_failAt_stop _
      | n :: ts' =>
        simp only
        split
        · refine .cons (.cons ?_ n) t
          exact (stays_parseSuffixes _ ts').bind fun _ _ _ => List.suffix_rfl
        · exact (stays_failAt_head _).cons t
    split
    · refine .cons ((stays_parseArguments ts).bind fun args rest hlt => ?_) t
      exact (stays_parseSuffixes _ rest).bind fun _ _ _ => List.suffix_rfl
    · exact List.suffix_rfl
termination_by (ts.length, 0)
decreasing_by
  all_goals
    simp only [List.length_cons]
    exact Prod.Lex.left _ _ (by omega)

theorem stays_parseArguments (ts : List Token) : (parseArguments stop ts).Stays stop ts := by
  rw [parseArguments]
  split
  · exact List.drop_suffix 1 ts
  · refine (stays_parseBinary .disjunction ts).bind fun first rest hlt => ?_
    refine (stays_parseMoreArguments rest).bind fun others rest' hlt' => ?_
    exact (stays_expect stop ")" rest').bind fun _ _ _ => List.suffix_rfl
termination_by (ts.length, 22)
decreasing_by
  · exact Prod.Lex.right _ (by decide)
  · exact Prod.Lex.left _ _ hlt

theorem stays_parseMoreArguments (ts : List Token) :
    (parseMoreArguments stop ts).Stays stop ts := by
  match ts with
  | [] =>
    rw [parseMoreArguments]
    exact List.suffix_rfl
  | t :: ts =>
    rw [parseMoreArguments]
    split
    · refine .cons ((stays_parseBinary .disjunction ts).bind fun e rest hlt => ?_) t
      exact (stays_parseMoreArguments rest).bind fun _ _ _ => List.suffix_rfl
    · exact List.suffix_rfl
termination_by (ts.length, 0)
decreasing_by
  all_goals
    simp only [List.length_cons]
    exact Prod.Lex.left _ _ (by omega)

theorem stays_parseNew (ts : List Token) : (parseNew stop ts).Stays stop ts := by
  rw [parseNew]
  refine (stays_parseTypeName stop ts).bind fun name rest hlt => ?_
  match rest, hlt with
  | [], _ => exact List.suffix_rfl
  | t :: rest, hlt =>
    simp only
    split
    · refine .cons ?_ t
      exact (stays_parseArguments rest).bind fun _ _ _ => List.suffix_rfl
    · exact List.suffix_rfl
termination_by (ts.length, 0)
decreasing_by
  simp only [List.length_cons] at hlt
  exact Prod.Lex.left _ _ (by omega)

theorem stays_parsePrimary (ts : List Token) : (parsePrimary stop ts).Stays stop ts := by
  match ts with
  | [] =>
    rw [parsePrimary]
    exact stays_failAt_stop _
  | t :: rest =>
    rw [parsePrimary]
    split
    · next leaf hleaf =>
      cases leaf with
      | ok e => exact List.suffix_cons t rest
      | error failure =>
        obtain ⟨r, rfl, hr⟩ := isRefused_of_leafOf? hleaf
        exact ⟨t, List.mem_cons_self, hr⟩
    · split
      · refine .cons ?_ t
        exact (stays_parseNew rest).bind fun _ _ _ => List.suffix_rfl
      split
      · refine .cons ((stays_parseBinary .disjunction rest).bind fun e rest' hlt => ?_) t
        exact (stays_expect stop ")" rest').bind fun _ _ _ => List.suffix_rfl
      split
      · exact stays_failAt_head _
      · exact stays_failAt_head _
termination_by (ts.length, 2)

end

theorem stays_parseExpr (ts : List Token) : (parseExpr stop ts).Stays stop ts :=
  stays_parseBinary stop .disjunction ts

end Expressions

-- ════════════════════════════════════════════════════════════════════════════
-- Simple statements
-- ════════════════════════════════════════════════════════════════════════════

section Statements

variable (stop : Token) (line : Line) (ts : List Token)

theorem mem_peek : peek stop ts ∈ stop :: ts := by
  cases ts with
  | nil => exact List.mem_cons_self
  | cons t ts => exact List.mem_cons_of_mem _ List.mem_cons_self

theorem suffix_dropWhen (condition : Bool) (n : Nat) : dropWhen condition n ts <:+ ts := by
  unfold dropWhen
  split
  · exact List.drop_suffix n ts
  · exact List.suffix_rfl

theorem suffix_skipNewlines : skipNewlines ts <:+ ts := List.dropWhile_suffix _

theorem suffix_afterWend : afterWend ts <:+ ts := by
  unfold afterWend
  split
  · exact List.drop_suffix 1 ts
  · exact suffix_dropWhen ts _ 2

theorem stays_parseClause (symbol : Text) : (parseClause stop symbol ts).Stays stop ts := by
  unfold parseClause
  split
  · exact List.suffix_rfl
  · split
    · refine .cons ?_ _
      exact (stays_parseExpr stop _).bind fun _ _ _ => List.suffix_rfl
    · exact List.suffix_rfl

theorem stays_parseAs : (parseAs stop ts).Stays stop ts := by
  unfold parseAs
  split
  · exact (stays_parseTypeName stop []).bind fun _ _ _ => List.suffix_rfl
  · split
    · refine .cons ?_ _
      exact (stays_parseNew stop _).bind fun _ _ _ => List.suffix_rfl
    · exact (stays_parseTypeName stop _).bind fun _ _ _ => List.suffix_rfl

theorem stays_parseType : (parseType stop ts).Stays stop ts := by
  unfold parseType
  split
  · exact List.suffix_rfl
  · split
    · refine .cons ?_ _
      exact (stays_parseAs stop _).bind fun _ _ _ => List.suffix_rfl
    · exact List.suffix_rfl

theorem stays_parseDim : (parseDim stop line ts).Stays stop ts := by
  unfold parseDim
  split
  · exact stays_failAt_stop _
  · split
    · refine .cons ?_ _
      refine (stays_parseType stop _).bind fun _ rest _ => ?_
      exact (stays_parseClause stop rest "=").bind fun _ _ _ => List.suffix_rfl
    · exact stays_failAt_head _

theorem stays_parseReturn : (parseReturn stop line ts).Stays stop ts := by
  unfold parseReturn
  split
  · exact List.suffix_rfl
  · exact (stays_parseExpr stop ts).bind fun _ _ _ => List.suffix_rfl

theorem suffix_parseExit : (parseExit line ts).rest <:+ ts := by
  unfold parseExit
  split
  · exact List.suffix_rfl
  · split
    · exact List.suffix_rfl
    · exact List.suffix_cons _ _

theorem stays_parseLoopTest : (parseLoopTest stop ts).Stays stop ts := by
  unfold parseLoopTest
  split
  · exact List.suffix_rfl
  · split
    · split
      · exact List.nil_suffix
      · split
        · refine .cons (.cons ?_ _) _
          exact (stays_parseExpr stop _).bind fun _ _ _ => List.suffix_rfl
        · exact List.suffix_cons _ _
    · exact List.suffix_rfl

theorem stays_parseClassicArguments : (parseClassicArguments stop ts).Stays stop ts := by
  unfold parseClassicArguments
  split
  · exact List.suffix_rfl
  · refine (stays_parseExpr stop ts).bind fun _ rest _ => ?_
    exact (stays_parseMoreArguments stop rest).bind fun _ _ _ => List.suffix_rfl

theorem stays_parseExprStatement : (parseExprStatement stop line ts).Stays stop ts := by
  unfold parseExprStatement
  -- the target is read again unless it is assigned to
  refine (stays_parsePostfix stop ts).again fun target rest _ hrest => ?_
  simp only
  split
  · refine Answer.Stays.of_suffix ?_ ((List.drop_suffix 1 rest).trans hrest)
    exact (stays_parseExpr stop _).bind fun _ _ _ => List.suffix_rfl
  · refine (stays_parseExpr stop ts).bind fun e rest' _ => ?_
    simp only
    split
    · exact List.suffix_rfl
    · split
      · exact (stays_parseClassicArguments stop rest').bind fun _ _ _ => List.suffix_rfl
      · exact List.suffix_rfl

end Statements

-- ════════════════════════════════════════════════════════════════════════════
-- Blocks
-- ════════════════════════════════════════════════════════════════════════════

section Blocks

variable (stop : Token)

mutual

theorem stays_parseStatement (t : Token) (ts : List Token) :
    (parseStatement stop t ts).Stays stop (t :: ts) := by
  rw [parseStatement]
  split
  · refine .cons ?_ t
    exact (stays_parseDim stop t.line ts).bind fun _ _ _ => List.suffix_rfl
  split
  · refine .cons ?_ t
    exact (stays_parseCond t.line ts).bind fun _ _ _ => List.suffix_rfl
  split
  · refine .cons ?_ t
    exact (stays_parseFor t.line ts).bind fun _ _ _ => List.suffix_rfl
  split
  · refine .cons ?_ t
    exact (stays_parseWhile t.line ts).bind fun _ _ _ => List.suffix_rfl
  split
  · refine .cons ?_ t
    exact (stays_parseDo t.line ts).bind fun _ _ _ => List.suffix_rfl
  split
  · refine .cons ?_ t
    exact (stays_parseReturn stop t.line ts).bind fun _ _ _ => List.suffix_rfl
  split
  · exact (suffix_parseExit t.line ts).trans (List.suffix_cons t ts)
  split
  · exact (suffix_dropWhen ts _ 1).trans (List.suffix_cons t ts)
  · exact stays_parseExprStatement stop t.line (t :: ts)
termination_by (ts.length, 2)

theorem stays_parseCond (line : Line) (ts : List Token) :
    (parseCond stop line ts).Stays stop ts := by
  rw [parseCond]
  refine (stays_parseExpr stop ts).bind fun test rest hlt => ?_
  refine (stays_expect stop "then" rest).bind fun _ rest' hlt' => ?_
  match rest', hlt' with
  | [], _ => exact List.suffix_rfl
  | t :: rest', hlt' =>
    simp only
    split
    · refine (stays_parseBlock .branch (t :: rest')).bind fun body r hr => ?_
      refine (stays_parseElseIfs r).bind fun elseIfs r' hr' => ?_
      refine (stays_parseElse r').bind fun otherwise r'' hr'' => ?_
      exact suffix_dropWhen r'' _ 2
    · refine (stays_parseStatement t rest').bind fun first r hr => ?_
      simp only
      split
      · refine Answer.Stays.of_suffix ?_ (List.drop_suffix 1 r)
        exact (stays_parseSingle (r.drop 1)).bind fun _ _ _ => List.suffix_rfl
      · exact List.suffix_rfl
termination_by (ts.length, 1)
decreasing_by
  all_goals
    simp only [List.length_cons, List.length_drop] at *
    exact Prod.Lex.left _ _ (by omega)

theorem stays_parseElseIfs (ts : List Token) : (parseElseIfs stop ts).Stays stop ts := by
  match ts with
  | [] =>
    rw [parseElseIfs]
    exact List.suffix_rfl
  | t :: ts =>
    rw [parseElseIfs]
    split
    · refine .cons ?_ t
      refine (stays_parseExpr stop ts).bind fun test rest hlt => ?_
      refine (stays_expect stop "then" rest).bind fun _ rest' hlt' => ?_
      refine (stays_parseBlock .branch rest').bind fun body r hr => ?_
      exact (stays_parseElseIfs r).bind fun _ _ _ => List.suffix_rfl
    · exact List.suffix_rfl
termination_by (ts.length, 1)
decreasing_by
  all_goals
    simp only [List.length_cons]
    exact Prod.Lex.left _ _ (by omega)

theorem stays_parseElse (ts : List Token) : (parseElse stop ts).Stays stop ts := by
  match ts with
  | [] =>
    rw [parseElse]
    exact List.suffix_rfl
  | t :: ts =>
    rw [parseElse]
    split
    · refine .cons ?_ t
      exact (stays_parseBlock .lastBranch ts).bind fun _ _ _ => List.suffix_rfl
    · exact List.suffix_rfl
termination_by (ts.length, 1)

theorem stays_parseFor (line : Line) (ts : List Token) :
    (parseFor stop line ts).Stays stop ts := by
  match ts with
  | [] =>
    rw [parseFor]
    exact stays_failAt_stop _
  | v :: ts =>
    rw [parseFor]
    split
    · refine .cons ?_ v
      refine (stays_expect stop "=" ts).bind fun _ r₁ h₁ => ?_
      refine (stays_parseExpr stop r₁).bind fun start r₂ h₂ => ?_
      refine (stays_expect stop "to" r₂).bind fun _ r₃ h₃ => ?_
      refine (stays_parseExpr stop r₃).bind fun last r₄ h₄ => ?_
      refine (stays_parseClause stop r₄ "step").bind fun step r₅ h₅ => ?_
      refine (stays_parseBlock .forBody r₅).bind fun body r₆ h₆ => ?_
      exact suffix_dropWhen r₆ _ _
    · exact stays_failAt_head _
termination_by (ts.length, 1)
decreasing_by
  simp only [List.length_cons]
  exact Prod.Lex.left _ _ (by omega)

theorem stays_parseWhile (line : Line) (ts : List Token) :
    (parseWhile stop line ts).Stays stop ts := by
  rw [parseWhile]
  refine (stays_parseExpr stop ts).bind fun test rest hlt => ?_
  exact (stays_parseBlock .whileBody rest).bind fun body rest' hlt' => suffix_afterWend rest'
termination_by (ts.length, 1)

theorem stays_parseDo (line : Line) (ts : List Token) : (parseDo stop line ts).Stays stop ts := by
  rw [parseDo]
  split
  · exact stays_failAt (mem_peek stop ts) _
  · refine (stays_parseBlock .doBody ts).bind fun body rest hlt => ?_
    exact (stays_parseLoopTest stop rest).bind fun _ _ _ => List.suffix_rfl
termination_by (ts.length, 1)

theorem stays_parseBlock (closer : Closer) (ts : List Token) :
    (parseBlock stop closer ts).Stays stop ts := by
  rw [parseBlock]
  match skipNewlines ts, length_skipNewlines_le ts, suffix_skipNewlines ts with
  | [], _, _ => exact List.nil_suffix
  | t :: rest, hlt, hskip =>
    simp only
    split
    · exact hskip
    · refine Answer.Stays.of_suffix ?_ hskip
      refine (stays_parseStatement t rest).bind fun first r hr => ?_
      exact (stays_parseBlock closer r).bind fun _ _ _ => List.suffix_rfl
termination_by (ts.length, 0)
decreasing_by
  all_goals
    simp only [List.length_cons] at hlt
    exact Prod.Lex.left _ _ (by omega)

theorem stays_parseSingle (ts : List Token) : (parseSingle stop ts).Stays stop ts := by
  rw [parseSingle]
  match skipNewlines ts, length_skipNewlines_le ts, suffix_skipNewlines ts with
  | [], _, _ => exact List.nil_suffix
  | t :: rest, hlt, hskip =>
    refine Answer.Stays.of_suffix ?_ hskip
    exact (stays_parseStatement t rest).bind fun _ _ _ => List.suffix_rfl
termination_by (ts.length, 0)
decreasing_by
  simp only [List.length_cons] at hlt
  exact Prod.Lex.left _ _ (by omega)

end

end Blocks

-- ════════════════════════════════════════════════════════════════════════════
-- Handlers
-- ════════════════════════════════════════════════════════════════════════════

section Handlers

variable (stop : Token)

theorem stays_parseHandles (ts : List Token) : (parseHandles stop ts).Stays stop ts := by
  match ts with
  | [] =>
    rw [parseHandles]
    exact List.suffix_rfl
  | [owner] =>
    rw [parseHandles]
    split
    · exact List.suffix_rfl
    · exact stays_failAt_stop _
  | owner :: point :: ts =>
    rw [parseHandles]
    split
    · exact List.suffix_rfl
    · simp only
      split
      · exact (stays_failAt_head _).cons owner
      · refine .cons (.cons ?_ point) owner
        split
        · refine Answer.Stays.of_suffix ?_ (List.drop_suffix 2 ts)
          exact (stays_parseHandles (ts.drop 2)).bind fun _ _ _ => List.suffix_rfl
        · exact List.drop_suffix 1 ts
termination_by ts.length
decreasing_by
  simp only [List.length_cons, List.length_drop]
  omega

theorem stays_parseHeader (ts : List Token) : (parseHeader stop ts).Stays stop ts := by
  match ts with
  | [] =>
    rw [parseHeader]
    exact List.suffix_rfl
  | t :: ts =>
    rw [parseHeader]
    split
    · exact List.suffix_rfl
    · refine .cons ?_ t
      split
      · refine (stays_parseHandles stop ts).bind fun keys rest hlt => ?_
        exact (stays_parseHeader rest).bind fun _ _ _ => List.suffix_rfl
      · exact (stays_parseHeader ts).bind fun _ _ _ => List.suffix_rfl
termination_by ts.length

theorem suffix_skipParentheses (depth : Nat) (ts : List Token) :
    skipParentheses depth ts <:+ ts := by
  fun_induction skipParentheses depth ts with
  | case1 => exact List.suffix_rfl
  | case2 depth t ts ht ih => exact ih.trans (List.suffix_cons t ts)
  | case3 depth t ts => exact List.suffix_cons t ts
  | case4 depth t ts ht ht' hdepth ih => exact ih.trans (List.suffix_cons t ts)
  | case5 depth t ts ht ht' ih => exact ih.trans (List.suffix_cons t ts)

theorem suffix_afterParameters (ts : List Token) : afterParameters ts <:+ ts := by
  unfold afterParameters
  split
  · exact suffix_skipParentheses 0 ts
  · exact List.suffix_rfl

theorem stays_parseSub (word : Token) (ts : List Token) :
    (parseSub stop word ts).Stays stop (word :: ts) := by
  match ts with
  | [] => exact stays_failAt_stop _
  | name :: ts =>
    rw [parseSub]
    refine .cons ?_ word
    split
    · refine .cons (.of_suffix ?_ (suffix_afterParameters ts)) name
      refine (stays_parseHeader stop _).bind fun keys rest _ => ?_
      exact (stays_parseBlock stop .handler rest).bind fun body rest' _ => suffix_dropWhen rest' _ 2
    · exact stays_failAt_head _

theorem failsWithin_parseItems (p : Program) (ts : List Token) :
    FailsWithin stop ts (parseItems stop p ts) := by
  rw [parseItems]
  match skipNewlines ts, length_skipNewlines_le ts, suffix_skipNewlines ts with
  | [], _, _ => trivial
  | t :: rest, hle, hskip =>
    have hdrop := length_dropWhen_le (!atStatementEnd rest) 1 rest
    have hwhile := length_dropWhile_le (fun t : Token => !t.endsStatement) rest
    have hone : (rest.drop 1).length ≤ rest.length := (List.drop_sublist 1 rest).length_le
    have hlength : rest.length < ts.length := hle
    have hrest : rest <:+ ts := (List.suffix_cons t rest).trans hskip
    simp only
    split
    · exact (failsWithin_parseItems p rest).of_suffix hrest
    split
    · exact (failsWithin_parseItems p _).of_suffix ((suffix_dropWhen rest _ 1).trans hrest)
    split
    · exact (failsWithin_parseItems p _).of_suffix ((List.drop_suffix 1 rest).trans hrest)
    split
    · refine FailsWithin.of_suffix ?_ hskip
      refine (stays_parseSub stop t rest).failsWithin fun made rest' hlt => ?_
      exact failsWithin_parseItems _ rest'
    split
    · exact (failsWithin_parseItems p _).of_suffix ((List.dropWhile_suffix _).trans hrest)
    · refine FailsWithin.of_suffix ?_ hskip
      refine (stays_parseStatement stop t rest).failsWithin fun stmt rest' hlt => ?_
      exact failsWithin_parseItems _ rest'
termination_by ts.length
decreasing_by all_goals omega

end Handlers

-- ════════════════════════════════════════════════════════════════════════════
-- Positions
-- ════════════════════════════════════════════════════════════════════════════

/-- Whether a parsing function that starts at some tokens may leave others. -/
inductive Reading (stop : Token) : List Token → List Token → Prop where
  | symbol {want ts p} (h : expect stop want ts = .ok p) : Reading stop ts p.rest
  | typeName {ts p} (h : parseTypeName stop ts = .ok p) : Reading stop ts p.rest
  | binary {level ts p} (h : parseBinary stop level ts = .ok p) : Reading stop ts p.rest
  | operand {level ts p} (h : parseOperand stop level ts = .ok p) : Reading stop ts p.rest
  | operators {level left ts p} (h : parseOperators stop level left ts = .ok p) :
    Reading stop ts p.rest
  | negation {ts p} (h : parseNot stop ts = .ok p) : Reading stop ts p.rest
  | signed {ts p} (h : parseSigned stop ts = .ok p) : Reading stop ts p.rest
  | suffixed {ts p} (h : parsePostfix stop ts = .ok p) : Reading stop ts p.rest
  | suffixes {e ts p} (h : parseSuffixes stop e ts = .ok p) : Reading stop ts p.rest
  | arguments {ts p} (h : parseArguments stop ts = .ok p) : Reading stop ts p.rest
  | moreArguments {ts p} (h : parseMoreArguments stop ts = .ok p) : Reading stop ts p.rest
  | creation {ts p} (h : parseNew stop ts = .ok p) : Reading stop ts p.rest
  | primary {ts p} (h : parsePrimary stop ts = .ok p) : Reading stop ts p.rest
  | clause {symbol ts p} (h : parseClause stop symbol ts = .ok p) : Reading stop ts p.rest
  | typeAfterAs {ts p} (h : parseAs stop ts = .ok p) : Reading stop ts p.rest
  | optionalType {ts p} (h : parseType stop ts = .ok p) : Reading stop ts p.rest
  | declaration {line ts p} (h : parseDim stop line ts = .ok p) : Reading stop ts p.rest
  | returned {line ts p} (h : parseReturn stop line ts = .ok p) : Reading stop ts p.rest
  | exit (line ts) : Reading stop ts (parseExit line ts).rest
  | strayEnd (ts) : Reading stop ts (parseStrayEnd ts).rest
  | loopTest {ts p} (h : parseLoopTest stop ts = .ok p) : Reading stop ts p.rest
  | classicArguments {ts p} (h : parseClassicArguments stop ts = .ok p) : Reading stop ts p.rest
  | exprStatement {line ts p} (h : parseExprStatement stop line ts = .ok p) :
    Reading stop ts p.rest
  | statement {t ts p} (h : parseStatement stop t ts = .ok p) : Reading stop (t :: ts) p.rest
  | conditional {line ts p} (h : parseCond stop line ts = .ok p) : Reading stop ts p.rest
  | elseIfs {ts p} (h : parseElseIfs stop ts = .ok p) : Reading stop ts p.rest
  | otherwise {ts p} (h : parseElse stop ts = .ok p) : Reading stop ts p.rest
  | forLoop {line ts p} (h : parseFor stop line ts = .ok p) : Reading stop ts p.rest
  | whileLoop {line ts p} (h : parseWhile stop line ts = .ok p) : Reading stop ts p.rest
  | doLoop {line ts p} (h : parseDo stop line ts = .ok p) : Reading stop ts p.rest
  | block {closer ts p} (h : parseBlock stop closer ts = .ok p) : Reading stop ts p.rest
  | single {ts p} (h : parseSingle stop ts = .ok p) : Reading stop ts p.rest
  | handles {ts p} (h : parseHandles stop ts = .ok p) : Reading stop ts p.rest
  | header {ts p} (h : parseHeader stop ts = .ok p) : Reading stop ts p.rest
  | handler {word ts p} (h : parseSub stop word ts = .ok p) : Reading stop (word :: ts) p.rest

/-- Positions move forward only, and never past the end marker. -/
theorem Reading.suffix {stop : Token} {ts rest : List Token} (h : Reading stop ts rest) :
    rest <:+ ts := by
  cases h with
  | symbol h => exact (stays_expect _ _ _).suffix h
  | typeName h => exact (stays_parseTypeName _ _).suffix h
  | binary h => exact (stays_parseBinary _ _ _).suffix h
  | operand h => exact (stays_parseOperand _ _ _).suffix h
  | operators h => exact (stays_parseOperators _ _ _ _).suffix h
  | negation h => exact (stays_parseNot _ _).suffix h
  | signed h => exact (stays_parseSigned _ _).suffix h
  | suffixed h => exact (stays_parsePostfix _ _).suffix h
  | suffixes h => exact (stays_parseSuffixes _ _ _).suffix h
  | arguments h => exact (stays_parseArguments _ _).suffix h
  | moreArguments h => exact (stays_parseMoreArguments _ _).suffix h
  | creation h => exact (stays_parseNew _ _).suffix h
  | primary h => exact (stays_parsePrimary _ _).suffix h
  | clause h => exact (stays_parseClause _ _ _).suffix h
  | typeAfterAs h => exact (stays_parseAs _ _).suffix h
  | optionalType h => exact (stays_parseType _ _).suffix h
  | declaration h => exact (stays_parseDim _ _ _).suffix h
  | returned h => exact (stays_parseReturn _ _ _).suffix h
  | exit line => exact suffix_parseExit line ts
  | strayEnd => exact suffix_dropWhen ts _ 1
  | loopTest h => exact (stays_parseLoopTest _ _).suffix h
  | classicArguments h => exact (stays_parseClassicArguments _ _).suffix h
  | exprStatement h => exact (stays_parseExprStatement _ _ _).suffix h
  | statement h => exact (stays_parseStatement _ _ _).suffix h
  | conditional h => exact (stays_parseCond _ _ _).suffix h
  | elseIfs h => exact (stays_parseElseIfs _ _).suffix h
  | otherwise h => exact (stays_parseElse _ _).suffix h
  | forLoop h => exact (stays_parseFor _ _ _).suffix h
  | whileLoop h => exact (stays_parseWhile _ _ _).suffix h
  | doLoop h => exact (stays_parseDo _ _ _).suffix h
  | block h => exact (stays_parseBlock _ _ _).suffix h
  | single h => exact (stays_parseSingle _ _).suffix h
  | handles h => exact (stays_parseHandles _ _).suffix h
  | header h => exact (stays_parseHeader _ _).suffix h
  | handler h => exact (stays_parseSub _ _ _).suffix h

end FormBasic
