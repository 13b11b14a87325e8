import FormBasic.Proofs.Grammar.Plain
import FormBasic.Proofs.Token.Sound

/-!
# What the parsers promise

A tree that a parser makes from sound tokens consists of what the language has: members are named by
names, strings could stand between quotes, operators are known, targets can be assigned to, loops
have their test at the end. The parsers promise nothing about the texts of exit words, of type names
after a point and of names made from them, nor that a number can be written.

## Main definitions

* `Sound` - lists of sound tokens
* `Expr.wellMade`, `Stmt.wellMade`, `wellMadeBlock` - trees that consist of what the language has

## Main statements

* `wellMade_parseExpr` - expressions
* `wellMade_parseStatement`, `wellMade_parseBlock` - statements and blocks
-/

namespace FormBasic

/-- Lists of sound tokens. -/
def Sound (ts : List Token) : Prop := ∀ t ∈ ts, t.isSound = true

theorem Sound.tail {t : Token} {ts : List Token} (h : Sound (t :: ts)) : Sound ts :=
  fun u hu => h u (List.mem_cons_of_mem t hu)

theorem Sound.head {t : Token} {ts : List Token} (h : Sound (t :: ts)) : t.isSound = true :=
  h t List.mem_cons_self

theorem Sound.drop {ts : List Token} (h : Sound ts) (n : Nat) : Sound (ts.drop n) :=
  fun t ht => h t (List.mem_of_mem_drop ht)

theorem sound_nil : Sound [] := fun _ h => absurd h List.not_mem_nil

theorem Sound.dropWhen {ts : List Token} (h : Sound ts) (condition : Bool) (n : Nat) :
    Sound (dropWhen condition n ts) := by
  unfold FormBasic.dropWhen
  split
  · exact h.drop n
  · exact h

theorem Sound.skipNewlines {ts : List Token} (h : Sound ts) : Sound (skipNewlines ts) :=
  fun t ht => h t ((List.dropWhile_suffix _).subset ht)

/-- Whether an expression consists of what the language has. -/
def Expr.wellMade : Expr → Bool := Expr.every Expr.fits

/-- Whether several expressions consist of what the language has. -/
def wellMadeExprs : List Expr → Bool := everyExpr Expr.fits

/-- Whether an optional expression consists of what the language has. -/
def wellMadeOption (o : Option Expr) : Bool := o.all (Expr.every Expr.fits)

/-- Whether a statement consists of what the language has. -/
def Stmt.wellMade : Stmt → Bool := Stmt.every Expr.fits Stmt.fits

/-- Whether a block consists of what the language has. -/
def wellMadeBlock : List Stmt → Bool := everyStmt Expr.fits Stmt.fits

/-- Whether further branches consist of what the language has. -/
def wellMadeElseIfs : List ElseIf → Bool := everyElseIf Expr.fits Stmt.fits

theorem bind_eq_ok {ε α β : Type} {x : Except ε α} {f : α → Except ε β} {b : β}
    (h : (x >>= f) = .ok b) : ∃ a, x = .ok a ∧ f a = .ok b := by
  cases x with
  | error e => cases h
  | ok a => exact ⟨a, rfl, h⟩

theorem Answer.fewer_of_plain {α : Type} {bound : Nat} {a : Answer α bound} {v : α}
    {rest : List Token} (h : a.plain = .ok (v, rest)) : rest.length < bound := by
  obtain ⟨fewer, -⟩ := Answer.exists_of_plain_eq_ok h
  exact fewer

section Leaves

theorem isMemberName_of_isName {t : Token} (hs : t.isSound = true) (h : t.isName = true) :
    isMemberName t.text = true := by
  simp only [Token.isName, Bool.or_eq_true, beq_iff_eq] at h
  simp only [isMemberName, Bool.or_eq_true]
  rcases h with h | h
  · rw [Token.isSound, h] at hs
    exact .inl hs
  · rw [Token.isSound, h] at hs
    exact .inr hs

theorem wellMade_leafOf? {t : Token} {e : Expr} (hs : t.isSound = true)
    (h : leafOf? t = some (.ok e)) : e.wellMade = true := by
  unfold leafOf? at h
  split at h
  · simp only [Option.some.injEq] at h
    cases hn : numberOf t.text with
    | error f => rw [hn] at h; cases h
    | ok n => rw [hn] at h; cases h; rfl
  · next hk =>
    rw [Token.isSound, hk] at hs
    cases h
    exact hs
  · cases h; rfl
  · split at h
    · cases h; rfl
    split at h
    · cases h; rfl
    split at h
    · cases h; rfl
    split at h
    · cases h; rfl
    · cases h

theorem known_ofText {text : Text} {level : Level} (h : text ∈ level.operators) :
    BinaryOp.known.contains (.ofText text) = true := by
  have hall : ∀ level : Level,
      level.operators.all (fun s => BinaryOp.known.contains (.ofText s)) = true := by
    intro level
    cases level <;> decide
  exact List.all_eq_true.1 (hall level) text h

theorem text_mem_of_isAnyOf {t : Token} {texts : List Text} (h : t.isAnyOf texts = true) :
    t.text ∈ texts := by
  obtain ⟨s, hs, ht⟩ := Token.isAnyOf_eq_true_iff.1 h
  rw [Token.text_eq_of_isSymbol ht]
  exact hs

theorem sound_typeSegments (stop : Token) (name : Text) :
    ∀ ts : List Token, Sound ts → Sound (typeSegments stop name ts).rest
  | [], _ => sound_nil
  | [t], h => by
    unfold typeSegments
    split
    · exact sound_nil
    · exact h
  | t :: n :: rest, h => by
    unfold typeSegments
    split
    · exact sound_typeSegments stop n.text rest h.tail.tail
    · exact h

theorem sound_parseTypeName {stop : Token} {ts : List Token} (hs : Sound ts) {name : Text}
    {rest : List Token} (h : (parseTypeName stop ts).plain = .ok (name, rest)) : Sound rest := by
  cases ts with
  | nil => cases h
  | cons t ts =>
    rw [parseTypeName] at h
    split at h
    · cases h
      exact sound_typeSegments stop t.text ts hs.tail
    · cases h

theorem sound_expect {stop : Token} {want : Text} {ts : List Token} (hs : Sound ts) {t : Token}
    {rest : List Token} (h : (expect stop want ts).plain = .ok (t, rest)) : Sound rest := by
  cases ts with
  | nil => cases h
  | cons u ts =>
    rw [plain_expect_cons] at h
    split at h
    · cases h
      exact hs.tail
    · cases h

end Leaves

section Expressions

variable (stop : Token)

mutual

theorem wellMade_parseBinary (level : Level) (ts : List Token) (hs : Sound ts) {e : Expr}
    {rest : List Token} (h : (parseBinary stop level ts).plain = .ok (e, rest)) :
    e.wellMade = true ∧ Sound rest := by
  rw [plain_parseBinary] at h
  obtain ⟨⟨left, r⟩, hleft, h⟩ := bind_eq_ok h
  obtain ⟨hl, hr⟩ := wellMade_parseOperand level ts hs hleft
  have := Answer.fewer_of_plain hleft
  exact wellMade_parseOperators level left hl r hr h
termination_by (ts.length, 2 * level.height + 1)

theorem wellMade_parseOperand (level : Level) (ts : List Token) (hs : Sound ts) {e : Expr}
    {rest : List Token} (h : (parseOperand stop level ts).plain = .ok (e, rest)) :
    e.wellMade = true ∧ Sound rest := by
  rw [parseOperand.eq_def] at h
  match hlevel : level, h with
  | .disjunction, h => exact wellMade_parseBinary .conjunction ts hs h
  | .conjunction, h => exact wellMade_parseNot ts hs h
  | .comparison, h => exact wellMade_parseBinary .concatenation ts hs h
  | .concatenation, h => exact wellMade_parseBinary .sum ts hs h
  | .sum, h => exact wellMade_parseBinary .product ts hs h
  | .product, h => exact wellMade_parseBinary .power ts hs h
  | .power, h => exact wellMade_parseSigned ts hs h
termination_by (ts.length, 2 * level.height)
decreasing_by
  all_goals
    rw [hlevel]
    exact Prod.Lex.right _ (by decide)

theorem wellMade_parseOperators (level : Level) (left : Expr) (hl : left.wellMade = true)
    (ts : List Token) (hs : Sound ts) {e : Expr} {rest : List Token}
    (h : (parseOperators stop level left ts).plain = .ok (e, rest)) :
    e.wellMade = true ∧ Sound rest := by
  match ts with
  | [] =>
    rw [plain_parseOperators_nil] at h
    cases h
    exact ⟨hl, sound_nil⟩
  | t :: ts =>
    rw [plain_parseOperators_cons] at h
    split at h
    · next hop =>
      obtain ⟨⟨right, r⟩, hright, h⟩ := bind_eq_ok h
      obtain ⟨hr, hsr⟩ := wellMade_parseOperand level ts hs.tail hright
      have := Answer.fewer_of_plain hright
      refine wellMade_parseOperators level _ ?_ r hsr h
      simp only [Expr.wellMade, Expr.every, Expr.fits, Bool.and_eq_true]
      exact ⟨⟨known_ofText (text_mem_of_isAnyOf hop), hl⟩, hr⟩
    · cases h
      exact ⟨hl, hs⟩
termination_by (ts.length, 0)
decreasing_by
  · simp only [List.length_cons]; exact Prod.Lex.left _ _ (by omega)
  · simp only [List.length_cons]; exact Prod.Lex.left _ _ (by omega)

theorem wellMade_parseNot (ts : List Token) (hs : Sound ts) {e : Expr} {rest : List Token}
    (h : (parseNot stop ts).plain = .ok (e, rest)) : e.wellMade = true ∧ Sound rest := by
  match ts with
  | [] =>
    rw [plain_parseNot_nil] at h
    exact wellMade_parseBinary .comparison [] hs h
  | t :: ts =>
    rw [plain_parseNot_cons] at h
    split at h
    · obtain ⟨⟨o, r⟩, ho, h⟩ := bind_eq_ok h
      obtain ⟨hm, hr⟩ := wellMade_parseNot ts hs.tail ho
      cases h
      simp only [Expr.wellMade, Expr.every, Expr.fits, Bool.and_eq_true]
      exact ⟨⟨by decide, hm⟩, hr⟩
    · exact wellMade_parseBinary .comparison (t :: ts) hs h
termination_by (ts.length, 16)
decreasing_by
  · exact Prod.Lex.right _ (by decide)
  · exact Prod.Lex.right _ (by decide)
  · exact Prod.Lex.left _ _ (Nat.lt_succ_self _)

theorem wellMade_parseSigned (ts : List Token) (hs : Sound ts) {e : Expr} {rest : List Token}
    (h : (parseSigned stop ts).plain = .ok (e, rest)) : e.wellMade = true ∧ Sound rest := by
  match ts with
  | [] =>
    rw [plain_parseSigned_nil] at h
    exact wellMade_parsePostfix [] hs h
  | t :: ts =>
    rw [plain_parseSigned_cons] at h
    split at h
    · obtain ⟨⟨o, r⟩, ho, h⟩ := bind_eq_ok h
      obtain ⟨hm, hr⟩ := wellMade_parseSigned ts hs.tail ho
      cases h
      simp only [Expr.wellMade, Expr.every, Expr.fits, Bool.and_eq_true]
      exact ⟨⟨by decide, hm⟩, hr⟩
    · split at h
      · exact wellMade_parseSigned ts hs.tail h
      · exact wellMade_parsePostfix (t :: ts) hs h
termination_by (ts.length, 4)

theorem wellMade_parsePostfix (ts : List Token) (hs : Sound ts) {e : Expr} {rest : List Token}
    (h : (parsePostfix stop ts).plain = .ok (e, rest)) : e.wellMade = true ∧ Sound rest := by
  rw [plain_parsePostfix] at h
  obtain ⟨⟨o, r⟩, ho, h⟩ := bind_eq_ok h
  obtain ⟨hm, hr⟩ := wellMade_parsePrimary ts hs ho
  have := Answer.fewer_of_plain ho
  exact wellMade_parseSuffixes o hm r hr h
termination_by (ts.length, 3)

theorem wellMade_parseSuffixes (o : Expr) (ho : o.wellMade = true) (ts : List Token)
    (hs : Sound ts) {e : Expr} {rest : List Token}
    (h : (parseSuffixes stop o ts).plain = .ok (e, rest)) : e.wellMade = true ∧ Sound rest := by
  match ts with
  | [] =>
    rw [plain_parseSuffixes_nil] at h
    cases h
    exact ⟨ho, sound_nil⟩
  | t :: ts =>
    by_cases hp : t.isSymbol "." = true
    · match ts with
      | [] =>
        rw [plain_parseSuffixes_last stop o hp] at h
        cases h
      | n :: ts =>
        rw [plain_parseSuffixes_point stop o hp] at h
        split at h
        · next hn =>
          refine wellMade_parseSuffixes _ ?_ ts hs.tail.tail h
          simp only [Expr.wellMade, Expr.every, Expr.fits, Bool.and_eq_true]
          exact ⟨isMemberName_of_isName hs.tail.head hn, ho⟩
        · cases h
    · rw [plain_parseSuffixes_other stop o (by simpa using hp)] at h
      split at h
      · obtain ⟨⟨args, r⟩, hargs, h⟩ := bind_eq_ok h
        obtain ⟨ha, hr⟩ := wellMade_parseArguments ts hs.tail hargs
        have := Answer.fewer_of_plain hargs
        refine wellMade_parseSuffixes _ ?_ r hr h
        simp only [Expr.wellMade, Expr.every, Expr.fits, Bool.and_eq_true, true_and]
        exact ⟨ho, ha⟩
      · cases h
        exact ⟨ho, hs⟩
termination_by (ts.length, 0)
decreasing_by
  · simp only [List.length_cons]; exact Prod.Lex.left _ _ (by omega)
  · simp only [List.length_cons]; exact Prod.Lex.left _ _ (by omega)
  · simp only [List.length_cons]; exact Prod.Lex.left _ _ (by omega)

theorem wellMade_parseArguments (ts : List Token) (hs : Sound ts) {es : List Expr}
    {rest : List Token} (h : (parseArguments stop ts).plain = .ok (es, rest)) :
    wellMadeExprs es = true ∧ Sound rest := by
  rw [plain_parseArguments] at h
  split at h
  · cases h
    exact ⟨rfl, hs.drop 1⟩
  · obtain ⟨⟨first, r⟩, hfirst, h⟩ := bind_eq_ok h
    obtain ⟨hf, hr⟩ := wellMade_parseBinary .disjunction ts hs hfirst
    obtain ⟨⟨others, r'⟩, hothers, h⟩ := bind_eq_ok h
    have := Answer.fewer_of_plain hfirst
    obtain ⟨ho, hr'⟩ := wellMade_parseMoreArguments r hr hothers
    obtain ⟨⟨_, r''⟩, hclose, h⟩ := bind_eq_ok h
    cases h
    simp only [wellMadeExprs, everyExpr, Bool.and_eq_true]
    exact ⟨⟨hf, ho⟩, sound_expect hr' hclose⟩
termination_by (ts.length, 22)
decreasing_by
  · exact Prod.Lex.right _ (by decide)
  · exact Prod.Lex.left _ _ (by omega)

theorem wellMade_parseMoreArguments (ts : List Token) (hs : Sound ts) {es : List Expr}
    {rest : List Token} (h : (parseMoreArguments stop ts).plain = .ok (es, rest)) :
    wellMadeExprs es = true ∧ Sound rest := by
  match ts with
  | [] =>
    rw [plain_parseMoreArguments_nil] at h
    cases h
    exact ⟨rfl, sound_nil⟩
  | t :: ts =>
    rw [plain_parseMoreArguments_cons] at h
    split at h
    · obtain ⟨⟨first, r⟩, hfirst, h⟩ := bind_eq_ok h
      obtain ⟨hf, hr⟩ := wellMade_parseBinary .disjunction ts hs.tail hfirst
      obtain ⟨⟨others, r'⟩, hothers, h⟩ := bind_eq_ok h
      have := Answer.fewer_of_plain hfirst
      obtain ⟨ho, hr'⟩ := wellMade_parseMoreArguments r hr hothers
      cases h
      simp only [wellMadeExprs, everyExpr, Bool.and_eq_true]
      exact ⟨⟨hf, ho⟩, hr'⟩
    · cases h
      exact ⟨rfl, hs⟩
termination_by (ts.length, 0)
decreasing_by
  · simp only [List.length_cons]; exact Prod.Lex.left _ _ (by omega)
  · simp only [List.length_cons]; exact Prod.Lex.left _ _ (by omega)

theorem wellMade_parseNew (ts : List Token) (hs : Sound ts) {made : Text × List Expr}
    {rest : List Token} (h : (parseNew stop ts).plain = .ok (made, rest)) :
    wellMadeExprs made.2 = true ∧ Sound rest := by
  rw [plain_parseNew] at h
  obtain ⟨⟨name, r⟩, hname, h⟩ := bind_eq_ok h
  have hr := sound_parseTypeName hs hname
  have := Answer.fewer_of_plain hname
  simp only at h
  split at h
  · next hnext =>
    obtain ⟨⟨args, r'⟩, hargs, h⟩ := bind_eq_ok h
    obtain ⟨ha, hr'⟩ := wellMade_parseArguments (r.drop 1) (hr.drop 1) hargs
    cases h
    exact ⟨ha, hr'⟩
  · cases h
    exact ⟨rfl, hr⟩
termination_by (ts.length, 0)
decreasing_by
  simp only [List.length_drop]
  exact Prod.Lex.left _ _ (by omega)

theorem wellMade_parsePrimary (ts : List Token) (hs : Sound ts) {e : Expr} {rest : List Token}
    (h : (parsePrimary stop ts).plain = .ok (e, rest)) : e.wellMade = true ∧ Sound rest := by
  match ts with
  | [] =>
    rw [plain_parsePrimary_nil] at h
    cases h
  | t :: ts =>
    cases hleaf : leafOf? t with
    | some leaf =>
      cases leaf with
      | error f =>
        rw [parsePrimary] at h
        simp only [hleaf] at h
        cases h
      | ok e' =>
        rw [plain_parsePrimary_leaf stop hleaf] at h
        cases h
        exact ⟨wellMade_leafOf? hs.head hleaf, hs.tail⟩
    | none =>
      by_cases hnew : t.isSymbol "new" = true
      · rw [plain_parsePrimary_new stop hleaf hnew] at h
        obtain ⟨⟨⟨name, args⟩, r⟩, hmade, h⟩ := bind_eq_ok h
        obtain ⟨ha, hr⟩ := wellMade_parseNew ts hs.tail hmade
        cases h
        simp only [Expr.wellMade, Expr.every, Expr.fits, Bool.true_and]
        exact ⟨ha, hr⟩
      · by_cases hparen : t.isSymbol "(" = true
        · rw [plain_parsePrimary_parenthesis stop hleaf (by simpa using hnew) hparen] at h
          obtain ⟨⟨e', r⟩, he, h⟩ := bind_eq_ok h
          obtain ⟨hm, hr⟩ := wellMade_parseBinary .disjunction ts hs.tail he
          obtain ⟨⟨_, r'⟩, hclose, h⟩ := bind_eq_ok h
          cases h
          exact ⟨hm, sound_expect hr hclose⟩
        · rw [plain_parsePrimary_other stop hleaf (by simpa using hnew)
            (by simpa using hparen)] at h
          split at h <;> cases h
termination_by (ts.length, 2)

end

/-- Expressions consist of what the language has. -/
theorem wellMade_parseExpr {ts : List Token} (hs : Sound ts) {e : Expr} {rest : List Token}
    (h : (parseExpr stop ts).plain = .ok (e, rest)) : e.wellMade = true ∧ Sound rest :=
  wellMade_parseBinary stop .disjunction ts hs h

end Expressions

section Simple

variable (stop : Token) {rest : List Token}

theorem wellMade_parseClause {symbol : Text} {ts : List Token} (hs : Sound ts) {o : Option Expr}
    (h : (parseClause stop symbol ts).plain = .ok (o, rest)) :
    wellMadeOption o = true ∧ Sound rest := by
  cases ts with
  | nil =>
    cases h
    exact ⟨rfl, hs⟩
  | cons t ts =>
    rw [plain_parseClause_cons] at h
    split at h
    · obtain ⟨⟨e, r⟩, he, h⟩ := bind_eq_ok h
      cases h
      exact wellMade_parseExpr stop hs.tail he
    · cases h
      exact ⟨rfl, hs⟩

theorem wellMade_parseType {ts : List Token} (hs : Sound ts) {type : Text × Option Expr}
    (h : (parseType stop ts).plain = .ok (type, rest)) :
    wellMadeOption type.2 = true ∧ Sound rest := by
  cases ts with
  | nil =>
    cases h
    exact ⟨rfl, hs⟩
  | cons t ts =>
    rw [plain_parseType_cons] at h
    split at h
    · cases ts with
      | nil => cases h
      | cons n ts =>
        by_cases hnew : n.isSymbol "new" = true
        · rw [plain_parseAs_new stop hnew] at h
          obtain ⟨⟨⟨name, args⟩, r⟩, hmade, h⟩ := bind_eq_ok h
          obtain ⟨ha, hr⟩ := wellMade_parseNew stop ts hs.tail.tail hmade
          cases h
          simp only [wellMadeOption, Option.all_some, Expr.every, Expr.fits, Bool.true_and]
          exact ⟨ha, hr⟩
        · rw [plain_parseAs_name stop (by simpa using hnew)] at h
          obtain ⟨⟨name, r⟩, hname, h⟩ := bind_eq_ok h
          have hr := sound_parseTypeName hs.tail hname
          cases h
          exact ⟨rfl, hr⟩
    · cases h
      exact ⟨rfl, hs⟩

theorem isPlainName_of_identifier {t : Token} (hs : t.isSound = true)
    (hk : t.kind = .identifier) : isPlainName t.text = true := by
  rw [Token.isSound, hk] at hs
  exact hs

theorem wellMade_parseDim {line : Line} {ts : List Token} (hs : Sound ts) {s : Stmt}
    (h : (parseDim stop line ts).plain = .ok (s, rest)) : s.wellMade = true ∧ Sound rest := by
  cases ts with
  | nil => cases h
  | cons n ts =>
    rw [plain_parseDim_cons] at h
    split at h
    · next hk =>
      obtain ⟨⟨⟨typeName, made⟩, r⟩, htype, h⟩ := bind_eq_ok h
      obtain ⟨hm, hr⟩ := wellMade_parseType stop hs.tail htype
      obtain ⟨⟨given, r'⟩, hgiven, h⟩ := bind_eq_ok h
      obtain ⟨hg, hr'⟩ := wellMade_parseClause stop hr hgiven
      cases h
      simp only [Stmt.wellMade, Stmt.every, Stmt.fits, Bool.and_eq_true]
      refine ⟨⟨isPlainName_of_identifier hs.head hk, ?_⟩, hr'⟩
      cases given with
      | none => exact hm
      | some e => exact hg
    · cases h

theorem wellMade_parseReturn {line : Line} {ts : List Token} (hs : Sound ts) {s : Stmt}
    (h : (parseReturn stop line ts).plain = .ok (s, rest)) : s.wellMade = true ∧ Sound rest := by
  rw [plain_parseReturn] at h
  split at h
  · cases h
    exact ⟨rfl, hs⟩
  · obtain ⟨⟨e, r⟩, he, h⟩ := bind_eq_ok h
    obtain ⟨hm, hr⟩ := wellMade_parseExpr stop hs he
    cases h
    simp only [Stmt.wellMade, Stmt.every, Stmt.fits, Option.all_some, Bool.true_and]
    exact ⟨hm, hr⟩

theorem wellMade_parseExit (line : Line) {ts : List Token} (hs : Sound ts) :
    (parseExit line ts).value.wellMade = true ∧ Sound (parseExit line ts).rest := by
  cases ts with
  | nil => exact ⟨rfl, hs⟩
  | cons t ts =>
    simp only [parseExit]
    split
    · exact ⟨rfl, hs⟩
    · exact ⟨rfl, hs.tail⟩

theorem wellMade_parseLoopTest {ts : List Token} (hs : Sound ts) {test : Option Expr × Bool}
    (h : (parseLoopTest stop ts).plain = .ok (test, rest)) :
    wellMadeOption test.1 = true ∧ (test.1.isSome || test.2) = true ∧ Sound rest := by
  cases ts with
  | nil =>
    cases h
    exact ⟨rfl, rfl, hs⟩
  | cons t ts =>
    by_cases ht : t.isSymbol "loop" = true
    · cases ts with
      | nil =>
        rw [parseLoopTest, if_pos ht] at h
        cases h
        exact ⟨rfl, rfl, sound_nil⟩
      | cons u ts =>
        by_cases hu : u.isAnyOf ["until", "while"] = true
        · rw [plain_parseLoopTest_test stop ht hu] at h
          obtain ⟨⟨e, r⟩, he, h⟩ := bind_eq_ok h
          obtain ⟨hm, hr⟩ := wellMade_parseExpr stop hs.tail.tail he
          cases h
          exact ⟨hm, rfl, hr⟩
        · rw [plain_parseLoopTest_bare stop ht (by simpa using hu)] at h
          cases h
          exact ⟨rfl, rfl, hs.tail⟩
    · have hstay : (parseLoopTest stop (t :: ts)).plain = .ok ((none, true), t :: ts) := by
        rw [parseLoopTest.eq_def]
        simp only [ht]
        rfl
      rw [hstay] at h
      cases h
      exact ⟨rfl, rfl, hs⟩

theorem wellMade_parseClassicArguments {ts : List Token} (hs : Sound ts) {es : List Expr}
    (h : (parseClassicArguments stop ts).plain = .ok (es, rest)) :
    wellMadeExprs es = true ∧ Sound rest := by
  rw [plain_parseClassicArguments] at h
  split at h
  · cases h
    exact ⟨rfl, hs⟩
  · obtain ⟨⟨first, r⟩, hfirst, h⟩ := bind_eq_ok h
    obtain ⟨hf, hr⟩ := wellMade_parseExpr stop hs hfirst
    obtain ⟨⟨others, r'⟩, hothers, h⟩ := bind_eq_ok h
    obtain ⟨ho, hr'⟩ := wellMade_parseMoreArguments stop r hr hothers
    cases h
    simp only [wellMadeExprs, everyExpr, Bool.and_eq_true]
    exact ⟨⟨hf, ho⟩, hr'⟩

theorem wellMade_parseExprStatement {line : Line} {ts : List Token} (hs : Sound ts)
    {s : Option Stmt} (h : (parseExprStatement stop line ts).plain = .ok (s, rest)) :
    wellMadeBlock s.toList = true ∧ Sound rest := by
  rw [plain_parseExprStatement] at h
  obtain ⟨⟨target, r⟩, htarget, h⟩ := bind_eq_ok h
  obtain ⟨ht, hr⟩ := wellMade_parsePostfix stop ts hs htarget
  simp only at h
  split at h
  · next hplace =>
    rw [Bool.and_eq_true] at hplace
    obtain ⟨⟨value, r'⟩, hvalue, h⟩ := bind_eq_ok h
    obtain ⟨hv, hr'⟩ := wellMade_parseExpr stop (hr.drop 1) hvalue
    cases h
    simp only [Option.toList_some, wellMadeBlock, everyStmt, Stmt.every, Stmt.fits, Bool.and_true,
      Bool.and_eq_true]
    exact ⟨⟨⟨hplace.1, ht⟩, hv⟩, hr'⟩
  · obtain ⟨⟨e, r'⟩, he, h⟩ := bind_eq_ok h
    obtain ⟨hm, hr'⟩ := wellMade_parseExpr stop hs he
    have hother : ∀ e : Expr, e.wellMade = true →
        (if e.isPlace then
            (parseClassicArguments stop r').plain >>= fun p => .ok (some (.call e p.1 line), p.2)
          else .ok (none, r')) = Except.ok (s, rest) →
        wellMadeBlock s.toList = true ∧ Sound rest := by
      intro e hm h
      split at h
      · obtain ⟨⟨args, r''⟩, hargs, h⟩ := bind_eq_ok h
        obtain ⟨ha, hr''⟩ := wellMade_parseClassicArguments stop hr' hargs
        cases h
        simp only [Option.toList_some, wellMadeBlock, everyStmt, Stmt.every, Stmt.fits,
          Bool.and_true, Bool.true_and, Bool.and_eq_true]
        exact ⟨⟨hm, ha⟩, hr''⟩
      · cases h
        exact ⟨rfl, hr'⟩
    cases e with
    | call callee args =>
      simp only [Expr.wellMade, Expr.every, Expr.fits, Bool.true_and, Bool.and_eq_true] at hm
      cases h
      simp only [Option.toList_some, wellMadeBlock, everyStmt, Stmt.every, Stmt.fits,
        Bool.and_true, Bool.true_and, Bool.and_eq_true]
      exact ⟨hm, hr'⟩
    | _ => exact hother _ hm h

end Simple

section Blocks

variable (stop : Token)

theorem wellMadeBlock_append {ss ss' : List Stmt} (h : wellMadeBlock ss = true)
    (h' : wellMadeBlock ss' = true) : wellMadeBlock (ss ++ ss') = true := by
  induction ss with
  | nil => exact h'
  | cons s ss ih =>
    simp only [wellMadeBlock, List.cons_append, everyStmt, Bool.and_eq_true] at h ⊢
    exact ⟨h.1, ih h.2⟩

theorem wellMadeBlock_toList {s : Stmt} (h : s.wellMade = true) :
    wellMadeBlock (some s).toList = true := by
  simp only [Option.toList_some, wellMadeBlock, everyStmt, Bool.and_true]
  exact h

theorem Sound.afterWend {ts : List Token} (h : Sound ts) : Sound (afterWend ts) := by
  unfold FormBasic.afterWend
  split
  · exact h.drop 1
  · exact h.dropWhen _ _

mutual

/-- Statements consist of what the language has. -/
theorem wellMade_parseStatement (t : Token) (ts : List Token) (ht : t.isSound = true)
    (hs : Sound ts) {s : Option Stmt} {rest : List Token}
    (h : (parseStatement stop t ts).plain = .ok (s, rest)) :
    wellMadeBlock s.toList = true ∧ Sound rest := by
  have hsome : ∀ {p : Except ParseFailure (Stmt × List Token)},
      (∀ s' r, p = .ok (s', r) → s'.wellMade = true ∧ Sound r) →
      (do let (s', r) ← p; return (some s', r)) = .ok (s, rest) →
      wellMadeBlock s.toList = true ∧ Sound rest := by
    intro p hp h
    obtain ⟨⟨s', r⟩, hs', h⟩ := bind_eq_ok h
    obtain ⟨hm, hr⟩ := hp s' r hs'
    cases h
    exact ⟨wellMadeBlock_toList hm, hr⟩
  rw [plain_parseStatement] at h
  split at h
  · exact hsome (fun _ _ => wellMade_parseDim stop hs) h
  split at h
  · exact hsome (fun _ _ hp => wellMade_parseCond t.line ts hs hp) h
  split at h
  · exact hsome (fun _ _ hp => wellMade_parseFor t.line ts hs hp) h
  split at h
  · exact hsome (fun _ _ hp => wellMade_parseWhile t.line ts hs hp) h
  split at h
  · exact hsome (fun _ _ hp => wellMade_parseDo t.line ts hs hp) h
  split at h
  · exact hsome (fun _ _ => wellMade_parseReturn stop hs) h
  split at h
  · obtain ⟨hm, hr⟩ := wellMade_parseExit t.line hs
    cases h
    exact ⟨wellMadeBlock_toList hm, hr⟩
  split at h
  · cases h
    exact ⟨rfl, hs.dropWhen _ _⟩
  · refine wellMade_parseExprStatement stop ?_ h
    intro u hu
    rcases List.mem_cons.1 hu with rfl | hu
    · exact ht
    · exact hs u hu
termination_by (ts.length, 2)

theorem wellMade_parseCond (line : Line) (ts : List Token) (hs : Sound ts) {s : Stmt}
    {rest : List Token} (h : (parseCond stop line ts).plain = .ok (s, rest)) :
    s.wellMade = true ∧ Sound rest := by
  rw [plain_parseCond] at h
  obtain ⟨⟨test, r⟩, htest, h⟩ := bind_eq_ok h
  obtain ⟨hm, hr⟩ := wellMade_parseExpr stop hs htest
  obtain ⟨⟨_, r'⟩, hthen, h⟩ := bind_eq_ok h
  have hr' := sound_expect hr hthen
  have hlt := Answer.fewer_of_plain htest
  have hlt' := Answer.fewer_of_plain hthen
  match r', h with
  | [], h =>
    cases h
    simp only [Stmt.wellMade, Stmt.every, Stmt.fits, everyStmt, everyElseIf, Bool.true_and,
      Bool.and_true]
    exact ⟨hm, sound_nil⟩
  | t :: r', h =>
    have hcons : r'.length + 1 < r.length := hlt'
    simp only at h
    split at h
    · obtain ⟨⟨body, r₁⟩, hbody, h⟩ := bind_eq_ok h
      obtain ⟨hb, hr₁⟩ := wellMade_parseBlock .branch (t :: r') hr' hbody
      obtain ⟨⟨elseIfs, r₂⟩, helseIfs, h⟩ := bind_eq_ok h
      have hlt₁ : r₁.length < (t :: r').length + 1 := Answer.fewer_of_plain hbody
      obtain ⟨he, hr₂⟩ := wellMade_parseElseIfs r₁ hr₁ helseIfs
      obtain ⟨⟨otherwise, r₃⟩, hotherwise, h⟩ := bind_eq_ok h
      have hlt₂ : r₂.length < r₁.length + 1 := Answer.fewer_of_plain helseIfs
      obtain ⟨ho, hr₃⟩ := wellMade_parseElse r₂ hr₂ hotherwise
      cases h
      simp only [Stmt.wellMade, Stmt.every, Stmt.fits, Bool.true_and, Bool.and_eq_true]
      exact ⟨⟨⟨⟨hm, hb⟩, he⟩, ho⟩, hr₃.dropWhen _ _⟩
    · obtain ⟨⟨first, r₁⟩, hfirst, h⟩ := bind_eq_ok h
      obtain ⟨hf, hr₁⟩ := wellMade_parseStatement t r' hr'.head hr'.tail hfirst
      have hlt₁ : r₁.length < r'.length + 1 := Answer.fewer_of_plain hfirst
      simp only at h
      split at h
      · obtain ⟨⟨second, r₂⟩, hsecond, h⟩ := bind_eq_ok h
        obtain ⟨hsec, hr₂⟩ := wellMade_parseSingle (r₁.drop 1) (hr₁.drop 1) hsecond
        cases h
        simp only [Stmt.wellMade, Stmt.every, Stmt.fits, everyElseIf, Bool.true_and,
          Bool.and_true, Bool.and_eq_true]
        exact ⟨⟨⟨hm, hf⟩, hsec⟩, hr₂⟩
      · cases h
        simp only [Stmt.wellMade, Stmt.every, Stmt.fits, everyStmt, everyElseIf, Bool.true_and,
          Bool.and_true, Bool.and_eq_true]
        exact ⟨⟨hm, hf⟩, hr₁⟩
termination_by (ts.length, 1)
decreasing_by
  · exact Prod.Lex.left _ _ (by omega)
  · exact Prod.Lex.left _ _ (Nat.lt_of_le_of_lt (List.drop_sublist 1 r₁).length_le (by omega))
  · exact Prod.Lex.left _ _ (by omega)
  · exact Prod.Lex.left _ _ (by omega)
  · exact Prod.Lex.left _ _ (by omega)

theorem wellMade_parseElseIfs (ts : List Token) (hs : Sound ts) {es : List ElseIf}
    {rest : List Token} (h : (parseElseIfs stop ts).plain = .ok (es, rest)) :
    wellMadeElseIfs es = true ∧ Sound rest := by
  match ts with
  | [] =>
    rw [parseElseIfs] at h
    cases h
    exact ⟨rfl, sound_nil⟩
  | t :: ts =>
    rw [plain_parseElseIfs_cons] at h
    split at h
    · obtain ⟨⟨test, r⟩, htest, h⟩ := bind_eq_ok h
      obtain ⟨hm, hr⟩ := wellMade_parseExpr stop hs.tail htest
      obtain ⟨⟨_, r'⟩, hthen, h⟩ := bind_eq_ok h
      have hr' := sound_expect hr hthen
      have hlt := Answer.fewer_of_plain htest
      have hlt' := Answer.fewer_of_plain hthen
      obtain ⟨⟨body, r₁⟩, hbody, h⟩ := bind_eq_ok h
      obtain ⟨hb, hr₁⟩ := wellMade_parseBlock .branch r' hr' hbody
      have hlt₁ := Answer.fewer_of_plain hbody
      obtain ⟨⟨others, r₂⟩, hothers, h⟩ := bind_eq_ok h
      obtain ⟨ho, hr₂⟩ := wellMade_parseElseIfs r₁ hr₁ hothers
      cases h
      simp only [wellMadeElseIfs, everyElseIf, ElseIf.every, Bool.and_eq_true]
      exact ⟨⟨⟨hm, hb⟩, ho⟩, hr₂⟩
    · cases h
      exact ⟨rfl, hs⟩
termination_by (ts.length, 1)
decreasing_by
  all_goals
    simp only [List.length_cons]
    exact Prod.Lex.left _ _ (by omega)

theorem wellMade_parseElse (ts : List Token) (hs : Sound ts) {ss : List Stmt}
    {rest : List Token} (h : (parseElse stop ts).plain = .ok (ss, rest)) :
    wellMadeBlock ss = true ∧ Sound rest := by
  match ts with
  | [] =>
    rw [parseElse] at h
    cases h
    exact ⟨rfl, sound_nil⟩
  | t :: ts =>
    rw [plain_parseElse_cons] at h
    split at h
    · exact wellMade_parseBlock .lastBranch ts hs.tail h
    · cases h
      exact ⟨rfl, hs⟩
termination_by (ts.length, 1)

theorem wellMade_parseFor (line : Line) (ts : List Token) (hs : Sound ts) {s : Stmt}
    {rest : List Token} (h : (parseFor stop line ts).plain = .ok (s, rest)) :
    s.wellMade = true ∧ Sound rest := by
  match ts with
  | [] =>
    rw [parseFor] at h
    cases h
  | v :: ts =>
    rw [plain_parseFor_cons] at h
    split at h
    · next hk =>
      obtain ⟨⟨_, r₁⟩, hequals, h⟩ := bind_eq_ok h
      have hr₁ := sound_expect hs.tail hequals
      obtain ⟨⟨start, r₂⟩, hstart, h⟩ := bind_eq_ok h
      obtain ⟨hm, hr₂⟩ := wellMade_parseExpr stop hr₁ hstart
      obtain ⟨⟨_, r₃⟩, hto, h⟩ := bind_eq_ok h
      have hr₃ := sound_expect hr₂ hto
      obtain ⟨⟨last, r₄⟩, hlast, h⟩ := bind_eq_ok h
      obtain ⟨hl, hr₄⟩ := wellMade_parseExpr stop hr₃ hlast
      obtain ⟨⟨step, r₅⟩, hstep, h⟩ := bind_eq_ok h
      obtain ⟨hp, hr₅⟩ := wellMade_parseClause stop hr₄ hstep
      obtain ⟨⟨body, r₆⟩, hbody, h⟩ := bind_eq_ok h
      have hlt₁ := Answer.fewer_of_plain hequals
      have hlt₂ := Answer.fewer_of_plain hstart
      have hlt₃ := Answer.fewer_of_plain hto
      have hlt₄ := Answer.fewer_of_plain hlast
      have hlt₅ := Answer.fewer_of_plain hstep
      obtain ⟨hb, hr₆⟩ := wellMade_parseBlock .forBody r₅ hr₅ hbody
      cases h
      simp only [Stmt.wellMade, Stmt.every, Stmt.fits, Bool.and_eq_true]
      exact ⟨⟨⟨⟨⟨isPlainName_of_identifier hs.head hk, hm⟩, hl⟩, hp⟩, hb⟩, hr₆.dropWhen _ _⟩
    · cases h
termination_by (ts.length, 1)
decreasing_by
  simp only [List.length_cons]
  exact Prod.Lex.left _ _ (by omega)

theorem wellMade_parseWhile (line : Line) (ts : List Token) (hs : Sound ts) {s : Stmt}
    {rest : List Token} (h : (parseWhile stop line ts).plain = .ok (s, rest)) :
    s.wellMade = true ∧ Sound rest := by
  rw [plain_parseWhile] at h
  obtain ⟨⟨test, r⟩, htest, h⟩ := bind_eq_ok h
  obtain ⟨hm, hr⟩ := wellMade_parseExpr stop hs htest
  have hlt := Answer.fewer_of_plain htest
  obtain ⟨⟨body, r'⟩, hbody, h⟩ := bind_eq_ok h
  obtain ⟨hb, hr'⟩ := wellMade_parseBlock .whileBody r hr hbody
  cases h
  simp only [Stmt.wellMade, Stmt.every, Stmt.fits, Bool.true_and, Bool.and_eq_true]
  exact ⟨⟨hm, hb⟩, hr'.afterWend⟩
termination_by (ts.length, 1)

theorem wellMade_parseDo (line : Line) (ts : List Token) (hs : Sound ts) {s : Stmt}
    {rest : List Token} (h : (parseDo stop line ts).plain = .ok (s, rest)) :
    s.wellMade = true ∧ Sound rest := by
  rw [plain_parseDo] at h
  split at h
  · cases h
  · obtain ⟨⟨body, r⟩, hbody, h⟩ := bind_eq_ok h
    obtain ⟨hb, hr⟩ := wellMade_parseBlock .doBody ts hs hbody
    obtain ⟨⟨⟨test, ending⟩, r'⟩, htest, h⟩ := bind_eq_ok h
    obtain ⟨hm, hending, hr'⟩ := wellMade_parseLoopTest stop hr htest
    cases h
    simp only [Stmt.wellMade, Stmt.every, Stmt.fits, Bool.true_and, Bool.and_eq_true]
    exact ⟨⟨⟨hending, hb⟩, hm⟩, hr'⟩
termination_by (ts.length, 1)

/-- Blocks consist of what the language has. -/
theorem wellMade_parseBlock (closer : Closer) (ts : List Token) (hs : Sound ts) {ss : List Stmt}
    {rest : List Token} (h : (parseBlock stop closer ts).plain = .ok (ss, rest)) :
    wellMadeBlock ss = true ∧ Sound rest := by
  rw [plain_parseBlock] at h
  have hskip := hs.skipNewlines
  have hle := length_skipNewlines_le ts
  match skipNewlines ts, hskip, hle, h with
  | [], _, _, h =>
    cases h
    exact ⟨rfl, sound_nil⟩
  | t :: us, hskip, hle, h =>
    simp only at h
    split at h
    · cases h
      exact ⟨rfl, hskip⟩
    · obtain ⟨⟨first, r⟩, hfirst, h⟩ := bind_eq_ok h
      obtain ⟨hf, hr⟩ := wellMade_parseStatement t us hskip.head hskip.tail hfirst
      have hlt := Answer.fewer_of_plain hfirst
      obtain ⟨⟨others, r'⟩, hothers, h⟩ := bind_eq_ok h
      obtain ⟨ho, hr'⟩ := wellMade_parseBlock closer r hr hothers
      cases h
      exact ⟨wellMadeBlock_append hf ho, hr'⟩
termination_by (ts.length, 0)
decreasing_by
  all_goals
    simp only [List.length_cons] at hle
    exact Prod.Lex.left _ _ (by omega)

theorem wellMade_parseSingle (ts : List Token) (hs : Sound ts) {ss : List Stmt}
    {rest : List Token} (h : (parseSingle stop ts).plain = .ok (ss, rest)) :
    wellMadeBlock ss = true ∧ Sound rest := by
  rw [plain_parseSingle] at h
  have hskip := hs.skipNewlines
  have hle := length_skipNewlines_le ts
  match skipNewlines ts, hskip, hle, h with
  | [], _, _, h =>
    cases h
    exact ⟨rfl, sound_nil⟩
  | t :: us, hskip, hle, h =>
    obtain ⟨⟨first, r⟩, hfirst, h⟩ := bind_eq_ok h
    obtain ⟨hf, hr⟩ := wellMade_parseStatement t us hskip.head hskip.tail hfirst
    cases h
    exact ⟨hf, hr⟩
termination_by (ts.length, 0)
decreasing_by
  simp only [List.length_cons] at hle
  exact Prod.Lex.left _ _ (by omega)

end

end Blocks

end FormBasic
