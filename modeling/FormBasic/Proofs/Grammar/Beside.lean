import FormBasic.Proofs.Grammar.Statements
import FormBasic.Proofs.Grammar.Tandem
import FormBasic.Proofs.Token.Lines

/-!
# Two runs of the parsers side by side

The body of a handler is parsed by itself, where the text ends after it, and inside a module, where
a line end and the end of the handler follow. Token by token the two runs do the same. This file
states what it is for two lists of tokens to lie side by side in this way, and shows that they run
in tandem through the parsers of expressions.

Two things must not happen. The body must not hold the end of a handler itself. And it must not
break off: after a point of a type name the parsers take any token for a name, and after an `Else`
in the middle of a line they look for a statement on the lines below, and either way they would
reach the tokens after the body.

## Main definitions

* `holdsHandlerEnd`, `breaksOff` - the bodies that are left out
* `Beside` - the tokens of a body, by itself and with the end of its handler below
* `Alike` - steps that fail together or succeed together

## Main statements

* `Lined.beside` - a body and the same body with a line feed after it lie side by side
* `alike_parseExpr` - expressions
-/

namespace FormBasic

open Token (Content)

-- ════════════════════════════════════════════════════════════════════════════
-- Bodies beside themselves
-- ════════════════════════════════════════════════════════════════════════════

/-- Whether the end of a handler stands somewhere in the list. -/
def holdsHandlerEnd : List Token → Bool
  | [] => false
  | t :: ts => atHandlerEnd (t :: ts) || holdsHandlerEnd ts

/-- Places between the tokens of a text. -/
inductive Place where
  | lineStart
  /-- After `As` or `New` and the names that follow, where a type name may go on. -/
  | inType
  /-- After a point of a type name. -/
  | afterPoint
  | inLine
  deriving Repr, DecidableEq

/-- Whether a point that is next belongs to a type name. -/
def Place.inTypeName (place : Place) : Bool := place = .inType || place = .afterPoint

/-- The place after a token. A line end after a point of a type name starts no line, since it is
taken for a name. -/
def Place.next (place : Place) (t : Token) : Place :=
  if place.inTypeName && t.isSymbol "." then .afterPoint
  else if place = .afterPoint then .inType
  else if t.kind = .newline then .lineStart
  else if t.isAnyOf ["as", "new"] || (place = .inType && t.isName) then .inType
  else .inLine

/-- Whether the token, at a place, makes the parsers look beyond the end of its line: a point of a
type name, or an `Else` that does not start the line. -/
def Place.looksBeyond (place : Place) (t : Token) : Bool :=
  (place.inTypeName && t.isSymbol ".") || (t.isSymbol "else" && place ≠ .lineStart)

theorem Place.next_point {place : Place} (hplace : place.inTypeName = true) {t : Token}
    (ht : t.isSymbol "." = true) : place.next t = .afterPoint :=
  if_pos (Bool.and_eq_true_iff.2 ⟨hplace, ht⟩)

theorem Place.inTypeName_next_afterPoint (t : Token) :
    (Place.afterPoint.next t).inTypeName = true := by
  unfold Place.next
  split <;> rfl

theorem Place.inTypeName_next_name {t : Token} (ht : t.isName = true) :
    (Place.inType.next t).inTypeName = true := by
  have hkind : t.kind ≠ .newline := fun hk =>
    Bool.false_ne_true ((offLineEnds_isName t hk).symm.trans ht)
  by_cases hpoint : t.isSymbol "." = true
  · rw [Place.next_point rfl hpoint]
    rfl
  · simp [Place.next, hpoint, hkind, ht, Place.inTypeName]

theorem Place.next_eq_inType (place : Place) {t : Token} {word : Text}
    (hword : word ∈ (["as", "new"] : List Text)) (ht : t.isSymbol word = true) :
    place.next t = .inType := by
  have hkind : t.kind ≠ .newline := fun hk =>
    Bool.false_ne_true ((offLineEnds_isSymbol word t hk).symm.trans ht)
  have hpoint : t.isSymbol "." = false := by
    refine isSymbol_of_isSymbol ht fun h => ?_
    subst h
    revert hword
    decide
  have hany : t.isAnyOf ["as", "new"] = true := Token.isAnyOf_eq_true_iff.2 ⟨word, hword, ht⟩
  simp [Place.next, hpoint, hkind, hany]

theorem Place.ne_lineStart_of_inTypeName {place : Place} (h : place.inTypeName = true) :
    place ≠ .lineStart := by
  rintro rfl
  cases h

/-- Whether the last token of the list makes the parsers look beyond it; `place` is where the list
starts. -/
def breaksOff : (place : Place) → List Token → Bool
  | _, [] => false
  | place, t :: ts =>
    (place.looksBeyond t && (skipNewlines ts).isEmpty) || breaksOff (place.next t) ts

/-- The tokens of a text from some place on, and the same tokens with a line end and `ends` after
them. -/
inductive Beside (ends : List Token) : Place → List Token → List Token → Prop
  | feed {place : Place} {n : Token} (hn : n.content = .newline) : Beside ends place [] (n :: ends)
  | joined {place : Place} {t n : Token} (ht : t.content = .newline) (hn : n.content = .newline) :
    Beside ends place [t] (n :: ends)
  | cons {place : Place} {t u : Token} {ts us : List Token} (same : u.content = t.content)
    (inside : atHandlerEnd (t :: ts) = false)
    (whole : place.looksBeyond t = true → skipNewlines ts ≠ [])
    (tail : Beside ends (place.next t) ts us) : Beside ends place (t :: ts) (u :: us)

/-- A body and the same body with a line feed after it lie side by side. -/
theorem Lined.beside {ts us : List Token} (h : Lined ts us) {place : Place}
    (hinside : holdsHandlerEnd ts = false) (hwhole : breaksOff place ts = false)
    (ends : List Token) : Beside ends place ts (us ++ ends) := by
  induction h generalizing place with
  | feed hn => exact .feed hn
  | joined ht hn => exact .joined ht hn
  | @cons t u ts us same tail ih =>
    simp only [holdsHandlerEnd, Bool.or_eq_false_iff] at hinside
    simp only [breaksOff, Bool.or_eq_false_iff] at hwhole
    refine .cons same hinside.1 ?_ (ih hinside.2 hwhole.2)
    intro hlooks hempty
    simp [hlooks, hempty] at hwhole

/-- Lists that lie side by side where no line starts, as after a token of a statement. -/
def Midway (ends ts us : List Token) : Prop :=
  ∃ place, place ≠ .lineStart ∧ Beside ends place ts us

theorem Midway.exists_beside {ends ts us : List Token} (h : Midway ends ts us) :
    ∃ place, place ≠ .lineStart ∧ Beside ends place ts us :=
  h

/-- After a token that is no line end no line starts. -/
theorem Beside.midway {ends ts us : List Token} {place : Place} {t : Token}
    (h : Beside ends (place.next t) ts us) (ht : t.kind ≠ .newline) : Midway ends ts us := by
  refine ⟨_, ?_, h⟩
  unfold Place.next
  rw [if_neg ht]
  split
  · exact Place.noConfusion
  · split
    · exact Place.noConfusion
    · split <;> exact Place.noConfusion

/-- Two lists that lie side by side, as a parser of expressions sees them. -/
inductive Abreast (ends : List Token) (place : Place) : List Token → List Token → Prop
  /-- The line ends in both. -/
  | line {ts us : List Token} (hts : AtLineEnd ts) (hus : AtLineEnd us) : Abreast ends place ts us
  /-- Both go on with the same token. -/
  | token {t u : Token} {ts us : List Token} (kind : t.kind ≠ .newline)
    (same : u.content = t.content) (inside : atHandlerEnd (t :: ts) = false)
    (whole : place.looksBeyond t = true → skipNewlines ts ≠ [])
    (tail : Beside ends (place.next t) ts us) (rest : Midway ends ts us) :
    Abreast ends place (t :: ts) (u :: us)

namespace Beside

variable {ends ts us : List Token} {place : Place}

theorem abreast (h : Beside ends place ts us) : Abreast ends place ts us := by
  have hline : ∀ {n : Token} {rest : List Token}, n.kind = .newline → AtLineEnd (n :: rest) := by
    intro n rest hn t ht
    cases ht
    exact hn
  cases h with
  | feed hn => exact .line (fun _ ht => nomatch ht) (hline (Token.kind_of_content hn))
  | joined ht hn =>
    exact .line (hline (Token.kind_of_content ht)) (hline (Token.kind_of_content hn))
  | @cons _ t u ts us same inside whole tail =>
    by_cases hk : t.kind = .newline
    · exact .line (hline hk) (hline ((Token.kind_congr same).trans hk))
    · exact .token hk same inside whole tail (tail.midway hk)

/-- Where the text goes on with more than line ends, both lists go on with the same token. -/
theorem exists_cons (h : Beside ends place ts us) (hne : skipNewlines ts ≠ []) :
    ∃ (t u : Token) (ts' us' : List Token), ts = t :: ts' ∧ us = u :: us' ∧
      u.content = t.content ∧ Beside ends (place.next t) ts' us' := by
  cases h with
  | feed hn => exact absurd rfl hne
  | joined hn hm => exact absurd (skipNewlines_cons_newline hn []) hne
  | cons same inside whole tail => exact ⟨_, _, _, _, rfl, rfl, same, tail⟩

/-- The next tokens of both lists have the same properties. -/
theorem any_head (h : Beside ends place ts us) {p : Token → Bool} (hp : OffLineEnds p)
    (hsame : ∀ t u : Token, u.content = t.content → p u = p t) :
    us.head?.any p = ts.head?.any p := by
  cases h.abreast with
  | line hts hus => rw [hts.any_head hp, hus.any_head hp]
  | token _ same => exact hsame _ _ same

/-- The lists still lie side by side after a token that is no line end. -/
theorem drop_head (h : Beside ends place ts us) {p : Token → Bool} (hp : OffLineEnds p)
    (hany : ts.head?.any p = true) : Midway ends (ts.drop 1) (us.drop 1) := by
  cases h.abreast with
  | line hts _ => rw [hts.any_head hp] at hany; cases hany
  | token _ _ _ _ _ rest => exact rest

theorem nextIs (h : Beside ends place ts us) (texts : List Text) :
    nextIs us texts = nextIs ts texts :=
  h.any_head (offLineEnds_isAnyOf texts) fun _ _ same => Token.isAnyOf_congr same texts

theorem drop_one (h : Beside ends place ts us) {texts : List Text}
    (hnext : FormBasic.nextIs ts texts = true) : Midway ends (ts.drop 1) (us.drop 1) :=
  h.drop_head (offLineEnds_isAnyOf texts) hnext

theorem atStatementEnd (h : Beside ends place ts us) : atStatementEnd us = atStatementEnd ts := by
  cases h.abreast with
  | line hts hus => rw [hts.atStatementEnd, hus.atStatementEnd]
  | token _ same => simp [FormBasic.atStatementEnd, Token.endsStatement_congr same]

theorem atEndOf (h : Beside ends place ts us) (words : List Text) :
    atEndOf us words = atEndOf ts words := by
  rw [FormBasic.atEndOf, FormBasic.atEndOf, h.nextIs]
  cases hend : FormBasic.nextIs ts ["end"] with
  | false => rfl
  | true =>
    obtain ⟨_, -, hrest⟩ := h.drop_one hend
    rw [hrest.nextIs]

/-- The lists still lie side by side after two words that close a block. -/
theorem drop_two (h : Beside ends place ts us) {words : List Text}
    (hend : FormBasic.atEndOf ts words = true) : Midway ends (ts.drop 2) (us.drop 2) := by
  rw [FormBasic.atEndOf, Bool.and_eq_true] at hend
  obtain ⟨_, -, hrest⟩ := h.drop_one hend.1
  have := hrest.drop_one hend.2
  rwa [List.drop_drop, List.drop_drop] at this

end Beside

-- ════════════════════════════════════════════════════════════════════════════
-- Steps that go alike
-- ════════════════════════════════════════════════════════════════════════════

/-- Two steps go alike when both fail, or when both succeed and their values and the remaining
tokens belong together. -/
inductive Alike {α β : Type} (R : α → β → Prop) (P : List Token → List Token → Prop) :
    Except ParseFailure (α × List Token) → Except ParseFailure (β × List Token) → Prop
  | error (e e' : ParseFailure) : Alike R P (.error e) (.error e')
  | ok {a : α} {b : β} {ts us : List Token} (value : R a b) (rest : P ts us) :
    Alike R P (.ok (a, ts)) (.ok (b, us))

section Steps

variable {α β α' β' : Type} {R : α → β → Prop} {R' : α' → β' → Prop}
  {P P' : List Token → List Token → Prop} {x : Except ParseFailure (α × List Token)}
  {y : Except ParseFailure (β × List Token)}

/-- Steps one after the other go alike. -/
theorem Alike.bind {f : α × List Token → Except ParseFailure (α' × List Token)}
    {g : β × List Token → Except ParseFailure (β' × List Token)} (h : Alike R P x y)
    (hf : ∀ a b ts us, x = .ok (a, ts) → R a b → P ts us → Alike R' P' (f (a, ts)) (g (b, us))) :
    Alike R' P' (x >>= f) (y >>= g) := by
  cases h with
  | error e e' => exact .error e e'
  | ok value rest => exact hf _ _ _ _ rfl value rest

theorem Alike.symm (h : Alike R P x y) : Alike (fun b a => R a b) (fun us ts => P ts us) y x := by
  cases h with
  | error e e' => exact .error e' e
  | ok value rest => exact .ok value rest

/-- Of steps that go alike, each follows the other. -/
theorem Alike.tracks (h : Alike R P x y) : Tracks P R x y := by
  cases h with
  | error e e' => exact .error e _
  | ok value rest => exact .ok value rest

theorem Alike.of_tracks {Q : List Token → List Token → Prop} {S : β → α → Prop}
    (h : Tracks P R x y) (h' : Tracks Q S y x) : Alike R P x y := by
  cases x with
  | ok p =>
    obtain ⟨b, us, rfl, value, rest⟩ := h p.1 p.2 rfl
    exact .ok value rest
  | error e =>
    cases y with
    | error e' => exact .error e e'
    | ok q =>
      obtain ⟨a, ts, hx, -⟩ := h' q.1 q.2 rfl
      cases hx

theorem Alike.failAt (t u : Token) (cause cause' : Misparse) :
    Alike R P (failAt t cause) (failAt u cause') :=
  .error _ _

end Steps

-- ════════════════════════════════════════════════════════════════════════════
-- Expressions
-- ════════════════════════════════════════════════════════════════════════════

section Expressions

variable (stop stop' : Token) {ends : List Token}

theorem alike_expect (want : Text) {place : Place} {ts us : List Token}
    (h : Beside ends place ts us) :
    Alike (fun _ _ => True) (Midway ends) (expect stop want ts).plain
      (expect stop' want us).plain := by
  cases h.abreast with
  | line hts hus =>
    obtain ⟨e, he⟩ := exists_plain_expect_error stop want hts
    obtain ⟨e', he'⟩ := exists_plain_expect_error stop' want hus
    rw [he, he']
    exact .error e e'
  | token _ same _ _ _ rest =>
    rw [plain_expect_cons, plain_expect_cons, Token.isSymbol_congr same]
    split
    · exact .ok trivial rest
    · exact .failAt _ _ _ _

/-- The segments of a type name: a point is not the last token, so that the token after it, which is
taken for a name whatever it is, stands in both lists. -/
theorem alike_typeSegments (name : Text) {place : Place} (hplace : place.inTypeName = true)
    (ts us : List Token) (h : Beside ends place ts us) :
    (typeSegments stop' name us).value = (typeSegments stop name ts).value ∧
      Midway ends (typeSegments stop name ts).rest (typeSegments stop' name us).rest := by
  by_cases hpoint : nextIs ts ["."] = true
  · cases h.abreast with
    | line hts _ => rw [hts.nextIs] at hpoint; cases hpoint
    | @token t u ts us kind same inside whole tail rest =>
      have ht : t.isSymbol "." = true := by simpa [Token.isAnyOf] using hpoint
      have hu : u.isSymbol "." = true := (Token.isSymbol_congr same _).trans ht
      have hne : skipNewlines ts ≠ [] := whole (by rw [Place.looksBeyond, hplace, ht]; rfl)
      rw [Place.next_point hplace ht] at tail
      obtain ⟨n, m, ts, us, rfl, rfl, same', tail'⟩ := tail.exists_cons hne
      have ih := alike_typeSegments n.text (Place.inTypeName_next_afterPoint n) ts us tail'
      rw [typeSegments, typeSegments, if_pos ht, if_pos hu, Token.text_congr same']
      exact ih
  · have hstop : nextIs ts ["."] = false := by simpa using hpoint
    obtain ⟨hv, hr⟩ := typeSegments_stop stop name hstop
    obtain ⟨hv', hr'⟩ := typeSegments_stop stop' name ((h.nextIs _).trans hstop)
    rw [hv, hr, hv', hr']
    exact ⟨rfl, place, Place.ne_lineStart_of_inTypeName hplace, h⟩
termination_by ts.length

theorem alike_parseTypeName {ts us : List Token} (h : Beside ends .inType ts us) :
    Alike Eq (Midway ends) (parseTypeName stop ts).plain (parseTypeName stop' us).plain := by
  cases h.abreast with
  | line hts hus =>
    obtain ⟨e, he⟩ := exists_plain_parseTypeName_error stop hts
    obtain ⟨e', he'⟩ := exists_plain_parseTypeName_error stop' hus
    rw [he, he']
    exact .error e e'
  | @token t u ts us kind same _ _ tail _ =>
    rw [parseTypeName, parseTypeName, Token.isName_congr same, Token.text_congr same]
    split
    · next hname =>
      obtain ⟨hvalue, hrest⟩ := alike_typeSegments stop stop' t.text
        (Place.inTypeName_next_name hname) ts us tail
      exact .ok hvalue.symm hrest
    · exact .failAt _ _ _ _

end Expressions

section Tandem

variable (ends : List Token) (stop stop' : Token)

/-- Lists that lie side by side are read in tandem. -/
def Beside.tandem : Tandem .eq stop stop' where
  start ts us := ∃ place, Beside ends place ts us
  onward := Midway ends
  inType := Beside ends .inType
  start_of_onward h := by
    obtain ⟨place, -, hb⟩ := h.exists_beside
    exact ⟨place, hb⟩
  seen h := by
    obtain ⟨place, hb⟩ := h
    cases hb.abreast with
    | line hts hus => exact .line hts (hus.nextIs _)
    | token _ same _ _ tail rest =>
      exact .token (Likeness.agree_of_content same) rest fun hnew =>
        place.next_eq_inType (by decide) hnew ▸ tail
  typeName h := (alike_parseTypeName stop stop' h).tracks

/-- The same with the longer list first. -/
def Beside.tandemBack : Tandem .eq stop' stop where
  start us ts := ∃ place, Beside ends place ts us
  onward us ts := Midway ends ts us
  inType us ts := Beside ends .inType ts us
  start_of_onward h := by
    obtain ⟨place, -, hb⟩ := h.exists_beside
    exact ⟨place, hb⟩
  seen h := by
    obtain ⟨place, hb⟩ := h
    cases hb.abreast with
    | line hts hus => exact .line hus (hts.nextIs _)
    | token _ same _ _ tail rest =>
      refine .token (Likeness.agree_of_content same.symm) rest fun hnew => ?_
      exact place.next_eq_inType (by decide) ((Token.isSymbol_congr same _).symm.trans hnew) ▸ tail
  typeName h := (alike_parseTypeName stop stop' h).symm.tracks.mono fun _ _ hname => hname.symm

variable {ends} {place : Place} {ts us : List Token}

theorem alike_parsePostfix (ts us : List Token) (h : Beside ends place ts us) :
    Alike Eq (Midway ends) (parsePostfix stop ts).plain (parsePostfix stop' us).plain :=
  .of_tracks ((Beside.tandem ends stop stop').tracks_parsePostfix ts us ⟨place, h⟩)
    ((Beside.tandemBack ends stop stop').tracks_parsePostfix us ts ⟨place, h⟩)

theorem alike_parseMoreArguments (ts us : List Token) (h : Midway ends ts us) :
    Alike Eq (Midway ends) (parseMoreArguments stop ts).plain
      (parseMoreArguments stop' us).plain :=
  .of_tracks (((Beside.tandem ends stop stop').tracks_parseMoreArguments ts us h).mono
      fun _ _ => List.forall₂_eq_eq_eq ▸ id)
    ((Beside.tandemBack ends stop stop').tracks_parseMoreArguments us ts h)

theorem alike_parseNew (ts us : List Token) (h : Beside ends .inType ts us) :
    Alike Eq (Midway ends) (parseNew stop ts).plain (parseNew stop' us).plain :=
  .of_tracks (((Beside.tandem ends stop stop').tracks_parseNew ts us h).mono
      fun _ _ hsame => Prod.ext hsame.1 (List.forall₂_eq_eq_eq ▸ hsame.2))
    ((Beside.tandemBack ends stop stop').tracks_parseNew us ts h)

/-- Expressions are read alike. -/
theorem alike_parseExpr (h : Beside ends place ts us) :
    Alike Eq (Midway ends) (parseExpr stop ts).plain (parseExpr stop' us).plain :=
  .of_tracks ((Beside.tandem ends stop stop').tracks_parseExpr ⟨place, h⟩)
    ((Beside.tandemBack ends stop stop').tracks_parseExpr ⟨place, h⟩)

end Tandem

end FormBasic
