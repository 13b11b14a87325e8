import FormBasic.Proofs.Grammar.Derivation
import FormBasic.Proofs.Grammar.Statements
import FormBasic.Proofs.Grammar.Tandem
import FormBasic.Proofs.Token.Blanks

/-!
# Trimmed expressions

A text that is accepted as an expression is accepted without the blanks around it. The tree is the
same but for the text of a string without a closing quote, and for a type name that ends with a
point: such a name goes on with the line end behind it, or else with the empty text of the end
marker.

## Main definitions

* `Likeness.IgnoresEnds` - correspondences of trees in which these differences do not count
* `Trimmed.tandem` - the tokens of a text and of its trimmed form are read in tandem

## Main statements

* `Expr.exists_parse_trim` - a trimmed expression is accepted
-/

namespace FormBasic

/-- Whether all strings correspond to each other, and all names of types. -/
structure Likeness.IgnoresEnds (L : Likeness) : Prop where
  strings (s s' : Text) : L.same (.string s) (.string s')
  names (n n' : Text) : L.names n n'

namespace Trimmed

variable {L : Likeness} (hL : L.IgnoresEnds) (stop stop' : Token) {ts us : List Token}

theorem atLineEnd (lines : ∀ t ∈ ts, t.kind = .newline) : AtLineEnd ts :=
  fun t ht => lines t (List.mem_of_mem_head? ht)

include hL

/-- What a parser of expressions sees of the two rows. -/
theorem seen (h : Trimmed ts us) : Tandem.Seen L Trimmed Trimmed ts us := by
  cases h with
  | done lines => exact .line (atLineEnd lines) rfl
  | cons kind text tail =>
    exact .token ⟨kind, text, fun _ => hL.strings _ _⟩ tail fun _ => tail

/-- The segments of a type name are over at the same place. Where the text ends after a point, the
first run takes a line end for a name, if there is one, and the second run the end marker. -/
theorem typeSegments_rest (name name' : Text) (ts us : List Token) (h : Trimmed ts us) :
    Trimmed (typeSegments stop name ts).rest (typeSegments stop' name' us).rest := by
  have hnext : nextIs us ["."] = nextIs ts ["."] := by
    cases h.seen hL with
    | line ends stops => rw [ends.nextIs, nextIs_subset (by decide) stops]
    | token agree => exact agree.isAnyOf _
  by_cases hpoint : nextIs ts ["."] = true
  · match ts, us, h with
    | ts, [], .done lines => rw [(atLineEnd lines).nextIs] at hpoint; cases hpoint
    | t :: ts, u :: us, .cons _ _ tail =>
      have ht : t.isSymbol "." = true := by simpa [Token.isAnyOf] using hpoint
      have hu : u.isSymbol "." = true := by simpa [Token.isAnyOf] using hnext.trans hpoint
      match ts, us, tail with
      | [], [], .done lines =>
        rw [typeSegments, typeSegments, if_pos ht, if_pos hu]
        exact .done lines
      | n :: ts, [], .done lines =>
        have hlines : ∀ t ∈ ts, t.kind = .newline := (List.forall_mem_cons.1 lines).2
        rw [typeSegments, typeSegments, if_pos ht, if_pos hu]
        change Trimmed (typeSegments stop n.text ts).rest []
        rw [(typeSegments_stop stop n.text ((atLineEnd hlines).nextIs _)).2]
        exact .done hlines
      | n :: ts, m :: us, .cons _ _ tail =>
        rw [typeSegments, typeSegments, if_pos ht, if_pos hu]
        exact typeSegments_rest n.text m.text ts us tail
  · have hstop : nextIs ts ["."] = false := by simpa using hpoint
    rw [(typeSegments_stop stop name hstop).2,
      (typeSegments_stop stop' name' (hnext.trans hstop)).2]
    exact h
termination_by ts.length

theorem tracks_parseTypeName (h : Trimmed ts us) :
    Tracks Trimmed L.names (parseTypeName stop ts).plain (parseTypeName stop' us).plain := by
  match ts, us, h, h.seen hL with
  | ts, us, h, .line ends _ => exact .of_error (exists_plain_parseTypeName_error stop ends)
  | t :: ts, u :: us, h, .token agree tail _ =>
    rw [parseTypeName, parseTypeName, agree.isName]
    split
    · exact .ok (hL.names _ _) (typeSegments_rest hL stop stop' t.text u.text ts us tail)
    · exact .error _ _

/-- The tokens of a text and of its trimmed form are read in tandem. -/
def tandem : Tandem L stop stop' where
  start := Trimmed
  onward := Trimmed
  inType := Trimmed
  start_of_onward := id
  seen h := h.seen hL
  typeName := tracks_parseTypeName hL stop stop'

end Trimmed

/-- The trimmed form of an expression is accepted as one that corresponds to it. -/
theorem Expr.exists_parse_trim {L : Likeness} (hL : L.IgnoresEnds) {s : Text} {e : Expr}
    (h : Expr.parse s = .ok e) : ∃ e', Expr.parse (Text.trim s) = .ok e' ∧ L.same e e' := by
  rw [Expr.parse, Stream.expr_eq] at h
  obtain ⟨⟨e, rest⟩, hexpr, hrest⟩ := bind_eq_ok h
  obtain ⟨e', rest', hexpr', hsame, htrimmed⟩ :=
    (Trimmed.tandem hL (Stream.ofSource s).stop (Stream.ofSource (Text.trim s)).stop).tracks_parseExpr
      (trimmed_ofSource s) e rest hexpr
  cases hlines : skipNewlines rest with
  | cons t ts =>
    simp only [hlines] at hrest
    cases hrest
  | nil =>
    simp only [hlines, Except.ok.injEq] at hrest
    subst hrest
    have hlines' : skipNewlines rest' = [] :=
      skipNewlines_eq_nil_iff.2 (htrimmed.newlines (skipNewlines_eq_nil_iff.1 hlines))
    refine ⟨e', ?_, hsame⟩
    rw [Expr.parse, Stream.expr_eq, hexpr']
    simp only [bind, Except.bind, hlines']

end FormBasic
