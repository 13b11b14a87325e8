import FormBasic.Proofs.Grammar.Enclosed
import FormBasic.Proofs.Grammar.Modules
import Mathlib.Data.List.Forall2

/-!
# Handlers are parsed on their own

A module that is made of handlers is accepted if and only if the body of each handler is accepted by
itself, and it then stores under each name the body that is read by itself, apart from the lines of
the statements. Whatever a body leaves open, it does not reach into the handlers below it, unless it
breaks off.

## Main definitions

* `subText`, `moduleText` - the text of a handler, and of a module of handlers
* `Spelled` - the tokens of such a module

## Main statements

* `spelled_moduleText` - a module of handlers is scanned handler by handler
* `parseItems_spelled` - and parsed handler by handler
* `Program.parse_moduleText` - handlers are parsed on their own
-/

namespace FormBasic

open Token (Content)

/-- The text of a handler with a given name and body. -/
def subText (name body : Text) : Text := "Sub " ++ name ++ "()\n" ++ body ++ "\nEnd Sub\n"

/-- The text of a module of handlers, given by their names and bodies. -/
def moduleText : List (Text × Text) → Text
  | [] => ""
  | (name, body) :: subs => subText name body ++ moduleText subs

-- ════════════════════════════════════════════════════════════════════════════
-- Scanning
-- ════════════════════════════════════════════════════════════════════════════

/-- What the tokens of a handler's first line say. -/
def firstLine (name : Text) : List Content :=
  [.keyword "sub", .ofName name, .punctuation "(", .punctuation ")", .newline]

/-- What the tokens of a handler's last line say. -/
def lastLine : List Content := [.keyword "end", .keyword "sub", .newline]

/-- The tokens of a module of handlers: for each handler its first line, its body beside the tokens
of the body by itself, and its last line. -/
inductive Spelled : List (Text × Text) → List Token → Prop
  | nil : Spelled [] []
  | cons {name body : Text} {subs : List (Text × Text)} {first us last ts : List Token}
    (hfirst : first.map Token.content = firstLine name)
    (hbody : Lined (Stream.ofSource body).tokens us)
    (hlast : last.map Token.content = lastLine)
    (others : Spelled subs ts) : Spelled ((name, body) :: subs) (first ++ (us ++ (last ++ ts)))

/-- Whether the token is no comment. -/
def isKept (t : Token) : Bool := t.kind != .comment

theorem isKept_congr {t u : Token} (same : u.content = t.content) : isKept u = isKept t := by
  rw [isKept, isKept, Token.kind_congr same]

theorem isKept_of_newline {n : Token} (hn : n.content = .newline) : isKept n = true := by
  rw [isKept, Token.kind_of_content hn]
  rfl

/-- The tokens of a stream are those before the end marker, without comments. -/
theorem tokens_ofTokens {ts : List Token} {stop : Token} (h : ∀ t ∈ ts, t.kind ≠ .eof)
    (hstop : stop.kind = .eof) : (Stream.ofTokens (ts ++ [stop])).tokens = ts.filter isKept := by
  have hall : ∀ t ∈ ts.filter isKept, (t.kind != .eof) = true := by
    intro t ht
    simpa using h t (List.mem_of_mem_filter ht)
  have hmarker : isKept stop = true := by rw [isKept, hstop]; rfl
  change ((ts ++ [stop]).filter isKept).takeWhile (fun t => t.kind != .eof) = _
  rw [List.filter_append, List.takeWhile_append_of_pos hall]
  simp [hmarker, hstop]

/-- There are no comments and no end marker among the contents. -/
def ArePlain (ws : List Content) : Prop := ∀ w ∈ ws, w.kind ≠ .comment ∧ w.kind ≠ .eof

theorem arePlain_firstLine {name : Text} (h : isPlainName name = true) :
    ArePlain (firstLine name) := by
  rw [firstLine, ofName_of_isPlainName h]
  simp [ArePlain, Content.keyword, Content.punctuation, Content.newline]

theorem arePlain_lastLine : ArePlain lastLine := by
  simp [ArePlain, lastLine, Content.keyword, Content.newline]

theorem ArePlain.filter {ts : List Token} (h : ArePlain (ts.map Token.content)) :
    ts.filter isKept = ts := by
  rw [List.filter_eq_self]
  intro t ht
  have hk : t.kind ≠ .comment := (h t.content (List.mem_map_of_mem ht)).1
  simpa [isKept] using hk

theorem ArePlain.kind_ne_eof {ts : List Token} (h : ArePlain (ts.map Token.content)) :
    ∀ t ∈ ts, t.kind ≠ .eof :=
  fun t ht => (h t.content (List.mem_map_of_mem ht)).2

theorem toList_subText (name body : Text) :
    (subText name body).toList =
      ("Sub " ++ name ++ "()" : Text).toList ++
        CodePoint.char '\n' :: (body.toList ++
          CodePoint.char '\n' :: (("End Sub" : Text).toList ++ [CodePoint.char '\n'])) := by
  simp [subText, Text.toList_append]

/-- A handler is scanned line by line: its first line, its body, and its last line. -/
theorem scanFrom_subText {name : Text} (hname : isPlainName name = true) (body : Text) (line : Nat)
    (rest : List CodePoint) :
    ∃ first ts us last stop below,
      Token.scanFrom (line + 1) 1 ((subText name body).toList ++ rest) =
        first ++ (us ++ (last ++ Token.scanFrom (below + 1) 1 rest)) ∧
      first.map Token.content = firstLine name ∧
      Token.scan body = ts ++ [stop] ∧ stop.kind = .eof ∧ (∀ t ∈ ts, t.kind ≠ .eof) ∧ Lined ts us ∧
      last.map Token.content = lastLine := by
  have hsub : Scans (.char '\n' :: ("Sub " ++ name ++ "()" : Text).toList)
      [.newline, .keyword "sub", .ofName name, .punctuation "(", .punctuation ")"] LineEnd := by
    simpa [onLines] using scans_subLine (isIdentifier_of_isPlainName hname)
  have hend : Scans (.char '\n' :: ("End Sub" : Text).toList)
      [.newline, .keyword "end", .keyword "sub"] LineEnd := by
    simpa [onLines] using scans_endSub
  generalize hlast : ("End Sub" : Text).toList ++ CodePoint.char '\n' :: rest = below
  have htext : (subText name body).toList ++ rest =
      ("Sub " ++ name ++ "()" : Text).toList ++
        CodePoint.char '\n' :: (body.toList ++ CodePoint.char '\n' :: below) := by
    rw [toList_subText, ← hlast]
    simp
  obtain ⟨head, line₁, col₁, hhead, hcontents⟩ :=
    hsub.below (.inr ⟨body.toList ++ CodePoint.char '\n' :: below, rfl⟩) line
  obtain ⟨ts, us, stop, line₂, hts, hstop, hkinds, hus, hlined⟩ :=
    scanFrom_append below body.toList 1 1 (line₁ + 1) 1
  obtain ⟨ends, line₃, col₃, hends, hcontents'⟩ := hend.below (.inr ⟨rest, rfl⟩) line₂
  rw [hlast] at hends
  refine ⟨head ++ [⟨.newline, "\n", .ofNat line₁, col₁⟩], ts, us,
    ends ++ [⟨.newline, "\n", .ofNat line₃, col₃⟩], stop, line₃, ?_, ?_, hts, hstop, hkinds, hlined,
    ?_⟩
  · rw [htext, hhead, scanFrom_newline, hus, hends, scanFrom_newline]
    simp
  · rw [List.map_append, hcontents]
    rfl
  · rw [List.map_append, hcontents']
    rfl

/-- A module of handlers is scanned handler by handler. -/
theorem scanFrom_moduleText (subs : List (Text × Text))
    (hnames : ∀ s ∈ subs, isPlainName s.1 = true) (line : Nat) :
    ∃ ts stop, Token.scanFrom (line + 1) 1 (moduleText subs).toList = ts ++ [stop] ∧
      stop.kind = .eof ∧ (∀ t ∈ ts, t.kind ≠ .eof) ∧ Spelled subs (ts.filter isKept) := by
  induction subs generalizing line with
  | nil =>
    refine ⟨[], ⟨.eof, "", .ofNat (line + 1), 1⟩, ?_, rfl, fun _ h => absurd h List.not_mem_nil,
      .nil⟩
    rw [moduleText, show ("" : Text).toList = [] from rfl, Token.scanFrom, List.nil_append]
  | cons s subs ih =>
    obtain ⟨name, body⟩ := s
    have hname : isPlainName name = true := hnames (name, body) List.mem_cons_self
    obtain ⟨first, ts, us, last, stop, below, hscan, hfirst, hts, hstop, hkinds, hlined, hlast⟩ :=
      scanFrom_subText hname body line (moduleText subs).toList
    obtain ⟨vs, stop', hvs, hstop', hkinds', hspelled⟩ :=
      ih (fun s hs => hnames s (List.mem_cons_of_mem _ hs)) below
    have hbody : (Stream.ofSource body).tokens = ts.filter isKept := by
      rw [Stream.ofSource, hts, tokens_ofTokens hkinds hstop]
    have hus : Lined (Stream.ofSource body).tokens (us.filter isKept) := by
      rw [hbody]
      exact hlined.filter (fun _ _ => isKept_congr) fun _ => isKept_of_newline
    have hplain : ArePlain (first.map Token.content) := hfirst ▸ arePlain_firstLine hname
    have hplain' : ArePlain (last.map Token.content) := hlast ▸ arePlain_lastLine
    refine ⟨first ++ (us ++ (last ++ vs)), stop', ?_, hstop', ?_, ?_⟩
    · rw [moduleText, Text.toList_append, hscan, hvs]
      simp
    · intro t ht
      simp only [List.mem_append] at ht
      rcases ht with ht | ht | ht | ht
      · exact hplain.kind_ne_eof t ht
      · exact hlined.kind_ne_eof hkinds t ht
      · exact hplain'.kind_ne_eof t ht
      · exact hkinds' t ht
    · rw [List.filter_append, List.filter_append, List.filter_append, hplain.filter, hplain'.filter]
      exact .cons hfirst hus hlast hspelled

/-- The tokens of a module of handlers. -/
theorem spelled_moduleText {subs : List (Text × Text)}
    (hnames : ∀ s ∈ subs, isPlainName s.1 = true) :
    Spelled subs (Stream.ofSource (moduleText subs)).tokens := by
  obtain ⟨ts, stop, hts, hstop, hkinds, hspelled⟩ := scanFrom_moduleText subs hnames 0
  rw [Stream.ofSource, Token.scan, hts, tokens_ofTokens hkinds hstop]
  exact hspelled

-- ════════════════════════════════════════════════════════════════════════════
-- Parsing
-- ════════════════════════════════════════════════════════════════════════════

/-- The bodies that are parsed on their own: they do not hold the end of a handler, and they do not
break off. -/
def IsContained (body : Text) : Prop :=
  holdsHandlerEnd (Stream.ofSource body).tokens = false ∧
    breaksOff .lineStart (Stream.ofSource body).tokens = false

instance (body : Text) : Decidable (IsContained body) := inferInstanceAs (Decidable (_ ∧ _))

/-- A handler's name and the body that is read by itself, and what a module stores for it: the same
name and the same body, apart from lines. -/
def StoredAs (sub : Text × Text) (entry : Text × List Stmt) : Prop :=
  entry.1 = sub.1 ∧ ∃ body, parseBody sub.2 = .ok body ∧ MatchingBlocks body entry.2

section Parsing

variable (stop : Token)

/-- A handler after its first line: the block up to its end. -/
theorem parseItems_firstLine {name : Text} (hname : isPlainName name = true) {first : List Token}
    (hfirst : first.map Token.content = firstLine name) (p : Program) (ts : List Token) :
    parseItems stop p (first ++ ts) = (do
      let (body, rest) ← (parseBlock stop .handler ts).plain
      parseItems stop (p.addHandlers [name] body) (dropWhen (atHandlerEnd rest) 2 rest)) := by
  rw [firstLine, ofName_of_isPlainName hname] at hfirst
  obtain ⟨t, first, rfl, ht, hfirst⟩ := List.map_eq_cons_iff.1 hfirst
  obtain ⟨k, first, rfl, hk, hfirst⟩ := List.map_eq_cons_iff.1 hfirst
  obtain ⟨l, first, rfl, hl, hfirst⟩ := List.map_eq_cons_iff.1 hfirst
  obtain ⟨r, first, rfl, hr, hfirst⟩ := List.map_eq_cons_iff.1 hfirst
  obtain ⟨n, rfl, hn⟩ : ∃ n, first = [n] ∧ n.content = .newline := by simpa using hfirst
  have hparams : afterParameters (l :: r :: n :: ts) = n :: ts := by
    have hopen : nextIs (l :: r :: n :: ts) ["("] = true := by
      rw [nextIs_cons, isAnyOf_of_content hl]
      decide
    rw [afterParameters, hopen, if_pos rfl]
    simp only [skipParentheses, isSymbol_of_content hl, isSymbol_of_content hr]
    rfl
  have hheader : (parseHeader stop (n :: ts)).plain = .ok ([], n :: ts) := by
    rw [parseHeader.eq_def]
    simp only [endsStatement_of_content hn]
    rfl
  have hblock : (parseBlock stop .handler (n :: ts)).plain = (parseBlock stop .handler ts).plain :=
    plain_parseBlock_congr (skipNewlines_cons_newline hn ts)
  have hkind : t.kind ≠ .newline := by
    rw [Token.kind_of_content ht]
    exact Token.Kind.noConfusion
  have htokens : t :: k :: l :: r :: [n] ++ ts = t :: k :: l :: r :: n :: ts := rfl
  rw [htokens, parseItems_eq, skipNewlines_cons_other hkind]
  simp only [isAnyOf_of_content ht, isSymbol_of_content ht, atEndOf, nextIs_cons]
  rw [if_neg (by decide), if_neg (by decide), if_neg (by
    simp [show (Content.keyword "sub").token.isAnyOf ["end"] = false by decide]),
    if_pos (by decide), plain_parseSub_cons, if_pos (Token.kind_of_content hk), hparams, hheader]
  simp only [bind, Except.bind, hblock, Token.text_of_content hk]
  cases (parseBlock stop .handler ts).plain <;> rfl

/-- A body by itself is what its block parser reads. -/
theorem parseBody_eq (body : Text) :
    parseBody body = (do
      let (ss, _) ← (parseBlock (Stream.ofSource body).stop .handler
        (Stream.ofSource body).tokens).plain
      return ss) := by
  rw [parseBody, Stream.body]
  cases parseBlock (Stream.ofSource body).stop .handler (Stream.ofSource body).tokens <;> rfl

/-- A handler inside a module: it is rejected if its body is, and else stored, and what stands below
it is parsed as if it stood alone. -/
theorem parseItems_sub_of_isContained {name body : Text} (hname : isPlainName name = true)
    (hbody : IsContained body) {first us last : List Token}
    (hfirst : first.map Token.content = firstLine name)
    (hlined : Lined (Stream.ofSource body).tokens us)
    (hlast : last.map Token.content = lastLine) (p : Program) (ts : List Token) :
    (∃ e e', parseBody body = .error e ∧
      parseItems stop p (first ++ (us ++ (last ++ ts))) = .error e') ∨
    ∃ entry, StoredAs (name, body) entry ∧
      parseItems stop p (first ++ (us ++ (last ++ ts))) =
        parseItems stop (p.addHandlers [name] entry.2) ts := by
  obtain ⟨d, last, rfl, hd, hlast⟩ := List.map_eq_cons_iff.1 hlast
  obtain ⟨w, last, rfl, hw, hlast⟩ := List.map_eq_cons_iff.1 hlast
  obtain ⟨n, rfl, hn⟩ : ∃ n, last = [n] ∧ n.content = .newline := by simpa using hlast
  have hends : atHandlerEnd (d :: w :: n :: ts) = true := by
    simp only [atHandlerEnd, atEndOf, List.drop_succ_cons, List.drop_zero, nextIs_cons,
      isAnyOf_of_content hd, isAnyOf_of_content hw]
    decide
  have hbeside := hlined.beside hbody.1 hbody.2 (d :: w :: n :: ts)
  have halike := alike_parseBlock (Stream.ofSource body).stop stop hends .handler _ _
    (.beside hbeside)
  have hparse := parseBody_eq body
  rw [parseItems_firstLine stop hname hfirst]
  have htokens : us ++ (d :: w :: [n] ++ ts) = us ++ d :: w :: n :: ts := rfl
  rw [htokens]
  generalize (parseBlock (Stream.ofSource body).stop .handler
    (Stream.ofSource body).tokens).plain = alone at halike hparse
  generalize (parseBlock stop .handler (us ++ d :: w :: n :: ts)).plain = inside at halike ⊢
  cases halike with
  | error e e' => exact .inl ⟨e, e', hparse, rfl⟩
  | @ok body' body'' _ _ value rest =>
    cases rest with
    | ended =>
      refine .inr ⟨(name, body''), ⟨rfl, body', hparse, value⟩, ?_⟩
      simp only [bind, Except.bind, hends, dropWhen, if_true]
      exact parseItems_congr stop _ (skipNewlines_cons_newline hn ts)
    | word _ hcloses => cases hcloses

/-- A module of handlers is parsed handler by handler: it is rejected if one of the bodies is, and
else all of them are stored. -/
theorem parseItems_spelled {subs : List (Text × Text)} {ts : List Token} (h : Spelled subs ts)
    (hnames : ∀ s ∈ subs, isPlainName s.1 = true) (hbodies : ∀ s ∈ subs, IsContained s.2)
    (p : Program) :
    ((∃ s ∈ subs, ∃ e, parseBody s.2 = .error e) ∧ ∃ e, parseItems stop p ts = .error e) ∨
    ∃ entries, List.Forall₂ StoredAs subs entries ∧
      parseItems stop p ts = .ok { p with handlers := p.handlers.setAll entries } := by
  induction h generalizing p with
  | nil =>
    refine .inr ⟨[], .nil, ?_⟩
    rw [parseItems_eq]
    rfl
  | @cons name body subs first us last ts hfirst hlined hlast others ih =>
    have ih := ih (fun s hs => hnames s (List.mem_cons_of_mem _ hs))
      fun s hs => hbodies s (List.mem_cons_of_mem _ hs)
    have hname : isPlainName name = true := hnames (name, body) List.mem_cons_self
    have hbody : IsContained body := hbodies (name, body) List.mem_cons_self
    obtain ⟨e, e', hfail, hitems⟩ | ⟨entry, hstored, hitems⟩ :=
      parseItems_sub_of_isContained stop hname hbody hfirst hlined hlast p ts
    · exact .inl ⟨⟨_, List.mem_cons_self, e, hfail⟩, e', hitems⟩
    · obtain ⟨⟨s, hs, hfail⟩, hrest⟩ | ⟨entries, hentries, hrest⟩ :=
        ih (p.addHandlers [name] entry.2)
      · exact .inl ⟨⟨s, List.mem_cons_of_mem _ hs, hfail⟩, hitems ▸ hrest⟩
      · refine .inr ⟨entry :: entries, .cons hstored hentries, ?_⟩
        obtain ⟨key, body'⟩ := entry
        obtain rfl : key = name := hstored.1
        rw [hitems, hrest]
        rfl

end Parsing

theorem map_fst_of_storedAs {subs : List (Text × Text)} {entries : List (Text × List Stmt)}
    (h : List.Forall₂ StoredAs subs entries) : entries.map Prod.fst = subs.map Prod.fst := by
  induction h with
  | nil => rfl
  | cons hstored _ ih => rw [List.map_cons, List.map_cons, hstored.1, ih]

theorem exists_parseBody_of_storedAs {subs : List (Text × Text)} {entries : List (Text × List Stmt)}
    (h : List.Forall₂ StoredAs subs entries) :
    ∀ s ∈ subs, ∃ body, parseBody s.2 = .ok body := by
  induction h with
  | nil => exact fun _ hs => absurd hs List.not_mem_nil
  | cons hstored _ ih =>
    obtain ⟨-, body, hbody, -⟩ := hstored
    intro s hs
    rcases List.mem_cons.1 hs with rfl | hs
    · exact ⟨body, hbody⟩
    · exact ih s hs

/-- Handlers are parsed on their own. A module made of handlers with different names whose bodies do
not hold the end of a handler and do not break off is accepted if and only if each body is accepted
by itself. It then has no statements outside handlers, and it stores under each name, in order, the
body that is read by itself, apart from the lines of its statements. -/
theorem Program.parse_moduleText {subs : List (Text × Text)}
    (hnames : ∀ s ∈ subs, isPlainName s.1 = true) (hdistinct : (subs.map Prod.fst).Nodup)
    (hbodies : ∀ s ∈ subs, IsContained s.2) :
    ((∃ p, Program.parse (moduleText subs) = .ok p) ↔
      ∀ s ∈ subs, ∃ body, parseBody s.2 = .ok body) ∧
    ∀ p, Program.parse (moduleText subs) = .ok p →
      p.declarations = [] ∧ List.Forall₂ StoredAs subs p.handlers.entries := by
  have hparse := parseItems_spelled (Stream.ofSource (moduleText subs)).stop
    (spelled_moduleText hnames) hnames hbodies {}
  rw [Program.parse, Stream.program]
  obtain ⟨⟨s, hs, e, hfail⟩, e', hitems⟩ | ⟨entries, hentries, hitems⟩ := hparse
  · rw [hitems]
    have hrejected : ∀ p, (Except.error e' : Except ParseFailure Program) ≠ .ok p := by
      intro p hp
      cases hp
    refine ⟨⟨?_, fun hall => ?_⟩, fun p hp => absurd hp (hrejected p)⟩
    · rintro ⟨p, hp⟩
      exact absurd hp (hrejected p)
    · obtain ⟨body, hbody⟩ := hall s hs
      rw [hfail] at hbody
      cases hbody
  · have hkeys : (entries.map Prod.fst).Nodup := by rwa [map_fst_of_storedAs hentries]
    have hstored : (Table.empty.setAll entries).entries = entries :=
      Table.entries_setAll _ entries hkeys
    rw [hitems]
    refine ⟨⟨fun _ => exists_parseBody_of_storedAs hentries, fun _ => ⟨_, rfl⟩⟩, ?_⟩
    intro q hq
    cases hq
    exact ⟨rfl, hstored.symm ▸ hentries⟩

/-- Handlers that leave blocks open: a conditional with an empty last branch, and a loop that holds
a stray word. -/
def sampleSubs : List (Text × Text) := [("A", "If x Then\nElse"), ("B", "Do\nEnd")]

theorem Program.parse_moduleText_sample :
    (∀ s ∈ sampleSubs, isPlainName s.1 = true) ∧ (sampleSubs.map Prod.fst).Nodup ∧
      (∀ s ∈ sampleSubs, IsContained s.2) ∧
      ∃ p, Program.parse (moduleText sampleSubs) = .ok p ∧ p.declarations = [] ∧
        List.Forall₂ StoredAs sampleSubs p.handlers.entries := by
  have hnames : ∀ s ∈ sampleSubs, isPlainName s.1 = true := by decide +kernel
  have hdistinct : (sampleSubs.map Prod.fst).Nodup := by decide +kernel
  have hbodies : ∀ s ∈ sampleSubs, IsContained s.2 := by decide +kernel
  obtain ⟨haccepted, hstored⟩ := Program.parse_moduleText hnames hdistinct hbodies
  have hcond : Token.scan "If x Then\nElse" =
      [⟨.keyword, "if", .ofNat 1, 1⟩, ⟨.identifier, "x", .ofNat 1, 4⟩,
        ⟨.keyword, "then", .ofNat 1, 6⟩, ⟨.newline, "\n", .ofNat 1, 10⟩,
        ⟨.keyword, "else", .ofNat 2, 1⟩, ⟨.eof, "", .ofNat 2, 5⟩] := by
    decide +kernel
  have hloop : Token.scan "Do\nEnd" =
      [⟨.keyword, "do", .ofNat 1, 1⟩, ⟨.newline, "\n", .ofNat 1, 3⟩,
        ⟨.keyword, "end", .ofNat 2, 1⟩, ⟨.eof, "", .ofNat 2, 4⟩] := by
    decide +kernel
  obtain ⟨p, hp⟩ := haccepted.2 fun s hs => by
    obtain rfl | rfl := List.mem_pair.1 hs
    · refine ⟨[.cond (.ident "x") [] [] [] (.ofNat 1)], ?_⟩
      rw [parseBody, Stream.ofSource, hcond]
      cbv
    · refine ⟨[.doLoop [] none true true (.ofNat 1)], ?_⟩
      rw [parseBody, Stream.ofSource, hloop]
      cbv
  exact ⟨hnames, hdistinct, hbodies, p, hp, hstored p hp⟩

/-- A body that is not contained breaks off after its last `Else`: the handlers below it are lost, and
the module is rejected, although each body is accepted by itself. -/
example : (parseBody "If x Then f Else").toBool = true ∧ (parseBody "").toBool = true ∧
    (Program.parse (moduleText [("A", "If x Then f Else"), ("B", "")])).toBool = false := by
  have hfirst : Token.scan "If x Then f Else" =
      [⟨.keyword, "if", .ofNat 1, 1⟩, ⟨.identifier, "x", .ofNat 1, 4⟩,
        ⟨.keyword, "then", .ofNat 1, 6⟩, ⟨.identifier, "f", .ofNat 1, 11⟩,
        ⟨.keyword, "else", .ofNat 1, 13⟩, ⟨.eof, "", .ofNat 1, 17⟩] := by
    decide +kernel
  have hboth : Token.scan (moduleText [("A", "If x Then f Else"), ("B", "")]) =
      [⟨.keyword, "sub", .ofNat 1, 1⟩, ⟨.identifier, "A", .ofNat 1, 5⟩,
        ⟨.punctuation, "(", .ofNat 1, 6⟩, ⟨.punctuation, ")", .ofNat 1, 7⟩,
        ⟨.newline, "\n", .ofNat 1, 8⟩, ⟨.keyword, "if", .ofNat 2, 1⟩,
        ⟨.identifier, "x", .ofNat 2, 4⟩, ⟨.keyword, "then", .ofNat 2, 6⟩,
        ⟨.identifier, "f", .ofNat 2, 11⟩, ⟨.keyword, "else", .ofNat 2, 13⟩,
        ⟨.newline, "\n", .ofNat 2, 17⟩, ⟨.keyword, "end", .ofNat 3, 1⟩,
        ⟨.keyword, "sub", .ofNat 3, 5⟩, ⟨.newline, "\n", .ofNat 3, 8⟩,
        ⟨.keyword, "sub", .ofNat 4, 1⟩, ⟨.identifier, "B", .ofNat 4, 5⟩,
        ⟨.punctuation, "(", .ofNat 4, 6⟩, ⟨.punctuation, ")", .ofNat 4, 7⟩,
        ⟨.newline, "\n", .ofNat 4, 8⟩, ⟨.newline, "\n", .ofNat 5, 1⟩,
        ⟨.keyword, "end", .ofNat 6, 1⟩, ⟨.keyword, "sub", .ofNat 6, 5⟩,
        ⟨.newline, "\n", .ofNat 6, 8⟩, ⟨.eof, "", .ofNat 7, 1⟩] := by
    decide +kernel
  refine ⟨?_, by cbv, ?_⟩
  · rw [parseBody, Stream.ofSource, hfirst]
    cbv
  · rw [Program.parse, Stream.ofSource, hboth]
    cbv

end FormBasic
