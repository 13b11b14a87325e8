import FormBasic.Proofs.Grammar.Accepted
import FormBasic.Proofs.Grammar.RoundTrip
import FormBasic.Proofs.Table
import Mathlib

/-!
# Modules are read back from their text

A module that the parser accepts is written as text, and the text is accepted again and gives the
same module, provided that the module is clear: its names, exit words and numbers are written with
texts that read back, its handlers are stored under names, and no statement outside handlers starts
with a word that makes the parser pass over the line. Everything else that writing relies on is
promised by the parser.

## Main definitions

* `Program.wellMade` - modules that consist of what the language has
* `Stmt.startsIgnored` - statements whose line would be passed over
* `Program.isClear` - modules written with texts that read back

## Main statements

* `Program.wellMade_parse` - an accepted module consists of what the language has
* `Program.parse_write_of_parse` - an accepted clear module is read back
-/

namespace FormBasic

open Token (Content)

section Plain

variable (stop : Token)

theorem plain_parseSub_cons (word name : Token) (ts : List Token) :
    (parseSub stop word (name :: ts)).plain =
      if name.kind = .identifier then do
        let (keys, rest) ← (parseHeader stop (afterParameters ts)).plain
        let (body, rest) ← (parseBlock stop .handler rest).plain
        return ((name.text :: keys, body), dropWhen (atHandlerEnd rest) 2 rest)
      else failAt name (.nameAfter word.text) := by
  rw [parseSub]
  split
  · refine Answer.plain_bind ?_
    rintro ⟨keys, rest, h⟩
    exact Answer.plain_bind fun _ => rfl
  · rfl

theorem bind_plain {α β : Type} {bound : Nat} (a : Answer α bound)
    (f : α → List Token → Except ParseFailure β) :
    (a >>= fun p => f p.value p.rest) = a.plain >>= fun p => f p.1 p.2 := by
  cases a <;> rfl

theorem parseItems_eq (p : Program) (ts : List Token) :
    parseItems stop p ts =
      match skipNewlines ts with
      | [] => .ok p
      | t :: rest =>
        if t.isAnyOf ["private", "public"] then parseItems stop p rest
        else if t.isSymbol "class" then
          parseItems stop p (dropWhen (!atStatementEnd rest) 1 rest)
        else if atEndOf (t :: rest) ["class", "sub", "function"] then
          parseItems stop p (rest.drop 1)
        else if t.isAnyOf ["sub", "function"] then do
          let ((keys, body), rest) ← (parseSub stop t rest).plain
          parseItems stop (p.addHandlers keys body) rest
        else if startsIgnoredLine t then
          parseItems stop p (rest.dropWhile fun t => !t.endsStatement)
        else (do
          let (stmt, rest) ← (parseStatement stop t rest).plain
          parseItems stop { p with declarations := p.declarations ++ stmt.toList } rest) := by
  rw [parseItems]
  split
  · next hts _ => rw [hts]
  · next t rest h hts _ =>
    simp only [hts]
    iterate 3 (split; · rfl)
    split
    · exact bind_plain _ fun (made : List Text × List Stmt) rest =>
        parseItems stop (p.addHandlers made.1 made.2) rest
    split
    · rfl
    · exact bind_plain _ fun (stmt : Option Stmt) rest =>
        parseItems stop { p with declarations := p.declarations ++ stmt.toList } rest

end Plain

/-- Tables whose names are all different and whose blocks consist of what the language has. -/
def WellMadeHandlers (handlers : Table (List Stmt)) : Prop :=
  handlers.keys.Nodup ∧ ∀ e ∈ handlers.entries, wellMadeBlock e.2 = true

/-- Modules that consist of what the language has. -/
def Program.WellMade (p : Program) : Prop :=
  wellMadeBlock p.declarations = true ∧ WellMadeHandlers p.handlers

theorem WellMadeHandlers.set {handlers : Table (List Stmt)} (h : WellMadeHandlers handlers)
    (name : Text) {body : List Stmt} (hb : wellMadeBlock body = true) :
    WellMadeHandlers (handlers.set name body) := by
  refine ⟨?_, ?_⟩
  · rw [Table.keys, Table.set, Table.keys_write]
    split
    · exact h.1
    · next hmem =>
      rw [List.nodup_append]
      refine ⟨h.1, by simp, ?_⟩
      intro a ha b hb
      rw [List.mem_singleton] at hb
      rintro rfl
      exact hmem (hb ▸ ha)
  · intro e he
    rcases Table.mem_write he with he | he
    · exact he ▸ hb
    · exact h.2 e he

theorem WellMadeHandlers.addHandlers {p : Program} (h : WellMadeHandlers p.handlers)
    (keys : List Text) {body : List Stmt} (hb : wellMadeBlock body = true) :
    WellMadeHandlers (p.addHandlers keys body).handlers := by
  unfold Program.addHandlers
  simp only
  generalize p.handlers = table at h
  induction keys generalizing table with
  | nil => exact h
  | cons key keys ih => exact ih _ (h.set key hb)

theorem Sound.skipParentheses {ts : List Token} (h : Sound ts) (depth : Nat) :
    Sound (skipParentheses depth ts) := by
  induction ts generalizing depth with
  | nil => exact h
  | cons t ts ih =>
    rw [FormBasic.skipParentheses]
    split
    · exact ih h.tail _
    split
    · split
      · exact h.tail
      · exact ih h.tail _
    · exact ih h.tail _

theorem Sound.afterParameters {ts : List Token} (h : Sound ts) : Sound (afterParameters ts) := by
  unfold FormBasic.afterParameters
  split
  · exact h.skipParentheses 0
  · exact h

theorem sound_parseHandles (stop : Token) (ts : List Token) (hs : Sound ts) {keys : List Text}
    {rest : List Token} (h : (parseHandles stop ts).plain = .ok (keys, rest)) : Sound rest := by
  match ts with
  | [] =>
    rw [parseHandles.eq_def] at h
    cases h
    exact hs
  | [owner] =>
    rw [parseHandles.eq_def] at h
    simp only at h
    split at h
    · cases h
      exact hs
    · cases h
  | owner :: point :: ts =>
    rw [parseHandles.eq_def] at h
    simp only at h
    split at h
    · cases h
      exact hs
    split at h
    · cases h
    split at h
    · rw [Answer.plain_bind (g := fun p => .ok (_ :: p.1, p.2)) fun _ => rfl] at h
      obtain ⟨⟨others, r⟩, hothers, h⟩ := bind_eq_ok h
      have hr := sound_parseHandles stop (ts.drop 2) (hs.tail.tail.drop 2) hothers
      cases h
      exact hr
    · cases h
      exact hs.tail.tail.drop 1
termination_by ts.length
decreasing_by simp only [List.length_cons, List.length_drop]; omega

theorem sound_parseHeader (stop : Token) (ts : List Token) (hs : Sound ts) {keys : List Text}
    {rest : List Token} (h : (parseHeader stop ts).plain = .ok (keys, rest)) : Sound rest := by
  match ts with
  | [] =>
    rw [parseHeader.eq_def] at h
    cases h
    exact hs
  | t :: ts =>
    rw [parseHeader.eq_def] at h
    simp only at h
    split at h
    · cases h
      exact hs
    split at h
    · rw [Answer.plain_bind (g := fun p => do
          let (others, r) ← (parseHeader stop p.2).plain
          return (p.1 ++ others, r)) fun _ => Answer.plain_bind fun _ => rfl] at h
      obtain ⟨⟨first, r⟩, hfirst, h⟩ := bind_eq_ok h
      have hr := sound_parseHandles stop ts hs.tail hfirst
      have hlt := Answer.fewer_of_plain hfirst
      obtain ⟨⟨others, r'⟩, hothers, h⟩ := bind_eq_ok h
      have hr' := sound_parseHeader stop r hr hothers
      cases h
      exact hr'
    · rw [Answer.plain_last fun _ => rfl] at h
      exact sound_parseHeader stop ts hs.tail h
termination_by ts.length

theorem wellMade_parseSub {stop word : Token} {ts : List Token} (hs : Sound ts)
    {made : List Text × List Stmt} {rest : List Token}
    (h : (parseSub stop word ts).plain = .ok (made, rest)) :
    wellMadeBlock made.2 = true ∧ Sound rest := by
  cases ts with
  | nil => cases h
  | cons name ts =>
    rw [plain_parseSub_cons] at h
    split at h
    · obtain ⟨⟨keys, r⟩, hkeys, h⟩ := bind_eq_ok h
      have hr := sound_parseHeader stop _ hs.tail.afterParameters hkeys
      obtain ⟨⟨body, r'⟩, hbody, h⟩ := bind_eq_ok h
      obtain ⟨hb, hr'⟩ := wellMade_parseBlock stop .handler r hr hbody
      cases h
      exact ⟨hb, hr'.dropWhen _ _⟩
    · cases h

theorem wellMade_parseItems (stop : Token) (p : Program) (hp : p.WellMade) (ts : List Token)
    (hs : Sound ts) {q : Program} (h : parseItems stop p ts = .ok q) : q.WellMade := by
  rw [parseItems_eq] at h
  have hskip := hs.skipNewlines
  have hle := length_skipNewlines_le ts
  match skipNewlines ts, hskip, hle, h with
  | [], _, _, h =>
    cases h
    exact hp
  | t :: us, hskip, hle, h =>
    have hdrop := length_dropWhen_le (!atStatementEnd us) 1 us
    have hwhile := length_dropWhile_le (fun t : Token => !t.endsStatement) us
    simp only at h
    split at h
    · exact wellMade_parseItems stop p hp us hskip.tail h
    split at h
    · exact wellMade_parseItems stop p hp _ (hskip.tail.dropWhen _ _) h
    split at h
    · exact wellMade_parseItems stop p hp _ (hskip.tail.drop 1) h
    split at h
    · obtain ⟨⟨⟨keys, body⟩, r⟩, hsub, h⟩ := bind_eq_ok h
      obtain ⟨hb, hr⟩ := wellMade_parseSub hskip.tail hsub
      have hlt := Answer.fewer_of_plain hsub
      exact wellMade_parseItems stop (p.addHandlers keys body)
        ⟨hp.1, hp.2.addHandlers keys hb⟩ r hr h
    split at h
    · refine wellMade_parseItems stop p hp _ ?_ h
      exact fun u hu => hskip.tail u ((List.dropWhile_suffix _).subset hu)
    · obtain ⟨⟨stmt, r⟩, hstmt, h⟩ := bind_eq_ok h
      obtain ⟨hm, hr⟩ := wellMade_parseStatement stop t us hskip.head hskip.tail hstmt
      have hlt := Answer.fewer_of_plain hstmt
      exact wellMade_parseItems stop { p with declarations := p.declarations ++ stmt.toList }
        ⟨wellMadeBlock_append hp.1 hm, hp.2⟩ r hr h
termination_by ts.length
decreasing_by
  all_goals
    simp only [List.length_cons, List.length_drop] at hle ⊢
    omega

/-- The tokens of a source text are sound. -/
theorem sound_ofSource (source : Text) : Sound (Stream.ofSource source).tokens := by
  intro t ht
  have hmem := (List.takeWhile_prefix _).subset ht
  exact isSound_of_mem_scan (List.mem_filter.1 hmem).1

/-- A module that the parser accepts consists of what the language has. -/
theorem Program.wellMade_parse {source : Text} {p : Program} (h : Program.parse source = .ok p) :
    p.WellMade := by
  refine wellMade_parseItems _ {} ⟨rfl, ?_⟩ _ (sound_ofSource source) h
  exact ⟨List.nodup_nil, fun _ h => absurd h List.not_mem_nil⟩

/-- Whether the written statement starts with a word that makes the parser pass over its line. -/
def Stmt.startsIgnored (s : Stmt) : Bool :=
  s.contents.head?.any fun c => startsIgnoredLine c.token

/-- Whether a block is written with texts that read back. -/
def clearBlock : List Stmt → Bool := everyStmt Expr.isClear Stmt.isClear

/-- Whether a module is written with texts that read back. -/
def Program.isClear (p : Program) : Bool :=
  clearBlock p.declarations && p.declarations.all (fun s => !s.startsIgnored) &&
    p.handlers.entries.all fun e => isPlainName e.1 && clearBlock e.2

theorem legibleBlock_of_clear {body : List Stmt} (hm : wellMadeBlock body = true)
    (hc : clearBlock body = true) : legibleBlock body = true := by
  refine everyStmt_of_everyStmt ?_ ?_ body hm hc
  · intro e he he'
    rw [he, he']
    rfl
  · intro s hs hs'
    rw [hs, hs']
    rfl

/-- What the tokens of a written handler say. -/
def subContents (key : Text) (body : List Stmt) : List Content :=
  .newline :: .keyword "sub" :: .ofName key :: .punctuation "(" :: .punctuation ")" ::
    (blockContents body ++ [.newline, .keyword "end", .keyword "sub"])

/-- What the tokens of written handlers say; an empty line separates a handler from what comes
before. -/
def handlerContents : (first : Bool) → List (Text × List Stmt) → List Content
  | _, [] => []
  | first, (key, body) :: rest =>
    (if first then [] else [.newline]) ++ (subContents key body ++ handlerContents false rest)

theorem scans_subLine {key : Text} (h : key.isIdentifier = true) :
    Scans (onLines ["Sub " ++ key ++ "()"])
      [.newline, .keyword "sub", .ofName key, .punctuation "(", .punctuation ")"] LineEnd := by
  have hsub : Scans ("Sub " : Text).toList [.keyword "sub"] Anything :=
    scans_opening (s := "Sub") rfl (by decide) (by decide)
  have hopen : Scans [.char '('] [.punctuation "("] Anything :=
    scans_punctuation (by decide) (by decide)
  have hclose : Scans [.char ')'] [.punctuation ")"] Anything :=
    scans_punctuation (by decide) (by decide)
  have hparens : Scans ("()" : Text).toList [.punctuation "(", .punctuation ")"] LineEnd :=
    (hopen.before hclose).mono fun _ _ => trivial
  have hname := (scans_identifier h).append hparens fun _ _ =>
    detached_cons (c := '(') (by decide) (by decide) _
  have := scans_newline.before (hsub.before hname)
  simpa [onLines] using this

theorem scans_endSub :
    Scans (onLines ["End Sub"]) [.newline, .keyword "end", .keyword "sub"] LineEnd := by
  have hend : Scans ("End " : Text).toList [.keyword "end"] Anything :=
    scans_opening (s := "End") rfl (by decide) (by decide)
  have hsub : Scans ("Sub" : Text).toList [.keyword "sub"] Detached :=
    scans_keyword (by decide) (by decide)
  have := scans_newline.before (hend.before hsub)
  exact this.mono fun _ hrest => hrest.detached

theorem scans_separation (before : List Text) :
    Scans (onLines (separation before)) (if before.isEmpty then [] else [.newline]) LineEnd := by
  unfold separation
  split
  · exact Scans.nil _
  · exact scans_newline.mono fun _ _ => trivial

/-- Handlers are written after what comes before them. -/
theorem spells_handlerLines : ∀ (es : List (Text × List Stmt)) (before : List Text),
    (∀ e ∈ es, isPlainName e.1 = true ∧ legibleBlock e.2 = true) →
    ∃ lines, handlerLines before es = .ok (before ++ lines) ∧
      Scans (onLines lines) (handlerContents before.isEmpty es) LineEnd
  | [], before, _ => ⟨[], by rw [handlerLines, List.append_nil], Scans.nil _⟩
  | (key, body) :: es, before, h => by
    obtain ⟨hkey, hbody⟩ := h _ List.mem_cons_self
    obtain ⟨ls, hls, hscan⟩ := spells_blockLines body 1 hbody
    have hnext : (before ++ separation before ++ handlerBlock key ls).isEmpty = false := by
      simp [handlerBlock]
    obtain ⟨ms, hms, hscan'⟩ := spells_handlerLines es
      (before ++ separation before ++ handlerBlock key ls)
      fun e he => h e (List.mem_cons_of_mem _ he)
    rw [hnext] at hscan'
    have hblock : Scans (onLines (handlerBlock key ls)) (subContents key body) LineEnd := by
      have := (scans_subLine (isIdentifier_of_isPlainName hkey)).lines (hscan.lines scans_endSub)
      simpa [handlerBlock, subContents] using this
    refine ⟨separation before ++ (handlerBlock key ls ++ ms), ?_, ?_⟩
    · simp only [handlerLines, hls, bind, Except.bind, hms]
      simp only [List.append_assoc]
    · exact (scans_separation before).lines (hblock.lines hscan')

/-- Whether handlers have the same names, in order, and the same bodies. -/
def SameHandlers (es es' : List (Text × List Stmt)) : Prop :=
  es'.map Prod.fst = es.map Prod.fst ∧
    ∀ e ∈ es, ∃ e' ∈ es', e'.1 = e.1 ∧ sameBlock e.2 e'.2 = true

theorem SameHandlers.cons {es es' : List (Text × List Stmt)} (h : SameHandlers es es')
    (key : Text) {body body' : List Stmt} (hsame : sameBlock body body' = true) :
    SameHandlers ((key, body) :: es) ((key, body') :: es') := by
  refine ⟨congrArg (key :: ·) h.1, fun e he => ?_⟩
  rcases List.mem_cons.1 he with rfl | he
  · exact ⟨_, List.mem_cons_self, rfl, hsame⟩
  · obtain ⟨e', he', hkey⟩ := h.2 e he
    exact ⟨e', List.mem_cons_of_mem _ he', hkey⟩

section Reading

variable (stop : Token)

/-- Leading line ends make no difference to a module. -/
theorem parseItems_congr (p : Program) {ts us : List Token}
    (h : skipNewlines ts = skipNewlines us) : parseItems stop p ts = parseItems stop p us := by
  rw [parseItems_eq, parseItems_eq, h]

/-- A statement outside handlers that is not passed over. -/
theorem parseItems_statement {p : Program} {t : Token} {us rest : List Token} {s : Stmt}
    (hkind : t.kind ≠ .newline) (hword : t.isAnyOf foreignWords = false)
    (hignored : startsIgnoredLine t = false)
    (h : (parseStatement stop t us).plain = .ok (some s, rest)) :
    parseItems stop p (t :: us) =
      parseItems stop { p with declarations := p.declarations ++ [s] } rest := by
  have hnext : nextIs [t] foreignWords = false := hword
  have hsub : ∀ texts : List Text, texts ⊆ foreignWords → t.isAnyOf texts = false :=
    fun texts hsub => nextIs_subset hsub hnext
  have hclass : t.isSymbol "class" = false := isSymbol_of_nextIs hnext (by decide)
  have hend : atEndOf (t :: us) ["class", "sub", "function"] = false := by
    rw [atEndOf, nextIs_cons, hsub ["end"] (by decide), Bool.false_and]
  rw [parseItems_eq, skipNewlines_cons_other hkind]
  simp only [hsub ["private", "public"] (by decide), hclass, hend,
    hsub ["sub", "function"] (by decide), hignored, Bool.false_eq_true, if_false, h]
  rfl

/-- Statements outside handlers are added to the module. -/
theorem reads_declarations : ∀ (ss : List Stmt), legibleBlock ss = true →
    ss.all (fun s => !s.startsIgnored) = true → ∀ ts : List Token,
    ts.map Token.content = blockContents ss → ∃ ss', sameBlock ss ss' = true ∧
      ∀ (p : Program) (rest : List Token), OnNewline rest →
        parseItems stop p (ts ++ rest) =
          parseItems stop { p with declarations := p.declarations ++ ss' } rest
  | [], _, _, ts, hts => by
    obtain rfl : ts = [] := by simpa [blockContents] using hts
    exact ⟨[], rfl, fun p rest _ => by simp⟩
  | s :: ss, h, hi, ts, hts => by
    simp only [legibleBlock, everyStmt, Bool.and_eq_true] at h
    simp only [List.all_cons, Bool.and_eq_true, Bool.not_eq_true'] at hi
    rw [blockContents] at hts
    obtain ⟨n, ts, rfl, hn, hts⟩ := List.map_eq_cons_iff.1 hts
    obtain ⟨us, vs, rfl, hus, hvs⟩ := List.map_eq_append_iff.1 hts
    obtain ⟨t, us, s', rfl, hkind, hword, hsame, hparse⟩ := s.reads stop h.1 us hus
    obtain ⟨ss', hsame', hparse'⟩ := reads_declarations ss h.2 hi.2 vs hvs
    refine ⟨s' :: ss', by simp [sameBlock, hsame, hsame'], fun p rest hrest => ?_⟩
    have hignored : startsIgnoredLine t = false := by
      have := hi.1
      rw [Stmt.startsIgnored, ← hus] at this
      exact this
    have hline : OnNewline (vs ++ rest) := OnNewline.append hvs (blockContents_cases ss) hrest
    have hfirst : (parseStatement stop t (us ++ (vs ++ rest))).plain = .ok (some s', vs ++ rest) :=
      hparse _ hline
    rw [List.cons_append, List.cons_append, List.cons_append, List.append_assoc,
      parseItems_congr stop p (skipNewlines_cons_newline hn _),
      parseItems_statement stop hkind hword hignored hfirst, hparse' _ rest hrest]
    simp

/-- A handler is stored under its name. -/
theorem parseItems_sub {key : Text} {body : List Stmt} (hkey : isPlainName key = true)
    (hbody : legibleBlock body = true) {ts : List Token}
    (hts : ts.map Token.content = subContents key body) :
    ∃ body', sameBlock body body' = true ∧ ∀ (p : Program) (rest : List Token),
      parseItems stop p (ts ++ rest) =
        parseItems stop { p with handlers := p.handlers.set key body' } rest := by
  obtain ⟨n, ts, rfl, hn, hts⟩ := List.map_eq_cons_iff.1 hts
  obtain ⟨t, ts, rfl, ht, hts⟩ := List.map_eq_cons_iff.1 hts
  obtain ⟨k, ts, rfl, hk, hts⟩ := List.map_eq_cons_iff.1 hts
  obtain ⟨l, ts, rfl, hl, hts⟩ := List.map_eq_cons_iff.1 hts
  obtain ⟨r, ts, rfl, hr, hts⟩ := List.map_eq_cons_iff.1 hts
  obtain ⟨bs, ends, rfl, hbs, hends⟩ := List.map_eq_append_iff.1 hts
  obtain ⟨m, ends, rfl, hm, hends⟩ := List.map_eq_cons_iff.1 hends
  obtain ⟨d, ends, rfl, hd, hends⟩ := List.map_eq_cons_iff.1 hends
  obtain ⟨w, rfl, hw⟩ : ∃ w, ends = [w] ∧ w.content = .keyword "sub" := by simpa using hends
  obtain ⟨body', hsame, hparse⟩ := readsBlock stop body hbody bs hbs
  refine ⟨body', hsame, fun p rest => ?_⟩
  rw [ofName_of_isPlainName hkey] at hk
  have hend : atHandlerEnd (d :: w :: rest) = true := by
    simp only [atHandlerEnd, atEndOf, List.drop_succ_cons, List.drop_zero, nextIs_cons,
      isAnyOf_of_content hd, isAnyOf_of_content hw]
    decide
  have hblock : (parseBlock stop .handler (bs ++ m :: d :: w :: rest)).plain =
      .ok (body', d :: w :: rest) := hparse .handler m _ hm (.inr (by rw [hend]; rfl))
  have hparams : afterParameters (l :: r :: (bs ++ m :: d :: w :: rest)) =
      bs ++ m :: d :: w :: rest := by
    have hopen : nextIs (l :: r :: (bs ++ m :: d :: w :: rest)) ["("] = true := by
      rw [nextIs_cons, isAnyOf_of_content hl]
      decide
    rw [afterParameters, hopen, if_pos rfl]
    simp only [skipParentheses, isSymbol_of_content hl, isSymbol_of_content hr]
    rfl
  have hheader : (parseHeader stop (bs ++ m :: d :: w :: rest)).plain =
      .ok ([], bs ++ m :: d :: w :: rest) := by
    obtain ⟨q, qs, hq, hqn⟩ : OnNewline (bs ++ m :: d :: w :: rest) :=
      OnNewline.append hbs (blockContents_cases body) ⟨m, _, rfl, hm⟩
    rw [hq, parseHeader.eq_def]
    simp only [endsStatement_of_content hqn]
    rfl
  have hsub : (parseSub stop t (k :: l :: r :: (bs ++ m :: d :: w :: rest))).plain =
      .ok (([key], body'), rest) := by
    rw [plain_parseSub_cons, if_pos (Token.kind_of_content hk), hparams, hheader]
    simp only [bind, Except.bind, hblock, hend, dropWhen, if_true, Token.text_of_content hk]
    rfl
  have htokens : n :: t :: k :: l :: r :: (bs ++ [m, d, w]) ++ rest =
      n :: t :: k :: l :: r :: (bs ++ m :: d :: w :: rest) := by simp
  have hkind : t.kind ≠ .newline := by
    rw [Token.kind_of_content ht]
    exact fun h => by cases h
  rw [htokens, parseItems_congr stop p (skipNewlines_cons_newline hn _), parseItems_eq,
    skipNewlines_cons_other hkind]
  simp only [isAnyOf_of_content ht, isSymbol_of_content ht, atEndOf, nextIs_cons]
  rw [if_neg (by decide), if_neg (by decide), if_neg (by
    simp [show (Content.keyword "sub").token.isAnyOf ["end"] = false by decide]),
    if_pos (by decide), hsub]
  rfl

/-- Handlers are stored one after the other. -/
theorem reads_handlers : ∀ (es : List (Text × List Stmt)),
    (∀ e ∈ es, isPlainName e.1 = true ∧ legibleBlock e.2 = true) → ∀ (first : Bool)
    (ts : List Token), ts.map Token.content = handlerContents first es →
    ∃ es', SameHandlers es es' ∧ ∀ (p : Program) (n : Token), n.content = .newline →
      parseItems stop p (ts ++ [n]) = .ok { p with handlers := p.handlers.setAll es' }
  | [], _, _, ts, hts => by
    obtain rfl : ts = [] := by simpa [handlerContents] using hts
    refine ⟨[], ⟨rfl, fun _ he => absurd he List.not_mem_nil⟩, fun p n hn => ?_⟩
    rw [List.nil_append, parseItems_congr stop p (skipNewlines_cons_newline hn []), parseItems_eq]
    rfl
  | (key, body) :: es, h, first, ts, hts => by
    obtain ⟨hkey, hbody⟩ := h _ List.mem_cons_self
    obtain ⟨ns, ts, rfl, hns, hts⟩ := List.map_eq_append_iff.1 hts
    obtain ⟨us, vs, rfl, hus, hvs⟩ := List.map_eq_append_iff.1 hts
    obtain ⟨body', hsame, hparse⟩ := parseItems_sub stop hkey hbody hus
    obtain ⟨es', hall, hparse'⟩ := reads_handlers es (fun e he => h e (List.mem_cons_of_mem _ he))
      false vs hvs
    refine ⟨(key, body') :: es', hall.cons key hsame, fun p n hn => ?_⟩
    -- the empty line between two handlers is passed over
    have hskip : skipNewlines (ns ++ (us ++ (vs ++ [n]))) = skipNewlines (us ++ (vs ++ [n])) := by
      cases first with
      | true =>
        obtain rfl : ns = [] := by simpa using hns
        rfl
      | false =>
        obtain ⟨m, rfl, hm⟩ : ∃ m, ns = [m] ∧ m.content = .newline := by simpa using hns
        exact skipNewlines_cons_newline hm _
    rw [List.append_assoc, List.append_assoc, parseItems_congr stop p hskip, hparse, hparse' _ n hn]
    rfl

end Reading

/-- A module whose handlers have different names is the same as the one that stores the same
handlers one after the other. -/
theorem Program.same_of_sameHandlers {p : Program} (hnodup : p.handlers.keys.Nodup)
    {ss : List Stmt} (hsame : sameBlock p.declarations ss = true)
    {es : List (Text × List Stmt)} (hes : SameHandlers p.handlers.entries es) :
    p.same { declarations := ss, handlers := Table.empty.setAll es } = true := by
  have hkeys : (es.map Prod.fst).Nodup := hes.1 ▸ hnodup
  have hentries : (Table.empty.setAll es).entries = es := Table.entries_setAll _ es hkeys
  have hsize : p.handlers.entries.length = es.length := by
    simpa using (congrArg List.length hes.1).symm
  simp only [Program.same, hsame, Table.size, Table.get?, hentries, hsize, beq_self_eq_true,
    Bool.true_and, List.all_eq_true]
  intro e he
  obtain ⟨e', he', hkey, hbody⟩ := hes.2 e he
  rw [← hkey, Table.lookup_of_mem hkeys he']
  exact hbody

/-- The tokens of handlers and of the text's last line end start on a line end. -/
theorem onNewline_handlers {es : List (Text × List Stmt)} {first : Bool} {ts : List Token}
    (hts : ts.map Token.content = handlerContents first es) {n : Token}
    (hn : n.content = .newline) : OnNewline (ts ++ [n]) := by
  refine OnNewline.append hts ?_ ⟨n, [], rfl, hn⟩
  cases es with
  | nil => exact .inl rfl
  | cons e es => cases first <;> exact .inr ⟨_, rfl⟩

/-- A module that the parser accepts and that is clear is read back from its text. -/
theorem Program.parse_write_of_parse {source : Text} {p : Program}
    (h : Program.parse source = .ok p) (hc : p.isClear = true) :
    ∃ text q, p.write = .ok text ∧ Program.parse text = .ok q ∧ p.same q = true := by
  obtain ⟨hm, hnodup, hbodies⟩ := Program.wellMade_parse h
  simp only [Program.isClear, Bool.and_eq_true] at hc
  obtain ⟨⟨hclear, hignored⟩, hhandlers⟩ := hc
  have hdecls : legibleBlock p.declarations = true := legibleBlock_of_clear hm hclear
  have hlegible : ∀ e ∈ p.handlers.entries, isPlainName e.1 = true ∧ legibleBlock e.2 = true := by
    intro e he
    have := List.all_eq_true.1 hhandlers e he
    simp only [Bool.and_eq_true] at this
    exact ⟨this.1, legibleBlock_of_clear (hbodies e he) this.2⟩
  obtain ⟨ls, hls, hscan⟩ := spells_blockLines p.declarations 0 hdecls
  obtain ⟨ms, hms, hscan'⟩ := spells_handlerLines p.handlers.entries ls hlegible
  have hwrite : p.write = .ok (joinLines (ls ++ ms)) := by
    simp only [Program.write, hls, bind, Except.bind, hms]
    rfl
  obtain ⟨ts, n, hts, hn, hskip⟩ := ofSource_joinLines (hscan.lines hscan')
  obtain ⟨us, vs, rfl, hus, hvs⟩ := List.map_eq_append_iff.1 hts
  generalize hsource : Stream.ofSource (joinLines (ls ++ ms)) = s at hskip
  obtain ⟨ss, hsame, hparse⟩ := reads_declarations s.stop p.declarations hdecls hignored us hus
  obtain ⟨es, hes, hparse'⟩ := reads_handlers s.stop p.handlers.entries hlegible _ vs hvs
  refine ⟨_, { declarations := ss, handlers := Table.empty.setAll es }, hwrite, ?_,
    Program.same_of_sameHandlers hnodup hsame hes⟩
  rw [Program.parse, hsource, Stream.program, parseItems_congr s.stop _ hskip, List.append_assoc,
    hparse _ _ (onNewline_handlers hvs hn), hparse' _ n hn]
  rfl

/-- A handler with a loop that holds a conditional. -/
def nestedSource : Text :=
  "Sub f()\nFor i = 1 To 3\nIf b Then\nx = \"on\"\nElse\ng(-2)\nEnd If\nNext\nEnd Sub"

/-- The module of this source. -/
def nestedModule : Program where
  handlers := .ofList
    [("f", [.forLoop "i" (.number (.int 1)) (.number (.int 3)) none
      [.cond (.ident "b") [.assign (.ident "x") (.string "on") (.ofNat 4)] []
        [.call (.ident "g") [.unary .neg (.number (.int 2))] (.ofNat 6)] (.ofNat 3)] (.ofNat 2)])]

theorem parse_nestedSource : Program.parse nestedSource = .ok nestedModule := by
  have hscan : Token.scan nestedSource =
      [⟨.keyword, "sub", .ofNat 1, 1⟩, ⟨.identifier, "f", .ofNat 1, 5⟩,
        ⟨.punctuation, "(", .ofNat 1, 6⟩, ⟨.punctuation, ")", .ofNat 1, 7⟩,
        ⟨.newline, "\n", .ofNat 1, 8⟩, ⟨.keyword, "for", .ofNat 2, 1⟩,
        ⟨.identifier, "i", .ofNat 2, 5⟩, ⟨.operator, "=", .ofNat 2, 7⟩,
        ⟨.number, "1", .ofNat 2, 9⟩, ⟨.keyword, "to", .ofNat 2, 11⟩, ⟨.number, "3", .ofNat 2, 14⟩,
        ⟨.newline, "\n", .ofNat 2, 15⟩, ⟨.keyword, "if", .ofNat 3, 1⟩,
        ⟨.identifier, "b", .ofNat 3, 4⟩, ⟨.keyword, "then", .ofNat 3, 6⟩,
        ⟨.newline, "\n", .ofNat 3, 10⟩, ⟨.identifier, "x", .ofNat 4, 1⟩,
        ⟨.operator, "=", .ofNat 4, 3⟩, ⟨.string, "on", .ofNat 4, 5⟩,
        ⟨.newline, "\n", .ofNat 4, 9⟩, ⟨.keyword, "else", .ofNat 5, 1⟩,
        ⟨.newline, "\n", .ofNat 5, 5⟩, ⟨.identifier, "g", .ofNat 6, 1⟩,
        ⟨.punctuation, "(", .ofNat 6, 2⟩, ⟨.operator, "-", .ofNat 6, 3⟩,
        ⟨.number, "2", .ofNat 6, 4⟩, ⟨.punctuation, ")", .ofNat 6, 5⟩,
        ⟨.newline, "\n", .ofNat 6, 6⟩, ⟨.keyword, "end", .ofNat 7, 1⟩,
        ⟨.keyword, "if", .ofNat 7, 5⟩, ⟨.newline, "\n", .ofNat 7, 7⟩,
        ⟨.keyword, "next", .ofNat 8, 1⟩, ⟨.newline, "\n", .ofNat 8, 5⟩,
        ⟨.keyword, "end", .ofNat 9, 1⟩, ⟨.keyword, "sub", .ofNat 9, 5⟩, ⟨.eof, "", .ofNat 9, 8⟩] := by
    decide +kernel
  rw [Program.parse, Stream.ofSource, hscan]
  cbv

theorem Program.parse_write_of_parse_nestedSource :
    Program.parse nestedSource = .ok nestedModule ∧ nestedModule.isClear = true ∧
      ∃ text q, nestedModule.write = .ok text ∧ Program.parse text = .ok q ∧
        nestedModule.same q = true := by
  have hclear : nestedModule.isClear = true := by decide +kernel
  exact ⟨parse_nestedSource, hclear, Program.parse_write_of_parse parse_nestedSource hclear⟩

end FormBasic
