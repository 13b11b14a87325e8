import FormBasic.Proofs.Grammar.Modules

/-!
# Well-formed modules are read back from their text

Writing a module of well-formed statements and parsing the text gives the module back, with its
handlers in the same order. The handlers have to be stored under different names, and no statement
outside them may be written with a first word that makes the parser pass over the line.

## Main definitions

* `Stmt.opensIgnoredLine` - statements whose text starts with such a word

## Main statements

* `Program.spells_write` - what the tokens of a written module say
* `Program.read_of_contents` - a module is read from tokens that say it
* `Program.parse_write` - every well-formed module is read back
-/

namespace FormBasic

open Token (Content)

/-- Whether the text of a statement starts with a word that makes the parser pass over the line. -/
def Stmt.opensIgnoredLine (s : Stmt) : Bool :=
  match writeBody [s] with
  | .ok text => (Token.scan text).head?.any startsIgnoredLine
  | .error _ => false

theorem legible_of_mem {ss : List Stmt} (h : legibleBlock ss = true) {s : Stmt} (hs : s ∈ ss) :
    s.legible = true := by
  induction ss with
  | nil => cases hs
  | cons s' ss ih =>
    simp only [legibleBlock, everyStmt, Bool.and_eq_true] at h
    rcases List.mem_cons.1 hs with rfl | hs
    · exact h.1
    · exact ih h.2 hs

/-- The text of a statement starts with its first word. -/
theorem Stmt.opensIgnoredLine_eq {s : Stmt} (h : s.legible = true) :
    s.opensIgnoredLine = s.startsIgnored := by
  obtain ⟨lines, hlines, hscan⟩ := s.spells_lines 0 h
  have hwrite : writeBody [s] = .ok (joinLines lines) := by
    simp only [writeBody, blockLines, hlines, bind, Except.bind, pure, Except.pure, List.append_nil]
  have hall : Scans (onLines lines ++ [.char '\n']) (.newline :: s.contents ++ [.newline])
      Anything :=
    hscan.append scans_newline fun rest _ => .inr ⟨rest, rfl⟩
  have hne : lines ≠ [] := by
    rintro rfl
    obtain ⟨ts, stop, hts, hws, -⟩ := scanFrom_of_scans hscan (.inl rfl) 0 1
    obtain ⟨t, ts, rfl, -, -⟩ := List.map_eq_cons_iff.1 hws
    simp [onLines, Token.scanFrom] at hts
  obtain ⟨ts, stop, hts, hws, hstop⟩ := scanFrom_of_scans hall trivial 0 1
  obtain ⟨n, us, rfl, -, hus⟩ := List.map_eq_cons_iff.1 hws
  rw [← newline_joinLines hne, scanFrom_newline, List.cons_append, List.cons.injEq] at hts
  rw [Stmt.opensIgnoredLine, Stmt.startsIgnored, hwrite]
  simp only [Token.scan]
  rw [hts.2]
  cases hcontents : s.contents with
  | nil =>
    rw [hcontents] at hus
    obtain ⟨m, rfl, hm⟩ : ∃ m, us = [m] ∧ m.content = .newline := by simpa using hus
    simp [startsIgnoredLine, Token.kind_of_content hm, Content.newline]
  | cons c ws =>
    rw [hcontents] at hus
    obtain ⟨t, vs, rfl, rfl, -⟩ := List.map_eq_cons_iff.1 hus
    rfl

/-- What the tokens of a written module say. -/
theorem Program.spells_write {p : Program} (hdeclarations : legibleBlock p.declarations = true)
    (hhandlers : ∀ e ∈ p.handlers.entries, isPlainName e.1 = true ∧ legibleBlock e.2 = true) :
    ∃ lines first, p.write = .ok (joinLines lines) ∧
      Scans (onLines lines)
        (blockContents p.declarations ++ handlerContents first p.handlers.entries) LineEnd := by
  obtain ⟨ls, hls, hscan⟩ := spells_blockLines p.declarations 0 hdeclarations
  obtain ⟨ms, hms, hscan'⟩ := spells_handlerLines p.handlers.entries ls hhandlers
  refine ⟨ls ++ ms, ls.isEmpty, ?_, hscan.lines hscan'⟩
  simp only [Program.write, hls, bind, Except.bind, hms]
  rfl

/-- A module is read from tokens that say it, whatever line ends come first. -/
theorem Program.read_of_contents {p : Program} (hdeclarations : legibleBlock p.declarations = true)
    (hignored : p.declarations.all (fun s => !s.startsIgnored) = true)
    (hhandlers : ∀ e ∈ p.handlers.entries, isPlainName e.1 = true ∧ legibleBlock e.2 = true)
    (hkeys : p.handlers.keys.Nodup) {first : Bool} {ts : List Token} {n : Token}
    (hts : ts.map Token.content =
      blockContents p.declarations ++ handlerContents first p.handlers.entries)
    (hn : n.content = .newline) {s : Stream}
    (hskip : skipNewlines s.tokens = skipNewlines (ts ++ [n])) :
    ∃ q, s.program = .ok q ∧ p.same q = true ∧ q.handlers.keys = p.handlers.keys := by
  obtain ⟨us, vs, rfl, hus, hvs⟩ := List.map_eq_append_iff.1 hts
  obtain ⟨ss, hsame, hparse⟩ :=
    reads_declarations s.stop p.declarations hdeclarations hignored us hus
  obtain ⟨es, hes, hparse'⟩ := reads_handlers s.stop p.handlers.entries hhandlers first vs hvs
  refine ⟨{ declarations := ss, handlers := Table.empty.setAll es }, ?_,
    Program.same_of_sameHandlers hkeys hsame hes, ?_⟩
  · rw [Stream.program, parseItems_congr s.stop _ hskip, List.append_assoc,
      hparse _ _ (onNewline_handlers hvs hn), hparse' _ n hn]
    rfl
  · have hnodup : (es.map Prod.fst).Nodup := hes.1 ▸ hkeys
    have hentries : (Table.empty.setAll es).entries = es := Table.entries_setAll _ es hnodup
    rw [Table.keys, hentries]
    exact hes.1

/-- Writing a well-formed module and parsing its text succeed and give the module back, apart from
the lines of its statements, with its handlers in the same order. -/
theorem Program.parse_write {p : Program} (hdeclarations : wellFormedBlock p.declarations = true)
    (hopens : ∀ s ∈ p.declarations, s.opensIgnoredLine = false)
    (hhandlers : ∀ e ∈ p.handlers.entries, isPlainName e.1 = true ∧ wellFormedBlock e.2 = true)
    (hkeys : p.handlers.keys.Nodup) :
    ∃ text q, p.write = .ok text ∧ Program.parse text = .ok q ∧ p.same q = true ∧
      q.handlers.keys = p.handlers.keys := by
  have hdecls := legibleBlock_of_wellFormedBlock hdeclarations
  have hbodies : ∀ e ∈ p.handlers.entries, isPlainName e.1 = true ∧ legibleBlock e.2 = true :=
    fun e he => (hhandlers e he).imp_right legibleBlock_of_wellFormedBlock
  have hignored : p.declarations.all (fun s => !s.startsIgnored) = true := by
    refine List.all_eq_true.2 fun s hs => ?_
    rw [← Stmt.opensIgnoredLine_eq (legible_of_mem hdecls hs), hopens s hs]
    rfl
  obtain ⟨lines, first, hwrite, hscan⟩ := Program.spells_write hdecls hbodies
  obtain ⟨ts, n, hts, hn, hskip⟩ := ofSource_joinLines hscan
  obtain ⟨q, hq, hsame, hsameKeys⟩ :=
    Program.read_of_contents hdecls hignored hbodies hkeys hts hn hskip
  exact ⟨joinLines lines, q, hwrite, hq, hsame, hsameKeys⟩

/-- A module with two handlers, one of them named like a word that is passed over. -/
def sampleProgram : Program where
  declarations := [.assign (.ident "count") (.number (.int 0)) (.ofNat 1), .exit "sub" (.ofNat 2)]
  handlers := .ofList [("imports", sampleBody), ("Main", [])]

theorem Program.parse_write_sample :
    wellFormedBlock sampleProgram.declarations = true ∧
      (∀ s ∈ sampleProgram.declarations, s.opensIgnoredLine = false) ∧
      (∀ e ∈ sampleProgram.handlers.entries,
        isPlainName e.1 = true ∧ wellFormedBlock e.2 = true) ∧
      sampleProgram.handlers.keys.Nodup ∧
      ∃ text q, sampleProgram.write = .ok text ∧ Program.parse text = .ok q ∧
        sampleProgram.same q = true ∧ q.handlers.keys = sampleProgram.handlers.keys := by
  have hdeclarations : wellFormedBlock sampleProgram.declarations = true := by decide
  have hopens : ∀ s ∈ sampleProgram.declarations, s.opensIgnoredLine = false := by
    decide +kernel
  have hhandlers : ∀ e ∈ sampleProgram.handlers.entries,
      isPlainName e.1 = true ∧ wellFormedBlock e.2 = true := by
    decide +kernel
  have hkeys : sampleProgram.handlers.keys.Nodup := by decide +kernel
  exact ⟨hdeclarations, hopens, hhandlers, hkeys,
    Program.parse_write hdeclarations hopens hhandlers hkeys⟩

end FormBasic
