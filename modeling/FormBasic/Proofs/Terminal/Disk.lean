import FormBasic.Terminal.Disk

/-!
# Storing texts on disk

A text that is written to a file is found there again. When it is read, its line ends become line
feeds, so appending to a file by reading it and writing it again changes the line ends of everything
that was there before.

## Main definitions

* `Text.appended` - what a file holds after texts were appended to it
* `Location.place?` - where a file can be written

## Main statements

* `Text.readable_appended`, `Text.isPrefix_appended_iff` - what is read of such a file, and whether
  it still starts with what was written first
* `Disk.writeText_of_place?`, `Disk.locate_store` - a file that was written is found at its path
-/

namespace FormBasic

-- ════════════════════════════════════════════════════════════════════════════
-- Line ends
-- ════════════════════════════════════════════════════════════════════════════

namespace Text

theorem carriageReturn_notMem_unifyLineEnds (cs : List Char) : '\r' ∉ unifyLineEnds cs := by
  induction cs using unifyLineEnds.induct with
  | case1 => exact List.not_mem_nil
  | case2 rest ih =>
    rw [unifyLineEnds, List.mem_cons, not_or]
    exact ⟨by decide, ih⟩
  | case3 rest hrest ih =>
    rw [unifyLineEnds, List.mem_cons, not_or]
    · exact ⟨by decide, ih⟩
    · exact hrest
  | case4 c rest hpair hc ih =>
    rw [unifyLineEnds, List.mem_cons, not_or]
    · exact ⟨fun h => hc h.symm, ih⟩
    · exact hpair
    · exact hc

theorem unifyLineEnds_append {cs : List Char} (h : '\r' ∉ cs) (rest : List Char) :
    unifyLineEnds (cs ++ rest) = cs ++ unifyLineEnds rest := by
  induction cs with
  | nil => rfl
  | cons c cs ih =>
    rw [List.mem_cons, not_or] at h
    have hc : c ≠ '\r' := fun e => h.1 e.symm
    rw [List.cons_append, unifyLineEnds, ih h.2, List.cons_append]
    · rintro r rfl
      exact absurd rfl hc
    · exact hc

/-- A carriage return, with a line feed behind it or not, becomes a line feed. -/
theorem exists_unifyLineEnds_carriageReturn (cs : List Char) :
    ∃ rest, unifyLineEnds ('\r' :: cs) = '\n' :: rest := by
  unfold unifyLineEnds
  split
  · next h => cases h
  · exact ⟨_, rfl⟩
  · exact ⟨_, rfl⟩
  · next c rest hpair hc h =>
    cases h
    exact absurd rfl hc

theorem carriageReturn_notMem_readable (s : String) : '\r' ∉ (readable s).toList := by
  rw [readable, String.toList_ofList]
  exact carriageReturn_notMem_unifyLineEnds _

theorem readable_eq_self_iff {s : String} : readable s = s ↔ '\r' ∉ s.toList := by
  refine ⟨fun h => h ▸ carriageReturn_notMem_readable s, fun h => ?_⟩
  rw [readable, unifyLineEnds_eq_self h, String.ofList_toList]

theorem readable_append {s : String} (h : '\r' ∉ s.toList) (t : String) :
    readable (s ++ t) = s ++ readable t := by
  rw [← String.toList_inj, String.toList_append, readable, readable, String.toList_ofList,
    String.toList_ofList, String.toList_append, unifyLineEnds_append h]

/-- What is read of a text starts with the text only if nothing in it was changed. -/
theorem readable_append_eq_iff {s t : String} :
    (∃ tail, readable s ++ t = s ++ tail) ↔ '\r' ∉ s.toList := by
  constructor
  · rintro ⟨tail, heq⟩ hmem
    obtain ⟨before, behind, hs, hbefore⟩ := List.eq_append_cons_of_mem hmem
    obtain ⟨rest, hrest⟩ := exists_unifyLineEnds_carriageReturn behind
    rw [← String.toList_inj, String.toList_append, String.toList_append, readable,
      String.toList_ofList, hs, unifyLineEnds_append hbefore, hrest, List.append_assoc,
      List.append_assoc, List.append_right_inj] at heq
    exact absurd (List.cons.inj heq).1 (by decide)
  · intro h
    exact ⟨t, by rw [readable_eq_self_iff.2 h]⟩

/-- What a file holds after texts were appended to it: each time what is read of it is written again
with the next text behind it. -/
def appended (first : String) (others : List String) : String :=
  others.foldl (fun old new => readable old ++ new) first

theorem appended_concat (first : String) (others : List String) (last : String) :
    appended first (others ++ [last]) = readable (appended first others) ++ last :=
  List.foldl_append

theorem readable_appended (first : String) (others : List String) :
    readable (appended first others) = String.join ((first :: others).map readable) := by
  induction others generalizing first with
  | nil => simp [appended]
  | cons next others ih =>
    show readable (appended (readable first ++ next) others) = _
    rw [ih, List.map_cons, readable_append (carriageReturn_notMem_readable first)]
    simp only [List.map_cons, String.join_cons, String.append_assoc]

/-- A beginning without carriage returns stays what it is. -/
theorem exists_appended_append {start : String} (h : '\r' ∉ start.toList) (behind : String)
    (others : List String) : ∃ tail, appended (start ++ behind) others = start ++ tail := by
  induction others generalizing behind with
  | nil => exact ⟨behind, rfl⟩
  | cons next others ih =>
    show ∃ tail, appended (readable (start ++ behind) ++ next) others = _
    rw [readable_append h, String.append_assoc]
    exact ih _

/-- The first text stays as it was written unless something is appended to it and it has a carriage
return. -/
theorem isPrefix_appended_iff {first : String} {others : List String} :
    (∃ tail, appended first others = first ++ tail) ↔ others = [] ∨ '\r' ∉ first.toList := by
  constructor
  · rintro ⟨tail, htail⟩
    cases others with
    | nil => exact .inl rfl
    | cons next others =>
      obtain ⟨tail', htail'⟩ :=
        exists_appended_append (carriageReturn_notMem_readable first) next others
      exact .inr (readable_append_eq_iff.1 ⟨tail, htail'.symm.trans htail⟩)
  · rintro (rfl | h)
    · exact ⟨"", (String.append_empty).symm⟩
    · simpa using exists_appended_append h "" others

/-- Texts in a row are read as they are only if none of them has a carriage return. -/
theorem join_readable_eq_iff {texts : List String} :
    String.join (texts.map readable) = String.join texts ↔ ∀ t ∈ texts, '\r' ∉ t.toList := by
  constructor
  · intro h t ht hmem
    have hjoin : '\r' ∈ (String.join texts).toList := by
      rw [String.toList_join]
      exact List.mem_flatMap.2 ⟨t, ht, hmem⟩
    rw [← h, String.toList_join, List.mem_flatMap] at hjoin
    obtain ⟨_, hread, hmem⟩ := hjoin
    obtain ⟨t, -, rfl⟩ := List.mem_map.1 hread
    exact carriageReturn_notMem_readable t hmem
  · intro h
    rw [List.map_congr_left fun t ht => readable_eq_self_iff.2 (h t ht), List.map_id']

end Text

-- ════════════════════════════════════════════════════════════════════════════
-- Files
-- ════════════════════════════════════════════════════════════════════════════

/-- The parts of the file that is written at a location. -/
def Location.place? : Location → Option (List Text)
  | .file parts _ | .vacant parts => some parts
  | _ => none

namespace Disk

variable {d : Disk} {p : Path} {parts : List Text} {content : String}

theorem any_store (P : List Text → Bool) (files : List DiskFile) (file : DiskFile) :
    ((store files file).any fun f => P f.parts) =
      (files.any (fun f => P f.parts) || P file.parts) := by
  induction files with
  | nil => simp [store]
  | cons f rest ih =>
    rw [store]
    split
    · next h => simp [h, Bool.or_right_comm]
    · simp [ih, Bool.or_assoc]

/-- Storing a file makes those parts a directory that it lies below. -/
theorem isDirectory_store (file : DiskFile) (q : List Text) :
    (Disk.mk (store d.files file)).isDirectory q =
      (d.isDirectory q || q.isPrefixOf file.parts && file.parts != q) := by
  rw [isDirectory, isDirectory, any_store fun parts => q.isPrefixOf parts && parts != q,
    Bool.or_assoc]

theorem file?_store (file : DiskFile) :
    (Disk.mk (store d.files file)).file? file.parts = some file := by
  show (store d.files file).find? _ = _
  induction d.files with
  | nil => simp [store]
  | cons f rest ih =>
    rw [store]
    split
    · simp
    · next h => simp [h, ih]

/-- A path leads to the file that is stored where the path had led to. -/
theorem follow_store {base rest : List Text} (h : (d.follow base rest).place? = some parts) :
    (Disk.mk (store d.files ⟨parts, content⟩)).follow base rest = .file parts content := by
  induction rest generalizing base with
  | nil =>
    rw [follow] at h
    cases hfile : d.file? base with
    | none =>
      rw [hfile] at h
      cases h
    | some f =>
      rw [hfile] at h
      obtain rfl : base = parts := Option.some.inj h
      rw [follow, file?_store (d := d) ⟨base, content⟩]
  | cons part rest ih =>
    rw [follow] at h ⊢
    split at h
    · next hup =>
      rw [if_pos hup]
      exact ih h
    split at h
    · cases h
    next hup hlong =>
    rw [if_neg hup, if_neg hlong]
    dsimp only at h ⊢
    rw [isDirectory_store]
    split at h
    · next hdirectory =>
      rw [if_pos (by rw [hdirectory, Bool.true_or])]
      exact ih h
    · next hdirectory =>
      -- the walk ends here, at the place of the file
      have hend : parts = base ++ [part] ∧ rest = [] := by
        split at h
        · exact ⟨(Option.some.inj h).symm, rfl⟩
        · cases h
        · exact ⟨(Option.some.inj h).symm, rfl⟩
        · cases h
      obtain ⟨rfl, rfl⟩ := hend
      rw [if_neg (by simp [hdirectory]), file?_store (d := d) ⟨base ++ [part], content⟩]

theorem locate_store (h : (d.locate p).place? = some parts) :
    (Disk.mk (store d.files ⟨parts, content⟩)).locate p = .file parts content := by
  rw [locate] at h ⊢
  split at h
  · cases h
  split at h
  · cases h
  next htrouble hlong =>
  rw [if_neg htrouble, if_neg hlong]
  split at h
  · next hroot =>
    rw [if_pos hroot]
    exact follow_store h
  · -- nothing is known below the root
    rw [locateFromRoot] at h
    split at h
    · cases h
    · split at h <;> cases h

theorem writeText_of_place? (h : (d.locate p).place? = some parts) (content : String) :
    d.writeText p content = (⟨store d.files ⟨parts, content⟩⟩, .ok ()) := by
  have hplain : (content : Text).encodingTrouble? (fun _ => false) = none := by
    rw [Text.encodingTrouble?, Text.toList_ofString]
    generalize content.toList = cs
    generalize 0 = position
    induction cs generalizing position with
    | nil => rfl
    | cons c cs ih => exact ih _
  have hwrite : d.writeFile parts content = (⟨store d.files ⟨parts, content⟩⟩, .ok ()) := by
    rw [writeFile, hplain]
    rfl
  delta writeText
  split
  · next hlocate =>
    rw [hlocate] at h
    obtain rfl := Option.some.inj h
    exact hwrite
  · next hlocate =>
    rw [hlocate] at h
    obtain rfl := Option.some.inj h
    exact hwrite
  · next location hfile hvacant =>
    cases hlocation : d.locate p with
    | file parts content => exact absurd hlocation (hfile parts content)
    | vacant parts => exact absurd hlocation (hvacant parts)
    | _ =>
      rw [hlocation] at h
      cases h

theorem existsAt_of_file (h : d.locate p = .file parts content) : d.existsAt p = .ok true := by
  delta existsAt
  rw [h]

theorem readText_of_file (h : d.locate p = .file parts content) :
    d.readText p = .ok (Text.readable content) := by
  delta readText
  rw [h]

end Disk

end FormBasic
