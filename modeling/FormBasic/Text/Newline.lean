/-!
# Line ends

Text files may end their lines in three ways. When a file is read, every line end becomes a single
line feed.

## Main definitions

* `unifyLineEnds` - all line ends as line feeds
-/

namespace FormBasic.Text

/-- The characters with every line end as a line feed. -/
def unifyLineEnds : List Char → List Char
  | [] => []
  | '\r' :: '\n' :: rest => '\n' :: unifyLineEnds rest
  | '\r' :: rest => '\n' :: unifyLineEnds rest
  | c :: rest => c :: unifyLineEnds rest

/-- The text with every line end as a line feed. -/
def readable (s : String) : String := String.ofList (unifyLineEnds s.toList)

/-- A text without carriage returns is read as it is. -/
theorem unifyLineEnds_eq_self {cs : List Char} (h : '\r' ∉ cs) : unifyLineEnds cs = cs := by
  induction cs with
  | nil => rfl
  | cons c rest ih =>
    simp only [List.mem_cons, not_or] at h
    have hc : c ≠ '\r' := fun e => h.1 e.symm
    rw [unifyLineEnds, ih h.2]
    · rintro r rfl; exact absurd rfl hc
    · exact fun e => absurd e hc

end FormBasic.Text
