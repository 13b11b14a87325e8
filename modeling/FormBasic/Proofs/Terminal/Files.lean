import FormBasic.Proofs.Script.Parts
import FormBasic.Proofs.Session.Settling
import FormBasic.Proofs.Terminal.Disk
import FormBasic.Terminal.Console

/-!
# Files of scripts on a terminal

Scripts write, append to and read the files in the directory of a terminal. What was written is on
the disk as it was written; but a file is read with its line ends unified, and appending means to
read it and to write it again. So a text comes back as it was written, and stays so when others are
appended to it, exactly if it has no carriage return.

## Main definitions

* `FileAction`, `Script.CallsFile` - calls of the methods of files in scripts
* `Console.Gives` - what a script comes to on a terminal, wherever it stands
* `Console.Appended` - what may have happened to a terminal in which texts were appended to a file

## Main statements

* `Console.gives_write`, `Console.gives_append`, `Console.gives_read` - what the three calls come to
* `Console.files_keep_text_iff` - when a file keeps what was written to it
-/

namespace FormBasic

-- ════════════════════════════════════════════════════════════════════════════
-- Scripts on a terminal
-- ════════════════════════════════════════════════════════════════════════════

namespace Console

/-- A terminal never holds a request. -/
theorem answers_host : host.Answers := by
  have hline : ∀ {request : Request} (c : Console) (f : Text → request.Reply),
      ∃ c' signals reply, replyLine c f = .answered c' signals reply := by
    intro request c f
    rw [replyLine]
    cases c.nextLine? with
    | none => exact ⟨_, _, _, rfl⟩
    | some next => exact ⟨_, _, _, rfl⟩
  intro request c
  cases request with
  | propertyChanged component property value =>
    show ∃ c' signals reply, receive (.propertyChanged component property value) c = _
    rw [receive]
    cases c.showChange component property value with
    | ok c => exact ⟨_, _, _, rfl⟩
    | error refusal => exact ⟨_, _, _, rfl⟩
  | inputBox => exact hline _ _
  | readLine => exact hline _ _
  | readKey => exact hline _ _
  | _ => exact ⟨_, _, _, rfl⟩

/-- The terminal as what surrounds a script. -/
def surroundings : Surroundings Console := host.surroundings answers_host

/-- Whether a script comes to a value on a terminal, whichever handlers are running, and leaves the
world as it is. -/
def Gives {α : Type} (c : Console) (m : Script α) (w : World) (c' : Console) (a : α) : Prop :=
  ∀ stack, Outcome.Settles surroundings stack (m w) c w c' (.ok a)

section Gives

variable {α β : Type} {c c₁ c₂ : Console} {m : Script α} {w : World} {a : α} {b : β}

theorem gives_of_done (h : m w = .done w a) : c.Gives m w c a := by
  intro stack
  rw [h]
  exact .done w a c

theorem gives_ask {request : Request} {reply : request.Reply}
    (h : receive request c = .answered c₁ [] (.ok reply)) :
    c.Gives (Script.ask request) w c₁ reply :=
  fun _ => .asking ⟨[], h, rfl⟩ (Outcome.settles_ended w c₁ (.ok reply))

theorem Gives.bind (h : c.Gives m w c₁ a) {f : α → Script β} (hf : c₁.Gives (f a) w c₂ b) :
    c.Gives (m >>= f) w c₂ b :=
  fun stack => (h stack).andThen (hf stack)

/-- What a script comes to on a terminal is the only way in which it ends there. -/
theorem Gives.unique (h : c.Gives m w c₁ a) {stack : List Text} {w' : World} {c' : Console}
    {result : Except Fault α}
    (hrun : Outcome.Settles surroundings stack (m w) c w' c' result) :
    c' = c₁ ∧ result = .ok a := by
  obtain ⟨-, hstate, hresult⟩ := hrun.unique (h stack)
  exact ⟨hstate, hresult⟩

end Gives

end Console

-- ════════════════════════════════════════════════════════════════════════════
-- Calls
-- ════════════════════════════════════════════════════════════════════════════

/-- What scripts do with a file. -/
inductive FileAction where
  | write (content : String)
  | append (content : String)
  | read

/-- The method of the files, in lower case. -/
def FileAction.method : FileAction → String
  | .write _ => "writealltext"
  | .append _ => "appendalltext"
  | .read => "readalltext"

/-- The arguments after the name of the file. -/
def FileAction.arguments : FileAction → List Value
  | .write content | .append content => [.text content]
  | .read => []

namespace Script

/-- Whether an expression calls a method of the files with the name of a file; the extension is the
last argument, or the one that is configured. The arguments can be evaluated without any effect, and
no variable and no component has the name of the static class. -/
inductive CallsFile (line : Line) (w : World) (action : FileAction) (name extension : Text) :
    Expr → Prop where
  | intro {owner method : Text} {args : List Expr} {extensions : List Value}
    (howner : w.staticClass? (.ident owner) = some "file")
    (hmethod : Text.word method = action.method)
    (hargs : List.Forall₂ (HasValue line w) args (.text name :: action.arguments ++ extensions))
    (hextension : extensions = [.text extension] ∨
      extensions = [] ∧ extension = w.config.fileExtension) :
    CallsFile line w action name extension (.call (.member (.ident owner) method) args)

/-- What a call asks for, once its arguments are known. -/
def fileScript (name extension : Text) : FileAction → Script Value
  | .write content => do
    ask (.saveText name content extension)
    return .nothing
  | .append content => do
    let existing ← loadText name extension
    ask (.saveText name (existing ++ content) extension)
    return .nothing
  | .read => return .text (← loadText name extension)

theorem CallsFile.eval_eq {line : Line} {w : World} {action : FileAction} {name extension : Text}
    {e : Expr} (h : CallsFile line w action name extension e) :
    eval line e w = fileScript name extension action w := by
  obtain ⟨howner, hmethod, hargs, hextension⟩ := h
  rw [eval, bind_of_done (evalAll_of_hasValue hargs), callMethod, hmethod]
  refine (bind_of_done (m := callOnList? _ _ _) rfl _).trans ?_
  refine (bind_of_done (m := world) rfl _).trans ?_
  simp only [howner]
  show callFile action.method _ w = _
  obtain rfl | ⟨rfl, rfl⟩ := hextension
  · cases action <;> rfl
  · cases action <;> rfl

end Script

namespace Console

open Script

/-- What the path of a script's file leads to. -/
def located (c : Console) (name extension : Text) : Location :=
  c.disk.locate (c.filePath name extension)

/-- The terminal after a text was stored under the parts of a file. -/
def storing (c : Console) (parts : List Text) (content : String) : Console :=
  { c with disk := ⟨Disk.store c.disk.files ⟨parts, content⟩⟩ }

section Calls

variable {line : Line} {w : World} {c : Console} {e : Expr} {name extension : Text}
  {parts : List Text} {content new : String}

theorem located_storing (h : (c.located name extension).place? = some parts) (content : String) :
    (c.storing parts content).located name extension = .file parts content :=
  Disk.locate_store h

theorem gives_saveText (h : (c.located name extension).place? = some parts) (content : String) :
    c.Gives (ask (.saveText name content extension)) w (c.storing parts content) () := by
  apply gives_ask
  rw [receive, Disk.writeText_of_place? h]
  rfl

theorem gives_loadText (h : c.located name extension = .file parts content) :
    c.Gives (loadText name extension) w c (Text.readable content) := by
  have hreceive : receive (.loadText name extension) c =
      .answered c [] (.ok (.text (Text.readable content))) := by
    rw [receive, fileText]
    simp only [Disk.existsAt_of_file h, Disk.readText_of_file h]
    rfl
  exact (gives_ask hreceive).bind (gives_of_done rfl)

/-- A text is written to where the path leads. -/
theorem gives_write (hcall : CallsFile line w (.write content) name extension e)
    (h : (c.located name extension).place? = some parts) :
    c.Gives (eval line e) w (c.storing parts content) .nothing := by
  intro stack
  rw [hcall.eval_eq]
  exact (gives_saveText h content).bind (gives_of_done rfl) stack

/-- A text is written behind what is read of the file. -/
theorem gives_append (hcall : CallsFile line w (.append new) name extension e)
    (h : c.located name extension = .file parts content) :
    c.Gives (eval line e) w (c.storing parts (Text.readable content ++ new)) .nothing := by
  have hplace : (c.located name extension).place? = some parts := by
    rw [h]
    rfl
  intro stack
  rw [hcall.eval_eq]
  exact (gives_loadText h).bind ((gives_saveText hplace _).bind (gives_of_done rfl)) stack

/-- A file is read with its line ends unified. -/
theorem gives_read (hcall : CallsFile line w .read name extension e)
    (h : c.located name extension = .file parts content) :
    c.Gives (eval line e) w c (.text (Text.readable content)) := by
  intro stack
  rw [hcall.eval_eq]
  exact (gives_loadText h).bind (gives_of_done rfl) stack

end Calls

-- ════════════════════════════════════════════════════════════════════════════
-- Writing, appending and reading
-- ════════════════════════════════════════════════════════════════════════════

/-- Whether a terminal comes from another by calls that append texts to a file, in this order; in
between anything may happen that leaves the file where it is and as it is. -/
inductive Appended (name extension : Text) (start : Console) : List String → Console → Prop where
  | start : Appended name extension start [] start
  | append {texts : List String} {c c' : Console} {line : Line} {stack : List Text} {w w' : World}
    {e : Expr} {new : String} {result : Except Fault Value}
    (h : Appended name extension start texts c)
    (hcall : CallsFile line w (.append new) name extension e)
    (hrun : Outcome.Settles surroundings stack (eval line e w) c w' c' result) :
    Appended name extension start (texts ++ [new]) c'
  | other {texts : List String} {c c' : Console} (h : Appended name extension start texts c)
    (hfile : c'.located name extension = c.located name extension) :
    Appended name extension start texts c'

section Keeping

variable {line : Line} {w : World} {start c : Console} {e : Expr} {name extension : Text}
  {parts : List Text} {first : String} {texts : List String}

/-- The file holds what it held, with the texts appended to it. -/
theorem Appended.located (h : Appended name extension start texts c)
    (hstart : start.located name extension = .file parts first) :
    c.located name extension = .file parts (Text.appended first texts) := by
  induction h with
  | start => exact hstart
  | @append texts c c' line stack w w' e new result h hcall hrun ih =>
    obtain ⟨rfl, -⟩ := (gives_append hcall ih).unique hrun
    rw [Text.appended_concat]
    refine located_storing ?_ _
    rw [ih]
    rfl
  | other h hfile ih => exact hfile.trans ih

/-- After a text was written to a file and any number of texts were appended to it, with anything
else going on in between, the file is read as all these texts in a row with their line ends unified,
and further texts can be appended. What is read is what was written exactly if no text has a
carriage return; and the file still starts with the first text as it was written exactly if it has
none, or if nothing was appended. -/
theorem files_keep_text_iff (hcall : CallsFile line w (.write first) name extension e)
    (hplace : (c.located name extension).place? = some parts) :
    ∃ c₁, c.Gives (eval line e) w c₁ .nothing ∧ ∀ {texts : List String} {c₂ : Console},
      Appended name extension c₁ texts c₂ →
        c₂.located name extension = .file parts (Text.appended first texts) ∧
        (∀ {line : Line} {w : World} {e : Expr}, CallsFile line w .read name extension e →
          c₂.Gives (eval line e) w c₂
            (.text (String.join ((first :: texts).map Text.readable)))) ∧
        (∀ {line : Line} {w : World} {e : Expr} {new : String},
          CallsFile line w (.append new) name extension e →
          ∃ c₃, c₂.Gives (eval line e) w c₃ .nothing ∧
            Appended name extension c₁ (texts ++ [new]) c₃) ∧
        (String.join ((first :: texts).map Text.readable) = String.join (first :: texts) ↔
          ∀ t ∈ first :: texts, '\r' ∉ t.toList) ∧
        ((∃ tail, Text.appended first texts = first ++ tail) ↔
          texts = [] ∨ '\r' ∉ first.toList) := by
  refine ⟨c.storing parts first, gives_write hcall hplace, fun {texts c₂} happended => ?_⟩
  have hfile := happended.located (located_storing hplace first)
  refine ⟨hfile, fun {line w e} hread => ?_, fun {line w e new} happend => ?_,
    Text.join_readable_eq_iff, Text.isPrefix_appended_iff⟩
  · rw [← Text.readable_appended]
    exact gives_read hread hfile
  · have hgives := gives_append happend hfile
    exact ⟨_, hgives, happended.append happend (hgives [])⟩

end Keeping

/-- A call with the name `notes`. -/
def notesCall (method : Text) (arguments : List Text) : Expr :=
  .call (.member (.ident "File") method) (.string "notes" :: arguments.map .string)

/-- A line that ends as on Windows is not read as it was written, and when something is appended to
it, it is not even left in the file as it was. -/
theorem files_keep_text_iff_windowsLine :
    CallsFile none {} (.write "a\r\nb") "notes" "txt" (notesCall "WriteAllText" ["a\r\nb"]) ∧
    (located {} "notes" "txt").place? = some [("notes.txt" : Text)] ∧
    ∃ c₁ c₂ : Console,
      Gives {} (eval none (notesCall "WriteAllText" ["a\r\nb"])) {} c₁ .nothing ∧
      c₁.Gives (eval none (notesCall "ReadAllText" [])) {} c₁ (.text "a\nb") ∧
      c₁.Gives (eval none (notesCall "AppendAllText" ["c"])) {} c₂ .nothing ∧
      c₂.located "notes" "txt" = .file ["notes.txt"] "a\nbc" ∧
      ¬ ∃ tail, ("a\nbc" : String) = "a\r\nb" ++ tail := by
  have hwrite : CallsFile none {} (.write "a\r\nb") "notes" "txt"
      (notesCall "WriteAllText" ["a\r\nb"]) :=
    .intro rfl (by decide) (.cons rfl (.cons rfl .nil)) (.inr ⟨rfl, rfl⟩)
  have hread : CallsFile none {} .read "notes" "txt" (notesCall "ReadAllText" []) :=
    .intro rfl (by decide) (.cons rfl .nil) (.inr ⟨rfl, rfl⟩)
  have happend : CallsFile none {} (.append "c") "notes" "txt" (notesCall "AppendAllText" ["c"]) :=
    .intro rfl (by decide) (.cons rfl (.cons rfl .nil)) (.inr ⟨rfl, rfl⟩)
  have hplace : (located {} "notes" "txt").place? = some [("notes.txt" : Text)] := by decide +kernel
  obtain ⟨c₁, hgives, hafter⟩ := files_keep_text_iff hwrite hplace
  obtain ⟨-, hreads, happends, -, -⟩ := hafter .start
  obtain ⟨c₂, hgives₂, happended⟩ := happends happend
  obtain ⟨hfile, -, -, -, hkept⟩ := hafter happended
  refine ⟨hwrite, hplace, c₁, c₂, hgives, hreads hread, hgives₂, hfile, fun h => ?_⟩
  obtain hnone | hreturn := hkept.1 h
  · exact absurd hnone (List.cons_ne_nil _ _)
  · exact hreturn (by decide)

end Console

end FormBasic
