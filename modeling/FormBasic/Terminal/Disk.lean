import FormBasic.Text.Encoded
import FormBasic.Text.Newline
import FormBasic.Text.Slice

/-!
# Files on disk

The files under a working directory, by path. A directory exists as long as a file lies below it.
Paths are kept in a normal form without empty parts and without parts that stay in place. A path may
climb above the working directory; of what lies there only the directories on the way up are known,
and what was written there.

## Main definitions

* `Path`, `Path.ofText`, `Path.text` - paths and their texts
* `Disk` - the files
* `Disk.locate` - what a path leads to
* `Disk.existsAt`, `Disk.readText`, `Disk.writeText` - looking for, reading and writing a file
-/

namespace FormBasic

-- ════════════════════════════════════════════════════════════════════════════
-- Paths
-- ════════════════════════════════════════════════════════════════════════════

/-- A path in normal form. -/
structure Path where
  /-- The slashes that an absolute path starts with. -/
  root : Text := ""
  parts : List Text := []
  deriving Repr, DecidableEq

namespace Path

/-- The slashes at the start of a path: two of them have a meaning of their own. -/
def rootOf : List CodePoint → Text
  | .char '/' :: .char '/' :: .char '/' :: _ => "/"
  | .char '/' :: .char '/' :: _ => "//"
  | .char '/' :: _ => "/"
  | _ => ""

/-- The path that a text describes. -/
def ofText (text : Text) : Path where
  root := rootOf text.toList
  parts := (Text.splitAt '/' text).filter fun p => p != "" && p != "."

/-- The text of a path. -/
def text (p : Path) : Text :=
  let whole := p.root ++ Text.joined "/" p.parts
  if whole.isEmpty then "." else whole

/-- The last part of a path. -/
def name (p : Path) : Text := p.parts.getLast?.getD ""

/-- A path relative to another. -/
def join (base p : Path) : Path :=
  if p.root.isEmpty then { base with parts := base.parts ++ p.parts } else p

end Path

-- ════════════════════════════════════════════════════════════════════════════
-- Files
-- ════════════════════════════════════════════════════════════════════════════

/-- A file by the parts of its path. -/
structure DiskFile where
  parts : List Text
  content : String
  deriving Repr, DecidableEq

/-- The files under a working directory. -/
structure Disk where
  files : List DiskFile := []

/-- What a path leads to. -/
inductive Location where
  | file (parts : List Text) (content : String)
  | directory
  /-- Nothing yet, but in a directory. -/
  | vacant (parts : List Text)
  /-- Nothing, and no directory for it either. -/
  | nowhere
  /-- A file stands where a directory should. -/
  | blocked
  /-- The path, or a part of it, is too long. -/
  | tooLong
  /-- The path holds something that no name can hold. -/
  | unnameable
  deriving Repr, DecidableEq

/-- Why a file cannot be read or written. -/
inductive FileTrouble where
  | missing (path : Path)
  | notADirectory (path : Path)
  | isADirectory (path : Path)
  | nameTooLong (path : Path)
  | nullCharacter
  | unencodable (trouble : Text.EncodingTrouble)
  deriving Repr, DecidableEq

/-- The wording of a trouble with a file. -/
def FileTrouble.message : FileTrouble → Text
  | .missing path => "[Errno 2] No such file or directory: " ++ Text.quoted path.text
  | .notADirectory path => "[Errno 20] Not a directory: " ++ Text.quoted path.text
  | .isADirectory path => "[Errno 21] Is a directory: " ++ Text.quoted path.text
  | .nameTooLong path => "[Errno 36] File name too long: " ++ Text.quoted path.text
  | .nullCharacter => "embedded null byte"
  | .unencodable trouble => trouble.message

/-- What keeps a path from naming anything: a half that stands for no byte, or else a null
character. -/
def Path.trouble? (p : Path) : Option FileTrouble :=
  match p.text.encodingTrouble? Text.isByteHalf with
  | some trouble => some (.unencodable trouble)
  | none =>
    if p.text.toList.contains (.char (Char.ofNat 0)) then some .nullCharacter else none

namespace Disk

/-- The file at some parts. -/
def file? (d : Disk) (parts : List Text) : Option DiskFile :=
  d.files.find? fun f => f.parts == parts

/-- The part that leads to the directory above. -/
def upward : Text := ".."

/-- Whether the parts only climb, from the working directory to those above it. -/
def onlyClimbs (parts : List Text) : Bool := parts.all fun part => part == upward

/-- The directory above the one at some parts. -/
def above (parts : List Text) : List Text :=
  if onlyClimbs parts then parts ++ [upward] else parts.dropLast

/-- Whether the parts lead to a directory: the working directory, one above it, or one with a file
below it. -/
def isDirectory (d : Disk) (parts : List Text) : Bool :=
  onlyClimbs parts || d.files.any fun f => parts.isPrefixOf f.parts && f.parts != parts

/-- The most bytes that a name may have. -/
def nameLimit : Nat := 255

/-- The most bytes that a path may have. -/
def pathLimit : Nat := 4095

/-- Follows the parts of a path from a directory, up to the first one that leads no further. -/
def follow (d : Disk) (base : List Text) : List Text → Location
  | [] =>
    match d.file? base with
    | some f => .file base f.content
    | none => .directory
  | part :: rest =>
    if part == upward then follow d (above base) rest
    else if nameLimit < part.byteSize then .tooLong
    else
      let next := base ++ [part]
      if d.isDirectory next then follow d next rest
      else
        match d.file? next, rest with
        | some f, [] => .file next f.content
        | some _, _ :: _ => .blocked
        | none, [] => .vacant next
        | none, _ :: _ => .nowhere

/-- What an absolute path leads to: the root, where nothing else is known. -/
def locateFromRoot (parts : List Text) : Location :=
  match parts.dropWhile fun part => part == upward with
  | [] => .directory
  | part :: _ => if nameLimit < part.byteSize then .tooLong else .nowhere

/-- What a path leads to. -/
def locate (d : Disk) (p : Path) : Location :=
  if p.trouble?.isSome then .unnameable
  else if pathLimit < p.text.byteSize then .tooLong
  else if p.root.isEmpty then d.follow [] p.parts
  else locateFromRoot p.parts

/-- Why nothing can be read from, or written to, a location that is no file. -/
def troubleAt (p : Path) : Location → FileTrouble
  | .file _ _ | .vacant _ | .nowhere => .missing p
  | .directory => .isADirectory p
  | .blocked => .notADirectory p
  | .tooLong => .nameTooLong p
  | .unnameable => p.trouble?.getD .nullCharacter

/-- Whether a path leads to a file or a directory; of a path that is too long this cannot be
told. -/
def existsAt (d : Disk) (p : Path) : Except FileTrouble Bool :=
  match d.locate p with
  | .file _ _ | .directory => .ok true
  | .tooLong => .error (.nameTooLong p)
  | .vacant _ | .nowhere | .blocked | .unnameable => .ok false

/-- The content of a file with its line ends unified. -/
def readText (d : Disk) (p : Path) : Except FileTrouble String :=
  match d.locate p with
  | .file _ content => .ok (Text.readable content)
  | location => .error (troubleAt p location)

/-- Stores a file, in the place of the one at these parts if there is one. -/
def store (files : List DiskFile) (file : DiskFile) : List DiskFile :=
  match files with
  | [] => [file]
  | f :: rest => if f.parts = file.parts then file :: rest else f :: store rest file

/-- Writes a text to a file of these parts, which is left empty when the text cannot be encoded. -/
def writeFile (d : Disk) (parts : List Text) (content : Text) : Disk × Except FileTrouble Unit :=
  match content.encodingTrouble? fun _ => false with
  | some trouble => (⟨store d.files ⟨parts, ""⟩⟩, .error (.unencodable trouble))
  | none => (⟨store d.files ⟨parts, content.start⟩⟩, .ok ())

/-- The disk after a text is written to a path, and what went wrong. -/
def writeText (d : Disk) (p : Path) (content : Text) : Disk × Except FileTrouble Unit :=
  match d.locate p with
  | .file parts _ | .vacant parts => d.writeFile parts content
  | location => (d, .error (troubleAt p location))

end Disk

end FormBasic
