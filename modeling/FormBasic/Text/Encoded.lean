import FormBasic.Text.Quoted

/-!
# Texts as bytes

Files hold bytes, in the UTF-8 encoding of characters. A lone half has no encoding. In the names of
files, though, halves in a certain range stand for single bytes that are no part of a character.

## Main definitions

* `isByteHalf` - the halves that stand for single bytes
* `EncodingTrouble` - a run of halves that cannot be encoded
* `encodingTrouble?` - the first such run of a text
* `byteSize` - the number of bytes of a text
-/

namespace FormBasic.Text

/-- Whether a half stands for a single byte in the name of a file. -/
def isByteHalf (offset : Fin 2048) : Bool := 0x480 ≤ offset.val && offset.val < 0x500

/-- A run of halves that cannot be encoded. -/
structure EncodingTrouble where
  position : Nat
  length : Nat
  /-- The first half of the run. -/
  first : Fin 2048
  deriving Repr, DecidableEq

/-- The wording of a trouble with the encoding. -/
def EncodingTrouble.message (e : EncodingTrouble) : String :=
  let place :=
    if e.length = 1 then
      "character '" ++ String.ofList (escapeCode (CodePoint.code (.half e.first))) ++
        "' in position " ++ toString e.position
    else
      "characters in position " ++ toString e.position ++ "-" ++
        toString (e.position + e.length - 1)
  "'utf-8' codec can't encode " ++ place ++ ": surrogates not allowed"

/-- The first run of halves that cannot be encoded, where some halves stand for bytes; counted from
a position. -/
def troubleFrom? (isByte : Fin 2048 → Bool) (position : Nat) :
    List CodePoint → Option EncodingTrouble
  | [] => none
  | .half offset :: cs =>
    if isByte offset then troubleFrom? isByte (position + 1) cs
    else some ⟨position, (cs.takeWhile CodePoint.isHalf).length + 1, offset⟩
  | .char _ :: cs => troubleFrom? isByte (position + 1) cs

/-- The first run of halves in a text that cannot be encoded, where some halves stand for bytes. -/
def encodingTrouble? (isByte : Fin 2048 → Bool) (t : Text) : Option EncodingTrouble :=
  troubleFrom? isByte 0 t.toList

/-- The number of bytes of a text, in which a half counts as one byte. -/
def byteSize (t : Text) : Nat :=
  t.rest.foldl (fun n run => n + 1 + run.2.utf8ByteSize) t.start.utf8ByteSize

end FormBasic.Text
