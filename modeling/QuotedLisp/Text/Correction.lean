import QuotedLisp.Text.Grapheme

/-!
# Corrections in a line

A line may hold the backspaces that were typed into it. `correct` carries them out: a backspace
takes away the cluster before it, or nothing at the beginning of the line. The size of a cluster is
counted in a single byte, so a backspace after a cluster of 256 bytes or more takes away only what
such a count tells.
-/

namespace QuotedLisp.Text

/-- The character that takes away the cluster before it. -/
def backspace : Char :=
  '\x08'

/-- A line while it is put together: its characters, last one first, and the sizes of the clusters
that later backspaces take away, next one first. -/
structure Draft where
  written : List Char := []
  sizes : List UInt8 := []

/-- The size of a cluster in bytes, modulo 256. -/
def clusterSize (cluster : List Char) : UInt8 :=
  UInt8.ofNat (cluster.foldl (fun size c => size + c.utf8Size) 0)

/-- Drops as many characters as it takes to make up a number of bytes. -/
def dropBytes : Nat → List Char → List Char
  | _, [] => []
  | count, c :: rest => if count = 0 then c :: rest else dropBytes (count - c.utf8Size) rest

/-- A draft continued by a cluster, or shortened by a backspace. -/
def Draft.type (draft : Draft) (cluster : List Char) : Draft :=
  if cluster = [backspace] then
    match draft.sizes with
    | [] => draft
    | size :: sizes => ⟨dropBytes size.toNat draft.written, sizes⟩
  else ⟨cluster.reverse ++ draft.written, clusterSize cluster :: draft.sizes⟩

/-- The line that is left when its backspaces are carried out. -/
def correct (line : List Char) : List Char :=
  if line.contains backspace then ((clusters line).foldl Draft.type {}).written.reverse else line

end QuotedLisp.Text
