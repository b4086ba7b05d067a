import WorkbookTables.Error
import WorkbookTables.Markup.Document

/-!
# Containers and the parts in them

A workbook is stored in a container, which is an archive of named parts. A part is looked up by
name, where the case of ASCII letters does not matter and a backslash in the name that is wanted
counts as a slash. The names in the archive are taken as they are, and the first match wins.

How parts are packed into octets is not a matter of this library: a container with parts is given by
them, and what is proved of containers is proved of these, of octets that are no archive, and of
missing files.

Which octets are no archive is decided elsewhere, where archives are unpacked. `Container.ofOctets`
stands in for that where a program that uses the library has octets instead of parts. It only tells
the empty archive from octets that are no archive: it looks for the end record that every archive
has, and takes octets with the end record of an archive without entries for the empty archive and
all others for no archive. Octets that do hold entries are out of its reach, and no theorem depends
on it.

## Main definitions

* `Archive`, `Archive.part?` — named parts, and the look-up
* `Container` — an archive, other octets, or nothing
* `EndRecord`, `EndRecord.read?` — what octets at the end of an archive say of it
* `Container.ofOctets` — what octets without entries hold, for programs that have nothing else
* `Location` — where a container is kept, as it is named in messages
-/

namespace WorkbookTables

/-- Named parts in the order in which they are stored. -/
structure Archive where
  /-- Each part with its name. -/
  parts : List (String × Markup.Octets)
  deriving DecidableEq, Repr

namespace Archive

/-- The characters by which names are compared: ASCII letters in lower case. -/
def foldCase (name : List Char) : List Char :=
  name.map Char.toLower

/-- The name that is wanted, with slashes for backslashes. -/
def withSlashes (name : List Char) : List Char :=
  name.map fun c => if c = '\\' then '/' else c

/-- The octets of the first part whose name matches. -/
def part? (a : Archive) (name : String) : Option Markup.Octets :=
  let wanted := foldCase (withSlashes name.toList)
  (a.parts.find? fun part => foldCase part.1.toList == wanted).map Prod.snd

/-- The document in the first part whose name matches. -/
def document? (a : Archive) (name : String) : Option Markup.Document :=
  (a.part? name).map Markup.Document.ofOctets

end Archive

/-- What is found where a workbook is kept. -/
inductive Container where
  /-- An archive. -/
  | archive (contents : Archive)
  /-- Octets that are no archive. -/
  | other (octets : Markup.Octets)
  /-- Nothing, where a file should be. -/
  | missing
  deriving DecidableEq, Repr

/-! ## End records

This section serves `Container.ofOctets` alone, the stand-in for the unpacking of archives.

An end record counts the entries of its archive twice: those in its own piece of the archive, which
are the ones that are read, and those of all pieces. The archive it ends is taken for empty if its
own piece has none. Should the other count claim entries nevertheless, something that looks like
the description of an entry must stand before the record, where the record says that descriptions
are.
-/

/-- What an end record says. -/
structure EndRecord where
  /-- The piece of the archive that the record stands in. -/
  piece : Nat
  /-- The piece in which the descriptions of entries begin. -/
  firstPiece : Nat
  /-- How many entries this piece has. -/
  entriesHere : Nat
  /-- How many entries all pieces have. -/
  entries : Nat
  /-- Where the descriptions of entries begin. -/
  offset : Nat
  /-- How many octets of comment follow the record. -/
  commentSize : Nat
  deriving DecidableEq, Repr

namespace EndRecord

/-- The octets that an end record begins with. -/
def signature : Markup.Octets := [0x50, 0x4B, 0x05, 0x06]

/-- The octets that the description of an entry begins with. -/
def entrySignature : Markup.Octets := [0x50, 0x4B, 0x01, 0x02]

/-- How many octets an end record has before its comment. -/
def size : Nat := 22

/-- The number that octets spell, the lowest one first. -/
def numberOf (octets : Markup.Octets) : Nat :=
  octets.foldr (fun b higher => b.toNat + 256 * higher) 0

/-- The end record that octets begin with. The comment that it announces must be there. -/
def read? (octets : Markup.Octets) : Option EndRecord :=
  let field (index width : Nat) : Nat := numberOf ((octets.drop index).take width)
  let record : EndRecord :=
    { piece := field 4 2
      firstPiece := field 6 2
      entriesHere := field 8 2
      entries := field 10 2
      offset := field 16 4
      commentSize := field 20 2 }
  if signature.isPrefixOf octets ∧ size + record.commentSize ≤ octets.length then some record
  else none

/-- Holds of octets in which the description of an entry seems to begin somewhere. -/
def describesEntry : Markup.Octets → Bool
  | [] => false
  | b :: rest => entrySignature.isPrefixOf (b :: rest) || describesEntry rest

/-- Holds if a record ends an archive in one piece and without entries. The octets before the
record are given. -/
def isOfEmpty (r : EndRecord) (before : Markup.Octets) : Bool :=
  r.piece == r.firstPiece && r.entriesHere == 0 &&
    (r.entries == 0 || describesEntry (before.drop r.offset))

/-- Holds if the octets of `whole` from `index` on, which are given too, have the end record of an
archive without entries anywhere. -/
def endsEmptyFrom (whole : Markup.Octets) (index : Nat) : Markup.Octets → Bool
  | [] => false
  | b :: rest =>
    (read? (b :: rest)).any (·.isOfEmpty (whole.take index)) || endsEmptyFrom whole (index + 1) rest

end EndRecord

/-- What octets hold in which no entry of an archive is packed. -/
def Container.ofOctets (octets : Markup.Octets) : Container :=
  if EndRecord.endsEmptyFrom octets 0 octets then .archive ⟨[]⟩ else .other octets

example : EndRecord.read? [0x50, 0x4B, 5, 6, 0, 0, 0, 0, 1, 0, 0, 0, 0, 0, 0, 0, 0, 0, 0, 0, 0, 0] =
    some ⟨0, 0, 1, 0, 0, 0⟩ := by decide

/-- The archive in a container. -/
def Container.archive? : Container → Except Error Archive
  | .archive contents => .ok contents
  | .other _ => .error .notAnArchive
  | .missing => .error .missingFile

/-- Where a workbook is kept. -/
inductive Location where
  /-- A file with a path. -/
  | file (path : String)
  /-- Memory that holds so many octets. -/
  | memory (size : Nat)
  deriving DecidableEq, Repr

/-- The name of a location in messages. -/
def Location.name : Location → String
  | .file path => path
  | .memory size => s!"<{size} bytes in memory>"

end WorkbookTables
