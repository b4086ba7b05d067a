import WorkbookTables.Book.Archive
import WorkbookTables.Book.FormatTable
import WorkbookTables.Book.Manifest
import WorkbookTables.Book.PartPath
import WorkbookTables.Book.StringTable

/-!
# Packages

A package is an opened container. Its root relationships tell where the manifest stands, and the
relationships of the manifest tell which worksheets there are and in which parts. Whatever is wrong
with those keeps a package from being opened; the manifest and the worksheets themselves are only
looked up when they are wanted.

What a worksheet needs besides itself — the shared strings, the cell formats and the date system —
is read when the first worksheet is wanted and kept. It is read before the worksheet is looked up,
so its faults come before those of an unknown id or a missing part.

## Main definitions

* `SheetContext` — what every worksheet needs
* `Package`, `Package.ofContainer` — an opened container
* `Package.manifest`, `Package.readCatalog` — the manifest, and the list of sheets in it
* `Package.worksheet` — a worksheet with what it needs, and the package afterwards
-/

namespace WorkbookTables

open Markup

/-- What a worksheet needs besides itself. -/
structure SheetContext where
  /-- The strings that its cells refer to. -/
  strings : StringTable
  /-- The formats that its cells refer to. -/
  formats : FormatTable
  /-- What its dates are counted from. -/
  system : DateSystem
  deriving DecidableEq, Repr

/-! ## Relationships -/

namespace Relationships

/-- The element with a relationship. -/
def relationshipName : Octets := Text.Utf8.encode "Relationship"

/-- The attribute with the id of a relationship. -/
def idName : Octets := Text.Utf8.encode "Id"

/-- The attribute with the type of a relationship. -/
def typeName : Octets := Text.Utf8.encode "Type"

/-- The attribute with the target of a relationship. -/
def targetName : Octets := Text.Utf8.encode "Target"

/-- Holds if a type ends with the given word. -/
def hasType (word : String) (type : String) : Bool :=
  word.toList.isSuffixOf type.toList

/-- The word that ends the type of the relationship to the manifest. -/
def manifestType : String := "/officeDocument"

/-- The word that ends the type of a relationship to a worksheet. -/
def worksheetType : String := "/worksheet"

/-- The reader of the root relationships. The first one that has the type and a target tells where
the manifest stands. -/
def manifestReading : Reading Unit Error (Option String) where
  step _ e :=
    match e with
    | .opening tag =>
      if tag.localName = relationshipName then
        match tag.attribute? typeName with
        | .error error => ((), .failed error)
        | .ok type =>
          if type.any (hasType manifestType) then
            match tag.attribute? targetName with
            | .error error => ((), .failed error)
            | .ok (some target) => ((), .finished (some (PartPath.resolve "" target)))
            | .ok none => ((), .more)
          else ((), .more)
      else ((), .more)
    | _ => ((), .more)
  atEnd _ := .ok none
  onFault := .markup

/-- The paths of worksheets by id after one more relationship. One without a type counts as one to
a worksheet. -/
def add (directory : String) (paths : Std.TreeMap String String) (id type target : Option String) :
    Std.TreeMap String String :=
  if type.all (hasType worksheetType) then
    match id, target with
    | some id, some target => paths.insert id (PartPath.resolve directory target)
    | _, _ => paths
  else paths

/-- Reads one event of the relationships of the manifest. -/
def step (directory : String) (paths : Std.TreeMap String String) (e : Event) :
    Std.TreeMap String String × Progress Error Unit :=
  match e with
  | .opening tag =>
    if tag.localName = relationshipName then
      match tag.attribute? idName, tag.attribute? typeName, tag.attribute? targetName with
      | .ok id, .ok type, .ok target => (add directory paths id type target, .more)
      | .error error, _, _ => (paths, .failed error)
      | _, .error error, _ => (paths, .failed error)
      | _, _, .error error => (paths, .failed error)
    else (paths, .more)
  | _ => (paths, .more)

/-- The reader of the relationships of the manifest. -/
def worksheetReading (directory : String) :
    Reading (Std.TreeMap String String) Error Unit where
  step := step directory
  atEnd _ := .ok ()
  onFault := .markup

/-- The paths of the worksheets by id. -/
def worksheetPaths (directory : String) (d : Document) : Except Error (Std.TreeMap String String) :=
  let (paths, result) := (worksheetReading directory).read ∅ d
  result.map fun _ => paths

end Relationships

/-! ## Packages -/

/-- An opened container. -/
structure Package where
  /-- Its name in messages. -/
  name : String
  /-- Its parts. -/
  archive : Archive
  /-- The path of the manifest. -/
  manifestPath : String
  /-- The paths of the worksheets by id. -/
  worksheets : Std.TreeMap String String
  /-- What the worksheets need, once it has been read. -/
  context : Option SheetContext

namespace Package

/-- The part with the root relationships. -/
def rootRelationshipsPath : String := "_rels/.rels"

/-- Where the manifest stands if nothing says otherwise. -/
def defaultManifestPath : String := "xl/workbook.xml"

/-- Where the manifest of an archive stands. -/
def findManifest (a : Archive) : Except Error String :=
  match a.document? rootRelationshipsPath with
  | none => .ok defaultManifestPath
  | some d => (Relationships.manifestReading.read () d).2.map (·.getD defaultManifestPath)

/-- The path of the relationships of a part. -/
def relationshipsPath (path : String) : String :=
  PartPath.directory path ++ "_rels/" ++ PartPath.fileName path ++ ".rels"

/-- The document in a part that must be there. -/
def require (name : String) (a : Archive) (path : String) : Except Error Document :=
  match a.document? path with
  | some d => .ok d
  | none => .error (.missingPart name path)

/-- Opens an archive. -/
def ofArchive (name : String) (a : Archive) : Except Error Package :=
  match findManifest a with
  | .error e => .error e
  | .ok manifestPath =>
    match require name a (relationshipsPath manifestPath) with
    | .error e => .error e
    | .ok d =>
      match Relationships.worksheetPaths (PartPath.directory manifestPath) d with
      | .error e => .error e
      | .ok worksheets => .ok ⟨name, a, manifestPath, worksheets, none⟩

/-- Opens a container. -/
def ofContainer (name : String) (c : Container) : Except Error Package :=
  match c.archive? with
  | .error e => .error e
  | .ok a => ofArchive name a

/-- Holds if a worksheet has the given id. -/
def contains (p : Package) (id : String) : Bool :=
  p.worksheets.contains id

/-- The manifest. -/
def manifest (p : Package) : Except Error Document :=
  require p.name p.archive p.manifestPath

/-- The sheets of the manifest that have a worksheet, and the map of ids afterwards. -/
def readCatalog (p : Package) (ids : IdMap) : IdMap × Except Error (List Manifest.Entry) :=
  match p.manifest with
  | .error e => (ids, .error e)
  | .ok d => Manifest.readCatalog p.contains ids d

/-- What a document that may be missing reads as. -/
def readOptional {α : Type} (p : Package) (file : String) (missing : α)
    (read : Document → Except Error α) : Except Error α :=
  match p.archive.document? (PartPath.sibling p.manifestPath file) with
  | some d => read d
  | none => .ok missing

/-- Reads what every worksheet needs. -/
def readContext (p : Package) : Except Error SheetContext :=
  match p.manifest with
  | .error e => .error e
  | .ok d =>
    match Manifest.readDateSystem d with
    | .error e => .error e
    | .ok system =>
      match p.readOptional "sharedStrings.xml" #[] StringTable.ofDocument with
      | .error e => .error e
      | .ok strings =>
        match p.readOptional "styles.xml" FormatTable.empty FormatTable.ofDocument with
        | .error e => .error e
        | .ok formats => .ok ⟨strings, formats, system⟩

/-- The document of the worksheet with the given id. -/
def worksheetDocument (p : Package) (id : String) : Except Error Document :=
  match p.worksheets[id]? with
  | none => .error (.unknownRelationship p.name id)
  | some path => require p.name p.archive path

/-- What every worksheet needs, read now unless it has been read before. -/
def sheetContext (p : Package) : Except Error SheetContext :=
  match p.context with
  | some context => .ok context
  | none => p.readContext

/-- The worksheet with the given id and what it needs, and the package that remembers the latter. -/
def worksheet (p : Package) (id : String) :
    Package × Except Error (Document × SheetContext) :=
  match p.sheetContext with
  | .error e => (p, .error e)
  | .ok context =>
    ({ p with context := some context }, (p.worksheetDocument id).map fun d => (d, context))

end Package

end WorkbookTables
