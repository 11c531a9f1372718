import SortView.Lib.Lines
import SortView.Lib.Text

/-!
# The bundle verifier (`installer/SortView.Setup.Core/BundleVerifier.cs`)

The request, the walk of the bundle folder, the manifest and the inventory, each with the problems that it reports.
-/

namespace SortView

open PyText ByteLines

namespace BundleVerifier

def manifestFileName : Text := "MANIFEST.json".toList

def productName : Text := "SortView Collector".toList

def maxEntries : Nat := 100000

def maxDepth : Nat := 32

def maxManifestBytes : Nat := 16 * 1024 * 1024

def maxPathLength : Nat := 400

def maxVersionLength : Nat := 64

def maxReportedProblems : Nat := 500

/-! ### What is asked of the platform -/

/-- What `DeserializeObject` makes of a JSON text: an integer is an `int` or a `long`, and `other` is any value that is not looked at. -/
inductive Value where
  | integer (value : Int)
  | text (value : Text)
  | array (items : List Value)
  | dictionary (items : List (Text × Value))
  | other

/-- The functions of the platform. -/
structure System where
  /-- The case mapping of `OrdinalIgnoreCase`. -/
  upper : Char → Char
  trim : Text → Text
  sha256Hex : Bytes → Text
  /-- The decoding from UTF-8 and `DeserializeObject`; none where either throws. -/
  deserializeObject : Bytes → Option Value

inductive ReadFailure where
  | accessDenied
  | readError

/-- An entry of a folder; a folder may be one that cannot be listed, and a file one that cannot be read. -/
inductive Node where
  | reparsePoint
  | file (length : Nat) (content : Except ReadFailure Bytes)
  | folder (children : List (Text × Node))
  | closedFolder (failure : ReadFailure)

/-- What stands at the bundle's path. -/
inductive Root where
  | missing
  | reparsePoint
  | file
  | folder (children : List (Text × Node))
  | closedFolder (failure : ReadFailure)

/-! ### Problems -/

inductive BundleProblemCode where
  | expectedHashInvalid
  | bundleRootInvalid
  | bundleRootMissing
  | reparsePoint
  | accessDenied
  | readError
  | limitExceeded
  | manifestMissing
  | manifestHashMismatch
  | manifestMalformed
  | productMismatch
  | versionInvalid
  | versionMismatch
  | unsafePath
  | duplicatePath
  | pathCollision
  | fileMissing
  | notAFile
  | sizeMismatch
  | hashMismatch
  | unexpectedFile
  | unexpectedDirectory
  deriving DecidableEq

structure BundleProblem where
  code : BundleProblemCode
  path : Text
  deriving DecidableEq

def ReadFailure.code : ReadFailure → BundleProblemCode
  | .accessDenied => .accessDenied
  | .readError => .readError

structure Report where
  problems : List BundleProblem
  truncated : Bool

def Report.empty : Report := ⟨[], false⟩

def Report.any (report : Report) : Bool := !report.problems.isEmpty

def Report.add (report : Report) (code : BundleProblemCode) (path : Text) : Report :=
  if maxReportedProblems ≤ report.problems.length then { report with truncated := true }
  else { report with problems := report.problems ++ [⟨code, path⟩] }

def utf16Units (c : Char) : List Nat :=
  if c.toNat < 65536 then [c.toNat] else [0xd800 + (c.toNat - 65536) / 1024, 0xdc00 + (c.toNat - 65536) % 1024]

/-- `StringComparer.Ordinal` on the UTF-16 units of two texts. -/
def ordinalLe : List Nat → List Nat → Bool
  | [], _ => true
  | _ :: _, [] => false
  | u :: us, v :: vs => decide (u < v) || decide (u = v) && ordinalLe us vs

/-- The order of the codes and, within one, of the paths. -/
def BundleProblem.le (first second : BundleProblem) : Bool :=
  if first.code.ctorIdx = second.code.ctorIdx then
    ordinalLe (first.path.flatMap utf16Units) (second.path.flatMap utf16Units)
  else decide (first.code.ctorIdx < second.code.ctorIdx)

structure BundleVerification where
  isVerified : Bool
  version : Option Text
  fileCount : Nat
  problems : List BundleProblem
  problemsTruncated : Bool

/-! ### Texts -/

/-- Characters outside the first plane are two units of a string. -/
def utf16Length (text : Text) : Nat := (text.map fun c => if c.toNat < 65536 then 1 else 2).sum

/-- `$` also matches before a newline at the end. -/
def matchesToEnd (pattern : Text → Bool) (text : Text) : Bool :=
  pattern text || (text.getLast? = some '\n' && pattern text.dropLast)

def isHexDigit (c : Char) : Bool := c.isDigit || ('a' ≤ c && c ≤ 'f') || ('A' ≤ c && c ≤ 'F')

/-- `Sha256Pattern`. -/
def isSha256 (text : Text) : Bool := matchesToEnd (fun body => body.length = 64 && body.all isHexDigit) text

/-- `[-+.][0-9A-Za-z][0-9A-Za-z.+-]*`, or nothing. -/
def isVersionSuffix : Text → Bool
  | [] => true
  | [_] => false
  | c :: d :: text => (c = '-' || c = '+' || c = '.') && d.isAlphanum && text.all fun e => e.isAlphanum || e = '.' || e = '+' || e = '-'

/-- `[0-9]+` and what follows it. -/
def digitsThen (next : Text → Bool) (text : Text) : Bool :=
  text.takeWhile Char.isDigit ≠ [] && next (text.dropWhile Char.isDigit)

def dotThen (next : Text → Bool) : Text → Bool
  | [] => false
  | c :: text => c = '.' && next text

/-- `VersionPattern`. -/
def versionPattern (text : Text) : Bool :=
  matchesToEnd (digitsThen (dotThen (digitsThen (dotThen (digitsThen isVersionSuffix))))) text

def isValidVersion (version : Text) : Bool := utf16Length version ≤ maxVersionLength && versionPattern version

def Report.result (report : Report) (version : Option Text) (fileCount : Nat) : BundleVerification where
  isVerified := report.problems.isEmpty && !report.truncated
  version := version.filter isValidVersion
  fileCount := fileCount
  problems := report.problems.mergeSort BundleProblem.le
  problemsTruncated := report.truncated

def isControl (c : Char) : Bool := c.toNat < 32 || c.toNat = 127

/-- A path for a report. -/
def printable (path : Text) : Text :=
  let text := path.map fun c => if isControl c then '?' else c
  if utf16Length text ≤ maxPathLength then text else text.take maxPathLength ++ "...".toList

variable (sys : System)

/-- `StringComparer.OrdinalIgnoreCase`. -/
def same (left right : Text) : Bool := left.map sys.upper = right.map sys.upper

def forbiddenPathChars : Text := ['\\', ':', '*', '?', '"', '<', '>', '|']

def reservedNames : List Text :=
  ["CON".toList, "PRN".toList, "AUX".toList, "NUL".toList, "CONIN$".toList, "CONOUT$".toList]
    ++ ("123456789".toList.map fun digit => "COM".toList ++ [digit]) ++ ("123456789".toList.map fun digit => "LPT".toList ++ [digit])

/-- `path.Split('/')`. -/
def segments : Text → List Text
  | [] => [[]]
  | c :: text =>
      if c = '/' then [] :: segments text
      else
        match segments text with
        | [] => [[c]]
        | segment :: more => (c :: segment) :: more

/-- The stem of a segment, before its first dot. -/
def stem (segment : Text) : Text := ((segment.takeWhile (· ≠ '.')).reverse.dropWhile (· = ' ')).reverse

def isSafeSegment (segment : Text) : Bool :=
  !(segment = [] || segment = ['.'] || segment = ['.', '.'] || segment.getLast? = some '.' || segment.getLast? = some ' ')
    && !(reservedNames.any fun name => same sys name (stem segment))

def isSafeRelativePath (path : Text) : Bool :=
  !(path = [] || maxPathLength < utf16Length path || path.any fun c => forbiddenPathChars.contains c || isControl c)
    && (segments path).all (isSafeSegment sys)

/-! ### The walk -/

/-- An entry of the tree, with its path from the bundle. -/
structure Entry where
  path : Text
  name : Text
  node : Node

def relativePath (folder name : Text) : Text := if folder = [] then name else folder ++ '/' :: name

def entriesIn (folder : Text) (children : List (Text × Node)) : List Entry :=
  children.map fun child => ⟨relativePath folder child.1, child.1, child.2⟩

structure FoundFile where
  path : Text
  name : Text
  length : Nat
  content : Except ReadFailure Bytes

/-- The tree so far, the folders that are pending, the entries that were counted and the problems. -/
structure Walk where
  files : List FoundFile
  directories : List Text
  pending : List (Except ReadFailure (List (Text × Node)) × Text)
  entries : Nat
  report : Report

def Walk.add (walk : Walk) (code : BundleProblemCode) (path : Text) : Walk := { walk with report := walk.report.add code path }

/-- The paths of the tree so far. -/
def Walk.paths (walk : Walk) : List Text := walk.files.map FoundFile.path ++ walk.directories

/-- An entry that is no reparse point enters the tree, and a folder is pending. -/
def Walk.enter (walk : Walk) (entry : Entry) : Walk :=
  match entry.node with
  | .reparsePoint => walk
  | .file length content => { walk with files := walk.files ++ [⟨entry.path, entry.name, length, content⟩] }
  | .folder children =>
      { walk with directories := walk.directories ++ [entry.path], pending := (.ok children, entry.path) :: walk.pending }
  | .closedFolder failure =>
      { walk with directories := walk.directories ++ [entry.path], pending := (.error failure, entry.path) :: walk.pending }

def Node.isReparsePoint : Node → Bool
  | .reparsePoint => true
  | _ => false

/-- One entry of a folder; an error is a walk that ends there. -/
def visit (walk : Walk) (entry : Entry) : Except Walk Walk :=
  let counted := { walk with entries := walk.entries + 1 }
  if maxEntries < counted.entries then .error (counted.add .limitExceeded [])
  else if entry.node.isReparsePoint then .ok (counted.add .reparsePoint (printable entry.path))
  else if counted.paths.any (same sys entry.path) then .error (counted.add .pathCollision (printable entry.path))
  else .ok (counted.enter entry)

/-- The folders that are pending, the last one first. -/
def walkPending : Nat → Walk → Walk
  | 0, walk => walk
  | steps + 1, walk =>
      match walk.pending with
      | [] => walk
      | (listing, folder) :: pending =>
          if maxDepth ≤ folder.count '/' then { walk with pending := pending }.add .limitExceeded (printable folder)
          else
            match listing with
            | .error failure => { walk with pending := pending }.add failure.code (printable folder)
            | .ok children =>
                match (entriesIn folder children).foldlM (visit sys) { walk with pending := pending } with
                | .error walk => walk
                | .ok walk => walkPending steps walk

mutual

/-- How many folders a node is or holds. -/
def Node.folders : Node → Nat
  | .folder children => Node.foldersIn children + 1
  | .closedFolder _ => 1
  | _ => 0

def Node.foldersIn : List (Text × Node) → Nat
  | [] => 0
  | (_, node) :: children => node.folders + Node.foldersIn children

end

def Walk.begin (listing : Except ReadFailure (List (Text × Node))) : Walk := ⟨[], [], [(listing, [])], 0, Report.empty⟩

def Walk.failed (code : BundleProblemCode) : Walk := ⟨[], [], [], 0, Report.empty.add code []⟩

def walkRoot : Root → Walk
  | .missing => .failed .bundleRootMissing
  | .reparsePoint => .failed .reparsePoint
  | .file => .failed .bundleRootInvalid
  | .folder children => walkPending sys (Node.foldersIn children + 1) (.begin (.ok children))
  | .closedFolder failure => walkPending sys 1 (.begin (.error failure))

/-! ### The manifest -/

structure ManifestFile where
  path : Text
  sha256 : Text
  sizeBytes : Nat

structure Manifest where
  product : Text
  version : Text
  files : List ManifestFile

def topLevelKeys : List Text := ["product".toList, "version".toList, "built_at".toList, "files".toList]

def entryKeys : List Text := ["path".toList, "sha256".toList, "size_bytes".toList]

def hasExactly (items : List (Text × Value)) (keys : List Text) : Bool :=
  items.length = keys.length && keys.all fun key => (items.lookup key).isSome

def tryString (items : List (Text × Value)) (key : Text) : Option Text :=
  match items.lookup key with
  | some (.text value) => some value
  | _ => none

def tryNonNegativeInteger (items : List (Text × Value)) (key : Text) : Option Nat :=
  match items.lookup key with
  | some (.integer value) => if 0 ≤ value then some value.toNat else none
  | _ => none

def tryFiles (items : List (Text × Value)) (key : Text) : Option (List Value) :=
  match items.lookup key with
  | some (.array values) => some values
  | _ => none

/-- One entry of the manifest. -/
def parseFile : Value → Option ManifestFile
  | .dictionary items => do
      let path ← tryString items "path".toList
      let sha256 ← tryString items "sha256".toList
      let sizeBytes ← tryNonNegativeInteger items "size_bytes".toList
      if hasExactly items entryKeys && isSha256 sha256 then some ⟨path, sha256, sizeBytes⟩ else none
  | _ => none

/-- The entries of the manifest after as many others; an error is the problem of the first that is refused. -/
def parseFiles : Nat → List Value → Except BundleProblemCode (List ManifestFile)
  | _, [] => .ok []
  | count, value :: values =>
      if maxEntries ≤ count then .error .limitExceeded
      else
        match parseFile value with
        | none => .error .manifestMalformed
        | some file => (parseFiles (count + 1) values).map (file :: ·)

def parseTop : Option Value → Option (Text × Text × List Value)
  | some (.dictionary items) => do
      let product ← tryString items "product".toList
      let version ← tryString items "version".toList
      let _ ← tryString items "built_at".toList
      let files ← tryFiles items "files".toList
      if hasExactly items topLevelKeys then some (product, version, files) else none
  | _ => none

def parse (bytes : Bytes) : Except BundleProblemCode Manifest :=
  match parseTop (sys.deserializeObject bytes) with
  | none => .error .manifestMalformed
  | some (product, version, files) => (parseFiles 0 files).map fun files => ⟨product, version, files⟩

/-! ### The listed paths -/

/-- The entries that are listed so far, and the paths that were seen. -/
structure Listing where
  listed : List ManifestFile
  exact : List Text
  report : Report

def list (listing : Listing) (entry : ManifestFile) : Listing :=
  if !isSafeRelativePath sys entry.path || same sys entry.path manifestFileName then
    { listing with report := listing.report.add .unsafePath (printable entry.path) }
  else if listing.exact.contains entry.path then { listing with report := listing.report.add .duplicatePath entry.path }
  else if listing.listed.any fun other => same sys entry.path other.path then
    { listing with exact := listing.exact ++ [entry.path], report := listing.report.add .pathCollision entry.path }
  else { listing with listed := listing.listed ++ [entry], exact := listing.exact ++ [entry.path] }

/-- The text before each slash. -/
def folderPrefixes : Text → List Text
  | [] => []
  | c :: text => (if c = '/' then [[]] else []) ++ (folderPrefixes text).map (c :: ·)

def listedFolders (listed : List ManifestFile) : List Text := listed.flatMap fun entry => folderPrefixes entry.path

/-- A report with a problem for each element that is not as it should be. -/
def reportEach {α : Type} (problem : α → Option BundleProblem) (elements : List α) (report : Report) : Report :=
  elements.foldl (fun report element =>
    match problem element with
    | none => report
    | some problem => report.add problem.code problem.path) report

def collision (folders : List Text) (entry : ManifestFile) : Option BundleProblem :=
  if folders.any (same sys entry.path) then some ⟨.pathCollision, entry.path⟩ else none

def checkNames (manifest : Manifest) (expectedVersion : Option Text) (report : Report) : Report :=
  let report := if manifest.product = productName then report else report.add .productMismatch []
  if !isValidVersion manifest.version then report.add .versionInvalid []
  else if expectedVersion.any (· ≠ manifest.version) then report.add .versionMismatch []
  else report

/-! ### The inventory -/

def inventoryProblem (walk : Walk) (entry : ManifestFile) : Option BundleProblem :=
  match walk.files.find? fun file => same sys entry.path file.path with
  | none =>
      some ⟨if walk.directories.any (same sys entry.path) then .notAFile else .fileMissing, entry.path⟩
  | some file =>
      if file.length ≠ entry.sizeBytes then some ⟨.sizeMismatch, entry.path⟩
      else
        match file.content with
        | .error failure => some ⟨failure.code, entry.path⟩
        | .ok bytes => if same sys (sys.sha256Hex bytes) entry.sha256 then none else some ⟨.hashMismatch, entry.path⟩

def unexpectedFile (listed : List ManifestFile) (file : FoundFile) : Option BundleProblem :=
  if same sys file.path manifestFileName || listed.any fun entry => same sys file.path entry.path then none
  else some ⟨.unexpectedFile, printable file.path⟩

def unexpectedDirectory (folders : List Text) (path : Text) : Option BundleProblem :=
  if folders.any (same sys path) then none else some ⟨.unexpectedDirectory, printable path⟩

/-! ### The verifier -/

/-- The manifest's bytes, or the problem for which they are not read. -/
def readManifest (walk : Walk) : Except BundleProblemCode Bytes :=
  match walk.files.find? fun file => same sys manifestFileName file.path with
  | none => .error .manifestMissing
  | some file =>
      if file.name ≠ manifestFileName then .error .manifestMissing
      else if maxManifestBytes < file.length then .error .limitExceeded
      else
        match file.content with
        | .error failure => .error failure.code
        | .ok bytes => if maxManifestBytes < bytes.length then .error .limitExceeded else .ok bytes

/-- The listed paths and the inventory, once the manifest is parsed. -/
def verifyManifest (walk : Walk) (manifest : Manifest) (expectedVersion : Option Text) : BundleVerification :=
  let listing := manifest.files.foldl (list sys) ⟨[], [], checkNames manifest expectedVersion walk.report⟩
  let folders := listedFolders listing.listed
  let report := reportEach (collision sys folders) listing.listed listing.report
  if report.any then report.result (some manifest.version) manifest.files.length
  else
    let report := reportEach (inventoryProblem sys walk) listing.listed report
    let report := reportEach (unexpectedFile sys listing.listed) walk.files report
    let report := reportEach (unexpectedDirectory sys folders) walk.directories report
    report.result (some manifest.version) manifest.files.length

/-- The bundle, once its tree is walked. -/
def verifyTree (walk : Walk) (expectedHash : Text) (expectedVersion : Option Text) : BundleVerification :=
  if walk.report.any then walk.report.result none 0
  else
    match readManifest sys walk with
    | .error code => (walk.report.add code manifestFileName).result none 0
    | .ok bytes =>
        if !same sys (sys.sha256Hex bytes) expectedHash then (walk.report.add .manifestHashMismatch manifestFileName).result none 0
        else
          match parse sys bytes with
          | .error code => (walk.report.add code manifestFileName).result none 0
          | .ok manifest => verifyManifest sys walk manifest expectedVersion

def checkRequest (root : Option Root) (expectedHash : Text) (expectedVersion : Option Text) : Report :=
  let report := if isSha256 expectedHash then Report.empty else Report.empty.add .expectedHashInvalid []
  let report := if expectedVersion.all isValidVersion then report else report.add .versionInvalid []
  if root.isSome then report else report.add .bundleRootInvalid []

/-- `Verify`; no root is a path that is not absolute, or that of a drive or a share. -/
def verify (root : Option Root) (expectedManifestSha256 : Text) (expectedVersion : Option Text) : BundleVerification :=
  let report := checkRequest root (sys.trim expectedManifestSha256) expectedVersion
  match root with
  | none => report.result none 0
  | some root =>
      if report.any then report.result none 0
      else verifyTree sys (walkRoot sys root) (sys.trim expectedManifestSha256) expectedVersion

end BundleVerifier

end SortView
