import Mathlib.Data.List.Forall2
import Mathlib.Data.List.Pairwise
import SortView.Installer.BundleWalk

/-!
# The bundles that are accepted

A bundle is verified exactly where its manifest has the expected hash and the schema, and the entries under the bundle folder are the
manifest, the listed files with their sizes and hashes, and the folders of these.
-/

namespace SortView

open PyText ByteLines

namespace BundleVerifier

/-! ### What a manifest says -/

/-- The value of one listed file. -/
structure FileValue (items : List (Text × Value)) (file : ManifestFile) : Prop where
  members : items.length = entryKeys.length
  path : items.lookup "path".toList = some (.text file.path)
  sha256 : items.lookup "sha256".toList = some (.text file.sha256)
  sizeBytes : items.lookup "size_bytes".toList = some (.integer file.sizeBytes)
  hexadecimal : isSha256 file.sha256 = true

/-- The value of a manifest. -/
structure ManifestValue (items : List (Text × Value)) (manifest : Manifest) : Prop where
  members : items.length = topLevelKeys.length
  product : items.lookup "product".toList = some (.text manifest.product)
  version : items.lookup "version".toList = some (.text manifest.version)
  builtAt : ∃ builtAt, items.lookup "built_at".toList = some (.text builtAt)
  files : ∃ values, items.lookup "files".toList = some (.array values) ∧ values.length ≤ maxEntries
    ∧ List.Forall₂ (fun value file => ∃ items, value = .dictionary items ∧ FileValue items file) values manifest.files

theorem tryString_eq_some {items : List (Text × Value)} {key value : Text} :
    tryString items key = some value ↔ items.lookup key = some (.text value) := by
  rw [tryString]
  constructor
  · intro h
    split at h
    · next found hfound => rw [hfound, Option.some.inj h]
    · cases h
  · intro h
    rw [h]

theorem tryNonNegativeInteger_eq_some {items : List (Text × Value)} {key : Text} {value : Nat} :
    tryNonNegativeInteger items key = some value ↔ items.lookup key = some (.integer value) := by
  rw [tryNonNegativeInteger]
  constructor
  · intro h
    split at h
    · next found hfound =>
      split at h
      · next hpos =>
        rw [hfound, ← Option.some.inj h, Int.toNat_of_nonneg hpos]
      · cases h
    · cases h
  · intro h
    rw [h]
    exact if_pos (Int.natCast_nonneg value)

theorem tryFiles_eq_some {items : List (Text × Value)} {key : Text} {values : List Value} :
    tryFiles items key = some values ↔ items.lookup key = some (.array values) := by
  rw [tryFiles]
  constructor
  · intro h
    split at h
    · next found hfound => rw [hfound, Option.some.inj h]
    · cases h
  · intro h
    rw [h]

theorem parseFile_eq_some {value : Value} {file : ManifestFile} :
    parseFile value = some file ↔ ∃ items, value = .dictionary items ∧ FileValue items file := by
  constructor
  · intro h
    cases value with
    | dictionary items =>
        rw [parseFile] at h
        obtain ⟨path, hpath, h⟩ := Option.bind_eq_some_iff.1 h
        obtain ⟨sha256, hsha256, h⟩ := Option.bind_eq_some_iff.1 h
        obtain ⟨sizeBytes, hsize, h⟩ := Option.bind_eq_some_iff.1 h
        split at h
        · next hboth =>
          cases h
          rw [Bool.and_eq_true, hasExactly, Bool.and_eq_true] at hboth
          exact ⟨items, rfl, of_decide_eq_true hboth.1.1, tryString_eq_some.1 hpath, tryString_eq_some.1 hsha256,
            tryNonNegativeInteger_eq_some.1 hsize, hboth.2⟩
        · cases h
    | _ => cases h
  · rintro ⟨items, rfl, hmembers, hpath, hsha256, hsize, hhex⟩
    have hexactly : hasExactly items entryKeys = true := by
      rw [hasExactly, Bool.and_eq_true]
      refine ⟨decide_eq_true hmembers, ?_⟩
      simp only [entryKeys, List.all_cons, List.all_nil, hpath, hsha256, hsize]
      rfl
    rw [parseFile, tryString_eq_some.2 hpath, tryString_eq_some.2 hsha256, tryNonNegativeInteger_eq_some.2 hsize]
    simp only [Option.bind_eq_bind, Option.bind_some, hexactly, hhex]
    rfl

theorem parseFiles_eq_ok {values : List Value} : ∀ {count : Nat} (files : List ManifestFile), count ≤ maxEntries →
    (parseFiles count values = .ok files ↔ count + values.length ≤ maxEntries
      ∧ List.Forall₂ (fun value file => ∃ items, value = .dictionary items ∧ FileValue items file) values files) := by
  induction values with
  | nil =>
      intro count files hcount
      rw [parseFiles, List.forall₂_nil_left_iff, Except.ok.injEq, eq_comm]
      exact ⟨fun h => ⟨hcount, h⟩, And.right⟩
  | cons value values ih =>
      intro count files hcount
      rw [parseFiles, List.forall₂_cons_left_iff, List.length_cons]
      split
      · next hfull =>
        refine ⟨fun h => (nomatch h), fun h => ?_⟩
        omega
      · next hroom =>
        have hrest := fun files => ih files (Nat.not_le.1 hroom)
        split
        · next hnone =>
          refine ⟨fun h => (nomatch h), ?_⟩
          rintro ⟨-, file, others, hfile, -, -⟩
          rw [parseFile_eq_some.2 hfile] at hnone
          cases hnone
        · next file hfile =>
          constructor
          · intro h
            cases hothers : parseFiles (count + 1) values with
            | error code =>
                rw [hothers] at h
                cases h
            | ok others =>
                rw [hothers] at h
                obtain ⟨hlength, hforall⟩ := (hrest others).1 hothers
                exact ⟨by omega, file, others, parseFile_eq_some.1 hfile, hforall, (Except.ok.inj h).symm⟩
          · rintro ⟨hlength, other, others, hother, hforall, rfl⟩
            rw [parseFile_eq_some.2 hother] at hfile
            obtain rfl := Option.some.inj hfile
            rw [(hrest others).2 ⟨by omega, hforall⟩]
            rfl

variable (sys : System)

/-- A manifest is read exactly from a value of the schema. -/
theorem parse_eq_ok {bytes : Bytes} {manifest : Manifest} :
    parse sys bytes = .ok manifest ↔ ∃ items, sys.deserializeObject bytes = some (.dictionary items) ∧ ManifestValue items manifest := by
  rw [parse]
  constructor
  · intro h
    split at h
    · cases h
    · next product version values htop =>
      cases hfiles : parseFiles 0 values with
      | error code =>
          rw [hfiles] at h
          cases h
      | ok files =>
          rw [hfiles] at h
          cases h
          obtain ⟨hlength, hforall⟩ := (parseFiles_eq_ok _ (Nat.zero_le _)).1 hfiles
          cases hvalue : sys.deserializeObject bytes with
          | none =>
              rw [hvalue] at htop
              cases htop
          | some value =>
              rw [hvalue] at htop
              cases value with
              | dictionary items =>
                  rw [parseTop] at htop
                  obtain ⟨product', hproduct, htop⟩ := Option.bind_eq_some_iff.1 htop
                  obtain ⟨version', hversion, htop⟩ := Option.bind_eq_some_iff.1 htop
                  obtain ⟨builtAt, hbuilt, htop⟩ := Option.bind_eq_some_iff.1 htop
                  obtain ⟨values', hvalues, htop⟩ := Option.bind_eq_some_iff.1 htop
                  split at htop
                  · next hexactly =>
                    cases htop
                    rw [hasExactly, Bool.and_eq_true] at hexactly
                    exact ⟨items, rfl, of_decide_eq_true hexactly.1, tryString_eq_some.1 hproduct, tryString_eq_some.1 hversion,
                      ⟨builtAt, tryString_eq_some.1 hbuilt⟩, values, tryFiles_eq_some.1 hvalues, by omega, hforall⟩
                  · cases htop
              | _ => cases htop
  · rintro ⟨items, hvalue, hmembers, hproduct, hversion, ⟨builtAt, hbuilt⟩, values, hvalues, hlength, hforall⟩
    have hexactly : hasExactly items topLevelKeys = true := by
      rw [hasExactly, Bool.and_eq_true]
      refine ⟨decide_eq_true hmembers, ?_⟩
      simp only [topLevelKeys, List.all_cons, List.all_nil, hproduct, hversion, hbuilt, hvalues]
      rfl
    have htop : parseTop (sys.deserializeObject bytes) = some (manifest.product, manifest.version, values) := by
      rw [hvalue, parseTop, tryString_eq_some.2 hproduct, tryString_eq_some.2 hversion, tryString_eq_some.2 hbuilt,
        tryFiles_eq_some.2 hvalues]
      simp only [Option.bind_eq_bind, Option.bind_some, hexactly]
      rfl
    rw [htop]
    dsimp only
    rw [(parseFiles_eq_ok _ (Nat.zero_le _)).2 ⟨by omega, hforall⟩]
    rfl

/-! ### Problems -/

theorem not_isVerified {report : Report} (h : report.problems ≠ []) (version : Option Text) (fileCount : Nat) :
    (report.result version fileCount).isVerified = false := by
  rw [Report.result]
  dsimp only
  cases hproblems : report.problems with
  | nil => exact absurd hproblems h
  | cons problem problems => rfl

theorem problems_eq_nil {report : Report} {version : Option Text} {fileCount : Nat}
    (h : (report.result version fileCount).isVerified = true) : report.problems = [] := by
  by_contra hne
  rw [not_isVerified hne] at h
  cases h

section Each

variable {α : Type} {problem : α → Option BundleProblem} {elements : List α} {report : Report}

theorem reportEach_of_none (h : ∀ element ∈ elements, problem element = none) : reportEach problem elements report = report := by
  induction elements with
  | nil => rfl
  | cons element elements ih =>
      rw [List.forall_mem_cons] at h
      rw [reportEach, List.foldl_cons, h.1]
      exact ih h.2

theorem reportEach_nil (h : (reportEach problem elements report).problems = []) :
    report.problems = [] ∧ ∀ element ∈ elements, problem element = none := by
  induction elements generalizing report with
  | nil => exact ⟨h, fun _ hmem => (nomatch hmem)⟩
  | cons element elements ih =>
      rw [reportEach, List.foldl_cons] at h
      obtain ⟨hfirst, hrest⟩ := ih h
      cases hproblem : problem element with
      | none =>
          rw [hproblem] at hfirst
          exact ⟨hfirst, List.forall_mem_cons.2 ⟨hproblem, hrest⟩⟩
      | some found =>
          rw [hproblem] at hfirst
          exact absurd hfirst (Report.add_ne_nil _ _ _)

end Each

/-! ### The listed paths -/

/-- A path that a manifest may list. -/
structure ManifestFile.Listable (file : ManifestFile) : Prop where
  safe : isSafeRelativePath sys file.path = true
  other : same sys file.path manifestFileName = false

/-- What is asked of a manifest beside the schema. -/
structure Manifest.WellFormed (manifest : Manifest) (expectedVersion : Option Text) : Prop where
  product : manifest.product = productName
  version : isValidVersion manifest.version = true
  expected : ∀ version ∈ expectedVersion, version = manifest.version
  listable : ∀ file ∈ manifest.files, file.Listable sys
  distinct : manifest.files.Pairwise fun first second => same sys first.path second.path = false
  /-- No listed path is a folder of another. -/
  plain : ∀ file ∈ manifest.files, ∀ other ∈ manifest.files, ∀ folder ∈ folderPrefixes other.path, same sys file.path folder = false

theorem checkNames_eq {manifest : Manifest} {expectedVersion : Option Text} (hproduct : manifest.product = productName)
    (hversion : isValidVersion manifest.version = true) (hexpected : ∀ version ∈ expectedVersion, version = manifest.version)
    (report : Report) : checkNames manifest expectedVersion report = report := by
  have hsame : ¬ expectedVersion.any (· ≠ manifest.version) = true := by
    cases expectedVersion with
    | none => exact Bool.false_ne_true
    | some version => simp [hexpected version rfl]
  rw [checkNames, if_pos hproduct, hversion]
  rw [if_neg (by decide), if_neg hsame]

theorem checkNames_nil {manifest : Manifest} {expectedVersion : Option Text} {report : Report}
    (h : (checkNames manifest expectedVersion report).problems = []) :
    report.problems = [] ∧ manifest.product = productName ∧ isValidVersion manifest.version = true
      ∧ ∀ version ∈ expectedVersion, version = manifest.version := by
  rw [checkNames] at h
  split at h
  · exact absurd h (Report.add_ne_nil _ _ _)
  next hversion =>
  split at h
  · exact absurd h (Report.add_ne_nil _ _ _)
  next hexpected =>
  split at h
  · next hproduct =>
    refine ⟨h, hproduct, by simpa using hversion, fun version hmem => ?_⟩
    obtain rfl := Option.mem_def.1 hmem
    simpa using hexpected
  · exact absurd h (Report.add_ne_nil _ _ _)

variable {sys}

/-- The exact paths of a listing stay those of its files. -/
theorem exact_append {listing : Listing} (hexact : listing.exact = listing.listed.map ManifestFile.path) (entry : ManifestFile) :
    (⟨listing.listed ++ [entry], listing.exact ++ [entry.path], listing.report⟩ : Listing).exact
      = (listing.listed ++ [entry]).map ManifestFile.path := by
  rw [hexact, List.map_append]
  rfl

theorem list_of_new {listing : Listing} {entry : ManifestFile} (hexact : listing.exact = listing.listed.map ManifestFile.path)
    (hlistable : entry.Listable sys) (hnew : ∀ other ∈ listing.listed, same sys entry.path other.path = false) :
    list sys listing entry = ⟨listing.listed ++ [entry], listing.exact ++ [entry.path], listing.report⟩ := by
  have hunseen : ¬ listing.exact.contains entry.path = true := by
    intro hseen
    rw [List.contains_iff_mem, hexact] at hseen
    obtain ⟨other, hmem, hpath⟩ := List.mem_map.1 hseen
    have hsame := hnew other hmem
    rw [hpath, same, decide_eq_true rfl] at hsame
    cases hsame
  have hdistinct : ¬ (listing.listed.any fun other => same sys entry.path other.path) = true := by
    rw [Bool.not_eq_true, List.any_eq_false]
    exact fun other hmem => Bool.eq_false_iff.1 (hnew other hmem)
  rw [list, hlistable.safe, hlistable.other, if_neg (by decide), if_neg hunseen, if_neg hdistinct]

theorem new_of_list {listing : Listing} {entry : ManifestFile} (h : (list sys listing entry).report.problems = []) :
    entry.Listable sys ∧ ∀ other ∈ listing.listed, same sys entry.path other.path = false := by
  rw [list] at h
  split at h
  · exact absurd h (Report.add_ne_nil _ _ _)
  next hlistable =>
  split at h
  · exact absurd h (Report.add_ne_nil _ _ _)
  split at h
  · exact absurd h (Report.add_ne_nil _ _ _)
  next hdistinct =>
  rw [Bool.not_eq_true, Bool.or_eq_false_iff, Bool.not_eq_false'] at hlistable
  rw [Bool.not_eq_true, List.any_eq_false] at hdistinct
  exact ⟨⟨hlistable.1, hlistable.2⟩, fun other hmem => Bool.eq_false_iff.2 (hdistinct other hmem)⟩

theorem list_ne_nil {listing : Listing} (entry : ManifestFile) (h : listing.report.problems ≠ []) :
    (list sys listing entry).report.problems ≠ [] := by
  rw [list]
  split
  · exact Report.add_ne_nil _ _ _
  · split
    · exact Report.add_ne_nil _ _ _
    · split
      · exact Report.add_ne_nil _ _ _
      · exact h

theorem foldl_list_ne_nil {files : List ManifestFile} {listing : Listing} (h : listing.report.problems ≠ []) :
    (files.foldl (list sys) listing).report.problems ≠ [] := by
  induction files generalizing listing with
  | nil => exact h
  | cons entry files ih => exact ih (list_ne_nil entry h)

theorem foldl_list_of_new {files : List ManifestFile} {listing : Listing}
    (hexact : listing.exact = listing.listed.map ManifestFile.path) (hlistable : ∀ file ∈ files, file.Listable sys)
    (hnew : ∀ file ∈ files, ∀ other ∈ listing.listed, same sys file.path other.path = false)
    (hdistinct : files.Pairwise fun first second => same sys first.path second.path = false) :
    (files.foldl (list sys) listing).listed = listing.listed ++ files ∧ (files.foldl (list sys) listing).report = listing.report := by
  induction files generalizing listing with
  | nil => exact ⟨(List.append_nil _).symm, rfl⟩
  | cons entry files ih =>
      rw [List.forall_mem_cons] at hlistable hnew
      rw [List.pairwise_cons] at hdistinct
      rw [List.foldl_cons, list_of_new hexact hlistable.1 hnew.1]
      have hnext : ∀ file ∈ files, ∀ other ∈ listing.listed ++ [entry], same sys file.path other.path = false := by
        intro file hmem other hother
        rcases List.mem_append.1 hother with hother | hother
        · exact hnew.2 file hmem other hother
        · obtain rfl := List.mem_singleton.1 hother
          exact (same_symm sys).trans (hdistinct.1 file hmem)
      obtain ⟨hlisted, hreport⟩ := ih (exact_append hexact entry) hlistable.2 hnext hdistinct.2
      rw [List.append_assoc, List.singleton_append] at hlisted
      exact ⟨hlisted, hreport⟩

theorem new_of_foldl_list {files : List ManifestFile} {listing : Listing}
    (hexact : listing.exact = listing.listed.map ManifestFile.path) (h : (files.foldl (list sys) listing).report.problems = []) :
    listing.report.problems = [] ∧ (∀ file ∈ files, file.Listable sys)
      ∧ (∀ file ∈ files, ∀ other ∈ listing.listed, same sys file.path other.path = false)
      ∧ files.Pairwise fun first second => same sys first.path second.path = false := by
  induction files generalizing listing with
  | nil => exact ⟨h, fun _ hmem => (nomatch hmem), fun _ hmem => (nomatch hmem), .nil⟩
  | cons entry files ih =>
      rw [List.foldl_cons] at h
      have hfirst : (list sys listing entry).report.problems = [] := by
        by_contra hne
        exact foldl_list_ne_nil hne h
      obtain ⟨hlistable, hnew⟩ := new_of_list hfirst
      rw [list_of_new hexact hlistable hnew] at h
      obtain ⟨hreport, hrest, hlater, hdistinct⟩ := ih (exact_append hexact entry) h
      refine ⟨hreport, List.forall_mem_cons.2 ⟨hlistable, hrest⟩, List.forall_mem_cons.2 ⟨hnew, ?_⟩, List.pairwise_cons.2 ⟨?_, hdistinct⟩⟩
      · exact fun file hmem other hother => hlater file hmem other (List.mem_append_left _ hother)
      · exact fun file hmem => (same_symm sys).trans (hlater file hmem entry (List.mem_append_right _ (.head _)))

theorem collision_eq_none {folders : List Text} {entry : ManifestFile} :
    collision sys folders entry = none ↔ ∀ folder ∈ folders, same sys entry.path folder = false := by
  rw [collision]
  constructor
  · intro h
    split at h
    · cases h
    · next hnone =>
      rw [Bool.not_eq_true, List.any_eq_false] at hnone
      exact fun folder hmem => Bool.eq_false_iff.2 (hnone folder hmem)
  · intro h
    refine if_neg ?_
    rw [Bool.not_eq_true, List.any_eq_false]
    exact fun folder hmem => Bool.eq_false_iff.1 (h folder hmem)

theorem mem_listedFolders {files : List ManifestFile} {folder : Text} :
    folder ∈ listedFolders files ↔ ∃ file ∈ files, folder ∈ folderPrefixes file.path :=
  List.mem_flatMap

/-! ### The tree -/

/-- A walk that has found the entries, which have distinct paths. -/
structure Tree (sys : System) (walk : Walk) (entries : List Entry) : Prop where
  report : walk.report = Report.empty
  files : ∀ file, file ∈ walk.files ↔ ∃ entry ∈ entries, entry.file? = some file
  directories : ∀ path, path ∈ walk.directories ↔ ∃ entry ∈ entries, entry.directory? = some path
  unique : ∀ first ∈ walk.files, ∀ second ∈ walk.files, same sys first.path second.path = true → first = second

theorem file?_eq_some {entry : Entry} {file : FoundFile} :
    entry.file? = some file ↔ entry = ⟨file.path, file.name, .file file.length file.content⟩ := by
  obtain ⟨path, name, node⟩ := entry
  obtain ⟨filePath, fileName, length, content⟩ := file
  cases node <;> simp [Entry.file?, eq_comm]

/-- The file that a path finds. -/
theorem Tree.find? {walk : Walk} {entries : List Entry} (h : Tree sys walk entries) {path : Text} {file : FoundFile}
    (hmem : file ∈ walk.files) (hpath : same sys path file.path = true) :
    (walk.files.find? fun file => same sys path file.path) = some file := by
  cases hfind : walk.files.find? fun file => same sys path file.path with
  | none => exact absurd hpath (List.find?_eq_none.1 hfind file hmem)
  | some found =>
      have hfound : same sys path found.path = true := by simpa using List.find?_some hfind
      rw [h.unique found (List.mem_of_find?_eq_some hfind) file hmem (same_trans sys ((same_symm sys).trans hfound) hpath)]

theorem tree_of_found {walk : Walk} {entries : List Entry} {listing : Except ReadFailure (List (Text × Node))}
    (hfound : Found (.begin listing) walk entries) (hgood : Good sys (.begin listing) entries) : Tree sys walk entries where
  report := hfound.report
  files file := by
    rw [hfound.files.mem_iff]
    exact List.mem_filterMap
  directories path := by
    rw [hfound.directories.mem_iff]
    exact List.mem_filterMap
  unique := by
    intro first hfirst second hsecond hsame
    rw [hfound.files.mem_iff] at hfirst hsecond
    obtain ⟨entry, hentry, hfile⟩ := List.mem_filterMap.1 hfirst
    obtain ⟨other, hother, hotherFile⟩ := List.mem_filterMap.1 hsecond
    have hpaths : same sys entry.path other.path = true := by
      rw [file?_eq_some.1 hfile, file?_eq_some.1 hotherFile]
      exact hsame
    have hequal : entry = other := by
      by_contra hne
      have hsymm : Std.Symm fun first second : Entry => same sys first.path second.path = false :=
        ⟨fun _ _ hdifferent => (same_symm sys).trans hdifferent⟩
      have hdistinct := hgood.distinct.forall hentry hother hne
      rw [hpaths] at hdistinct
      cases hdistinct
    rw [hequal, hotherFile] at hfile
    exact (Option.some.inj hfile).symm

/-! ### The bundle -/

variable (sys)

/-- The listed file stands on the disk. -/
structure ManifestFile.Present (file : ManifestFile) (entry : Entry) : Prop where
  path : same sys file.path entry.path = true
  content : ∃ bytes, entry.node = .file file.sizeBytes (.ok bytes) ∧ same sys (sys.sha256Hex bytes) file.sha256 = true

/-- The files are the manifest and the listed ones, and each folder is one of a listed file. -/
structure Manifest.Describes (manifest : Manifest) (entries : List Entry) : Prop where
  present : ∀ file ∈ manifest.files, ∃ entry ∈ entries, file.Present sys entry
  files : ∀ entry ∈ entries, ∀ found ∈ entry.file?,
    same sys found.path manifestFileName = true ∨ ∃ file ∈ manifest.files, same sys found.path file.path = true
  folders : ∀ entry ∈ entries, ∀ path ∈ entry.directory?,
    ∃ file ∈ manifest.files, ∃ folder ∈ folderPrefixes file.path, same sys path folder = true

/-- The bytes are those of the manifest's file. -/
structure ManifestEntry (entry : Entry) (bytes : Bytes) : Prop where
  path : same sys manifestFileName entry.path = true
  name : entry.name = manifestFileName
  content : ∃ length, entry.node = .file length (.ok bytes) ∧ length ≤ maxManifestBytes
  length : bytes.length ≤ maxManifestBytes

/-- A bundle folder that is accepted for a hash and a version. -/
structure Accepted (children : List (Text × Node)) (expectedHash : Text) (expectedVersion : Option Text) : Prop where
  hash : isSha256 expectedHash = true
  version : ∀ version ∈ expectedVersion, isValidVersion version = true
  fit : ∀ entry ∈ entriesUnder [] children, entry.Fit
  few : (entriesUnder [] children).length ≤ maxEntries
  distinct : (entriesUnder [] children).Pairwise fun first second => same sys first.path second.path = false
  manifest : ∃ bytes items manifest, (∃ entry ∈ entriesUnder [] children, ManifestEntry sys entry bytes)
    ∧ same sys (sys.sha256Hex bytes) expectedHash = true ∧ sys.deserializeObject bytes = some (.dictionary items)
    ∧ ManifestValue items manifest ∧ manifest.WellFormed sys expectedVersion ∧ manifest.Describes sys (entriesUnder [] children)

variable {sys} {walk : Walk} {entries : List Entry}

theorem inventoryProblem_eq_none (htree : Tree sys walk entries) {file : ManifestFile} :
    inventoryProblem sys walk file = none ↔ ∃ entry ∈ entries, file.Present sys entry := by
  rw [inventoryProblem]
  constructor
  · intro h
    split at h
    · cases h
    next found hfind =>
    split at h
    · cases h
    next hlength =>
    split at h
    · cases h
    next bytes hcontent =>
    split at h
    · next hhash =>
      obtain ⟨entry, hentry, hfile⟩ := (htree.files found).1 (List.mem_of_find?_eq_some hfind)
      have hnode := file?_eq_some.1 hfile
      have hpath : same sys file.path found.path = true := by simpa using List.find?_some hfind
      rw [not_not] at hlength
      exact ⟨entry, hentry, hnode ▸ hpath, bytes, by rw [hnode, hcontent, hlength], hhash⟩
    · cases h
  · rintro ⟨entry, hentry, hpath, bytes, hnode, hhash⟩
    have hfound : (⟨entry.path, entry.name, file.sizeBytes, .ok bytes⟩ : FoundFile) ∈ walk.files :=
      (htree.files _).2 ⟨entry, hentry, file?_eq_some.2 (by rw [← hnode])⟩
    rw [htree.find? hfound hpath]
    dsimp only
    rw [if_neg (not_not.2 rfl), if_pos hhash]

theorem unexpectedFile_eq_none {listed : List ManifestFile} {file : FoundFile} :
    unexpectedFile sys listed file = none
      ↔ same sys file.path manifestFileName = true ∨ ∃ entry ∈ listed, same sys file.path entry.path = true := by
  rw [unexpectedFile, ← List.any_eq_true, ← Bool.or_eq_true]
  exact ⟨fun h => by_contra fun hne => by simp [hne] at h, fun h => if_pos h⟩

theorem unexpectedDirectory_eq_none {folders : List Text} {path : Text} :
    unexpectedDirectory sys folders path = none ↔ ∃ folder ∈ folders, same sys path folder = true := by
  rw [unexpectedDirectory, ← List.any_eq_true]
  exact ⟨fun h => by_contra fun hne => by simp [hne] at h, fun h => if_pos h⟩

theorem readManifest_eq_ok (htree : Tree sys walk entries) {bytes : Bytes} :
    readManifest sys walk = .ok bytes ↔ ∃ entry ∈ entries, ManifestEntry sys entry bytes := by
  rw [readManifest]
  constructor
  · intro h
    split at h
    · cases h
    next found hfind =>
    split at h
    · cases h
    next hname =>
    split at h
    · cases h
    next hlength =>
    split at h
    · cases h
    next content hcontent =>
    split at h
    · cases h
    next hbytes =>
    cases h
    obtain ⟨entry, hentry, hfile⟩ := (htree.files found).1 (List.mem_of_find?_eq_some hfind)
    have hnode := file?_eq_some.1 hfile
    have hpath : same sys manifestFileName found.path = true := by simpa using List.find?_some hfind
    refine ⟨entry, hentry, hnode ▸ hpath, ?_, ⟨found.length, ?_, Nat.not_lt.1 hlength⟩, Nat.not_lt.1 hbytes⟩
    · rw [hnode]
      exact not_not.1 hname
    · rw [hnode, hcontent]
  · rintro ⟨entry, hentry, hpath, hname, ⟨length, hnode, hlength⟩, hbytes⟩
    have hfound : (⟨entry.path, entry.name, length, .ok bytes⟩ : FoundFile) ∈ walk.files :=
      (htree.files _).2 ⟨entry, hentry, file?_eq_some.2 (by rw [← hnode])⟩
    rw [htree.find? hfound hpath]
    dsimp only
    rw [if_neg (not_not.2 hname), if_neg (Nat.not_lt.2 hlength), if_neg (Nat.not_lt.2 hbytes)]

theorem any_eq_false {report : Report} : report.any = false ↔ report.problems = [] := by
  rw [Report.any, Bool.not_eq_false', List.isEmpty_iff]

theorem describes_of_none (htree : Tree sys walk entries) {manifest : Manifest}
    (hinventory : ∀ file ∈ manifest.files, inventoryProblem sys walk file = none)
    (hfiles : ∀ file ∈ walk.files, unexpectedFile sys manifest.files file = none)
    (hdirectories : ∀ path ∈ walk.directories, unexpectedDirectory sys (listedFolders manifest.files) path = none) :
    manifest.Describes sys entries where
  present file hmem := (inventoryProblem_eq_none htree).1 (hinventory file hmem)
  files entry hmem found hfound := unexpectedFile_eq_none.1 (hfiles found ((htree.files found).2 ⟨entry, hmem, hfound⟩))
  folders entry hmem path hpath := by
    obtain ⟨folder, hfolder, hsame⟩ :=
      unexpectedDirectory_eq_none.1 (hdirectories path ((htree.directories path).2 ⟨entry, hmem, hpath⟩))
    obtain ⟨file, hfile, hprefixes⟩ := mem_listedFolders.1 hfolder
    exact ⟨file, hfile, folder, hprefixes, hsame⟩

/-- The listed paths and the inventory are accepted exactly for a manifest that describes the entries. -/
theorem verifyManifest_iff (htree : Tree sys walk entries) {manifest : Manifest} {expectedVersion : Option Text} :
    (verifyManifest sys walk manifest expectedVersion).isVerified = true
      ↔ manifest.WellFormed sys expectedVersion ∧ manifest.Describes sys entries := by
  rw [verifyManifest]
  dsimp only
  constructor
  · intro h
    split at h
    · next hany =>
      have hproblem : _ ≠ [] := fun hnil => Bool.false_ne_true ((any_eq_false.2 hnil).symm.trans hany)
      rw [not_isVerified hproblem] at h
      cases h
    next hany =>
    obtain ⟨hbefore, hfolders⟩ := reportEach_nil (problems_eq_nil h)
    obtain ⟨hbefore, hfiles⟩ := reportEach_nil hbefore
    obtain ⟨hbefore, hinventory⟩ := reportEach_nil hbefore
    obtain ⟨hlisting, hcollision⟩ := reportEach_nil hbefore
    have hexact : (⟨[], [], checkNames manifest expectedVersion walk.report⟩ : Listing).exact = [] := rfl
    obtain ⟨hnames, hlistable, hnew, hdistinct⟩ := new_of_foldl_list hexact hlisting
    obtain ⟨-, hproduct, hversion, hexpected⟩ := checkNames_nil hnames
    obtain ⟨hlisted, -⟩ := foldl_list_of_new hexact hlistable hnew hdistinct
    rw [List.nil_append] at hlisted
    rw [hlisted] at hcollision hinventory hfiles hfolders
    refine ⟨⟨hproduct, hversion, hexpected, hlistable, hdistinct, ?_⟩, describes_of_none htree hinventory hfiles hfolders⟩
    intro file hfile other hother folder hfolder
    exact collision_eq_none.1 (hcollision file hfile) folder (mem_listedFolders.2 ⟨other, hother, hfolder⟩)
  · rintro ⟨⟨hproduct, hversion, hexpected, hlistable, hdistinct, hplain⟩, ⟨hpresent, hfiles, hfolders⟩⟩
    have hexact : (⟨[], [], walk.report⟩ : Listing).exact = [] := rfl
    obtain ⟨hlisted, hreport⟩ := foldl_list_of_new hexact hlistable (fun _ _ _ hother => nomatch hother) hdistinct
    rw [List.nil_append] at hlisted
    rw [checkNames_eq hproduct hversion hexpected, hlisted, hreport, htree.report]
    have hcollision : ∀ file ∈ manifest.files, collision sys (listedFolders manifest.files) file = none := by
      intro file hfile
      refine collision_eq_none.2 fun folder hfolder => ?_
      obtain ⟨other, hother, hprefixes⟩ := mem_listedFolders.1 hfolder
      exact hplain file hfile other hother folder hprefixes
    have hinventory : ∀ file ∈ manifest.files, inventoryProblem sys walk file = none := fun file hfile =>
      (inventoryProblem_eq_none htree).2 (hpresent file hfile)
    have hexpectedFiles : ∀ file ∈ walk.files, unexpectedFile sys manifest.files file = none := by
      intro file hfile
      obtain ⟨entry, hentry, hfound⟩ := (htree.files file).1 hfile
      exact unexpectedFile_eq_none.2 (hfiles entry hentry file hfound)
    have hdirectories : ∀ path ∈ walk.directories, unexpectedDirectory sys (listedFolders manifest.files) path = none := by
      intro path hpath
      obtain ⟨entry, hentry, hfound⟩ := (htree.directories path).1 hpath
      obtain ⟨file, hfile, folder, hprefixes, hsame⟩ := hfolders entry hentry path hfound
      exact unexpectedDirectory_eq_none.2 ⟨folder, mem_listedFolders.2 ⟨file, hfile, hprefixes⟩, hsame⟩
    rw [reportEach_of_none hcollision, reportEach_of_none hinventory, reportEach_of_none hexpectedFiles, reportEach_of_none hdirectories]
    rfl

theorem verifyTree_iff (htree : Tree sys walk entries) {expectedHash : Text} {expectedVersion : Option Text} :
    (verifyTree sys walk expectedHash expectedVersion).isVerified = true
      ↔ ∃ bytes items manifest, (∃ entry ∈ entries, ManifestEntry sys entry bytes) ∧ same sys (sys.sha256Hex bytes) expectedHash = true
        ∧ sys.deserializeObject bytes = some (.dictionary items) ∧ ManifestValue items manifest
        ∧ manifest.WellFormed sys expectedVersion ∧ manifest.Describes sys entries := by
  have hany : ¬ walk.report.any = true := by
    rw [htree.report]
    exact Bool.false_ne_true
  rw [verifyTree, if_neg hany]
  constructor
  · intro h
    split at h
    · exact absurd (problems_eq_nil h) (Report.add_ne_nil _ _ _)
    next bytes hbytes =>
    split at h
    · exact absurd (problems_eq_nil h) (Report.add_ne_nil _ _ _)
    next hhash =>
    split at h
    · exact absurd (problems_eq_nil h) (Report.add_ne_nil _ _ _)
    next manifest hmanifest =>
    obtain ⟨items, hvalue, hmembers⟩ := (parse_eq_ok sys).1 hmanifest
    obtain ⟨hwell, hdescribes⟩ := (verifyManifest_iff htree).1 h
    rw [Bool.not_eq_true, Bool.not_eq_false'] at hhash
    exact ⟨bytes, items, manifest, (readManifest_eq_ok htree).1 hbytes, hhash, hvalue, hmembers, hwell, hdescribes⟩
  · rintro ⟨bytes, items, manifest, hentry, hhash, hvalue, hmembers, hwell, hdescribes⟩
    rw [(readManifest_eq_ok htree).2 hentry]
    dsimp only
    rw [hhash, if_neg (by decide), (parse_eq_ok sys).2 ⟨items, hvalue, hmembers⟩]
    exact (verifyManifest_iff htree).2 ⟨hwell, hdescribes⟩

/-! ### The request -/

theorem checkRequest_eq {root : Root} {expectedHash : Text} {expectedVersion : Option Text} (hhash : isSha256 expectedHash = true)
    (hversion : ∀ version ∈ expectedVersion, isValidVersion version = true) :
    checkRequest (some root) expectedHash expectedVersion = Report.empty := by
  have hall : expectedVersion.all isValidVersion = true := by
    cases expectedVersion with
    | none => rfl
    | some version => exact hversion version rfl
  rw [checkRequest, if_pos hhash, if_pos hall]
  rfl

theorem checkRequest_nil {root : Option Root} {expectedHash : Text} {expectedVersion : Option Text}
    (h : (checkRequest root expectedHash expectedVersion).problems = []) :
    isSha256 expectedHash = true ∧ (∀ version ∈ expectedVersion, isValidVersion version = true) ∧ root.isSome = true := by
  rw [checkRequest] at h
  split at h
  · next hroot =>
    split at h
    · next hall =>
      split at h
      · next hhash =>
        refine ⟨hhash, fun version hmem => ?_, hroot⟩
        obtain rfl := Option.mem_def.1 hmem
        exact hall
      · exact absurd h (Report.add_ne_nil _ _ _)
    · exact absurd h (Report.add_ne_nil _ _ _)
  · exact absurd h (Report.add_ne_nil _ _ _)

theorem pendingEntries_begin (children : List (Text × Node)) :
    pendingEntries (Walk.begin (.ok children)).pending = entriesUnder [] children :=
  List.append_nil _

theorem good_begin {children : List (Text × Node)} (hfit : ∀ entry ∈ entries, entry.Fit) (hfew : entries.length ≤ maxEntries)
    (hdistinct : entries.Pairwise fun first second => same sys first.path second.path = false) :
    Good sys (.begin (.ok children)) entries where
  fit := hfit
  few := (Nat.zero_add entries.length).trans_le hfew
  new := fun _ _ _ hpath => nomatch hpath
  distinct := hdistinct

theorem begin_folders (children : List (Text × Node)) :
    pendingFolders (Walk.begin (.ok children)).pending ≤ Node.foldersIn children + 1 :=
  Nat.le_refl _

/-- A tree is walked without a problem only from a folder, and then its entries are fit, few and distinct. -/
theorem good_of_walkRoot {root : Root} (h : (walkRoot sys root).report.problems = []) :
    ∃ children, root = .folder children ∧ Good sys (.begin (.ok children)) (entriesUnder [] children) := by
  cases root with
  | folder children =>
      obtain ⟨-, hgood⟩ := good_of_walkPending _ _ (begin_folders children) (Nat.zero_le _) h
      rw [pendingEntries_begin] at hgood
      exact ⟨children, rfl, hgood⟩
  | closedFolder failure =>
      obtain ⟨hpending, -⟩ := @good_of_walkPending sys 1 (Walk.begin (.error failure)) (Nat.le_refl _) (Nat.zero_le _) h
      exact absurd (hpending _ (.head _)).1 Bool.false_ne_true
  | _ => exact absurd h (Report.add_ne_nil _ _ _)

theorem tree_of_good {children : List (Text × Node)} (hgood : Good sys (.begin (.ok children)) (entriesUnder [] children)) :
    Tree sys (walkRoot sys (.folder children)) (entriesUnder [] children) := by
  have hpending : PendingFit (Walk.begin (.ok children)).pending := by
    intro item hmem
    obtain rfl := List.mem_singleton.1 hmem
    exact ⟨rfl, (by decide : 0 < maxDepth)⟩
  have hstart : Good sys (.begin (.ok children)) (pendingEntries (Walk.begin (.ok children)).pending) := pendingEntries_begin children ▸ hgood
  have hfound := walkPending_of_good _ _ (begin_folders children) hpending hstart
  rw [pendingEntries_begin] at hfound
  exact tree_of_found hfound hgood

/-- The verifier accepts exactly the bundles that their manifests describe. -/
theorem verify_accepts_exactly (sys : System) (root : Option Root) (expectedManifestSha256 : Text) (expectedVersion : Option Text) :
    (verify sys root expectedManifestSha256 expectedVersion).isVerified = true
      ↔ ∃ children, root = some (.folder children) ∧ Accepted sys children (sys.trim expectedManifestSha256) expectedVersion := by
  constructor
  · intro h
    rw [verify.eq_def] at h
    cases root with
    | none =>
        obtain ⟨-, -, hsome⟩ := checkRequest_nil (problems_eq_nil h)
        cases hsome
    | some root =>
        dsimp only at h
        split at h
        · next hany =>
          rw [any_eq_false.2 (problems_eq_nil h)] at hany
          cases hany
        next hany =>
        obtain ⟨hhash, hversion, -⟩ := checkRequest_nil (any_eq_false.1 (Bool.not_eq_true _ ▸ hany))
        have hwalk : (walkRoot sys root).report.problems = [] := by
          rw [verifyTree] at h
          split at h
          · exact problems_eq_nil h
          · next hclean => exact any_eq_false.1 (Bool.not_eq_true _ ▸ hclean)
        obtain ⟨children, rfl, hgood⟩ := good_of_walkRoot hwalk
        refine ⟨children, rfl, hhash, hversion, hgood.fit, (Nat.zero_add _).symm.trans_le hgood.few, hgood.distinct, ?_⟩
        exact (verifyTree_iff (tree_of_good hgood)).1 h
  · rintro ⟨children, rfl, hhash, hversion, hfit, hfew, hdistinct, hmanifest⟩
    rw [verify, checkRequest_eq hhash hversion, if_neg (by decide)]
    exact (verifyTree_iff (tree_of_good (good_begin hfit hfew hdistinct))).2 hmanifest

/-- One hash for all bytes, and a manifest of one file. -/
def sampleSystem : System where
  upper := Char.toUpper
  trim := id
  sha256Hex _ := List.replicate 64 'a'
  deserializeObject _ := some (.dictionary [("product".toList, .text productName), ("version".toList, .text "1.0.10".toList),
    ("built_at".toList, .text []), ("files".toList, .array [.dictionary [("path".toList, .text "bin/run.exe".toList),
      ("sha256".toList, .text (List.replicate 64 'A')), ("size_bytes".toList, .integer 1)]])])

def sampleBundle (more : List (Text × Node)) : Root :=
  .folder (("MANIFEST.json".toList, .file 2 (.ok [1, 2])) :: ("Bin".toList, .folder [("run.exe".toList, .file 1 (.ok [7]))]) :: more)

example : (verify sampleSystem (some (sampleBundle [])) (List.replicate 64 'A') (some "1.0.10".toList)).isVerified = true := by decide

-- a folder that no listed file is in
example : (verify sampleSystem (some (sampleBundle [("lib".toList, .folder [])])) (List.replicate 64 'A') none).isVerified = false := by
  decide

end BundleVerifier

end SortView
