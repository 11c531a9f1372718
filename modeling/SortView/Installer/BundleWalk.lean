import SortView.Installer.BundleVerifier

/-!
# What the walk of a bundle finds

The folders are walked from a stack. The walk reports nothing exactly where every entry under the bundle folder is fit, and then
its tree holds each of them once.
-/

namespace SortView

open PyText ByteLines

namespace BundleVerifier

/-! ### Reports -/

theorem Report.add_ne_nil (report : Report) (code : BundleProblemCode) (path : Text) : (report.add code path).problems ≠ [] := by
  rw [Report.add]
  split
  · next hfull =>
    intro hnil
    dsimp only at hnil
    rw [hnil] at hfull
    exact absurd hfull (by decide)
  · exact List.append_ne_nil_of_right_ne_nil _ (List.cons_ne_nil _ _)

/-! ### All entries -/

mutual

/-- The entries under a node, at every depth. -/
def Node.under (folder : Text) : Node → List Entry
  | .folder children => entriesUnder folder children
  | _ => []

def entriesUnder (folder : Text) : List (Text × Node) → List Entry
  | [] => []
  | (name, node) :: children =>
      ⟨relativePath folder name, name, node⟩ :: (node.under (relativePath folder name) ++ entriesUnder folder children)

end

/-- An entry that the walk goes on after: no reparse point, and no folder that is too deep or cannot be listed. -/
def Entry.Fit (entry : Entry) : Prop :=
  match entry.node with
  | .reparsePoint => False
  | .file _ _ => True
  | .folder _ => entry.path.count '/' < maxDepth
  | .closedFolder _ => False

/-- The entries of a folder come before what is under them. -/
theorem entriesUnder_perm (folder : Text) (children : List (Text × Node)) :
    (entriesUnder folder children).Perm
      (entriesIn folder children ++ (entriesIn folder children).flatMap fun entry => entry.node.under entry.path) := by
  induction children with
  | nil => exact .nil
  | cons child children ih =>
      obtain ⟨name, node⟩ := child
      rw [entriesUnder]
      refine .cons _ ?_
      refine (ih.append_left _).trans ?_
      rw [← List.append_assoc]
      refine (List.perm_append_comm.append_right _).trans ?_
      rw [List.append_assoc]
      exact .refl _

/-- What is pending after an entry. -/
def Entry.pending (entry : Entry) : List (Except ReadFailure (List (Text × Node)) × Text) :=
  match entry.node with
  | .folder children => [(.ok children, entry.path)]
  | .closedFolder failure => [(.error failure, entry.path)]
  | _ => []

def Entry.file? (entry : Entry) : Option FoundFile :=
  match entry.node with
  | .file length content => some ⟨entry.path, entry.name, length, content⟩
  | _ => none

def Entry.directory? (entry : Entry) : Option Text :=
  match entry.node with
  | .folder _ => some entry.path
  | .closedFolder _ => some entry.path
  | _ => none

variable (sys : System)

theorem same_symm {left right : Text} : same sys left right = same sys right left := by
  simp only [same, eq_comm]

theorem same_trans {first second third : Text} (hfirst : same sys first second = true) (hsecond : same sys second third = true) :
    same sys first third = true :=
  decide_eq_true ((of_decide_eq_true hfirst).trans (of_decide_eq_true hsecond))

/-! ### One entry -/

/-- An entry that is counted and enters the tree. -/
def Walk.take (walk : Walk) (entry : Entry) : Walk := { walk with entries := walk.entries + 1 }.enter entry

/-- The entry is within the limit, no reparse point, and no other one with its path. -/
structure Fits (walk : Walk) (entry : Entry) : Prop where
  few : walk.entries + 1 ≤ maxEntries
  plain : entry.node.isReparsePoint = false
  new : ∀ path ∈ walk.paths, same sys entry.path path = false

/-- The walk after an entry, also where it ends there. -/
def ended : Except Walk Walk → Walk
  | .error walk => walk
  | .ok walk => walk

variable {sys} {walk : Walk} {entry : Entry}

theorem visit_of_fits (h : Fits sys walk entry) : visit sys walk entry = .ok (walk.take entry) := by
  have hnew : ({ walk with entries := walk.entries + 1 } : Walk).paths.any (same sys entry.path) = false :=
    List.any_eq_false.2 fun path hmem => Bool.eq_false_iff.1 (h.new path hmem)
  rw [visit]
  dsimp only
  rw [if_neg (Nat.not_lt.2 h.few), if_neg (Bool.eq_false_iff.1 h.plain), if_neg (Bool.eq_false_iff.1 hnew)]
  rfl

theorem visit_of_not_fits (h : ¬ Fits sys walk entry) : (ended (visit sys walk entry)).report.problems ≠ [] := by
  rw [visit]
  dsimp only
  split
  · exact Report.add_ne_nil _ _ _
  · next hfew =>
    split
    · exact Report.add_ne_nil _ _ _
    · next hplain =>
      split
      · exact Report.add_ne_nil _ _ _
      · next hnew =>
        refine absurd ⟨Nat.not_lt.1 hfew, Bool.eq_false_iff.2 hplain, fun path hmem => ?_⟩ h
        exact Bool.eq_false_iff.2 (List.any_eq_false.1 (Bool.eq_false_iff.2 hnew) path hmem)

@[simp] theorem Walk.report_enter (walk : Walk) (entry : Entry) : (walk.enter entry).report = walk.report := by
  rw [Walk.enter]
  split <;> rfl

@[simp] theorem Walk.report_take (walk : Walk) (entry : Entry) : (walk.take entry).report = walk.report := Walk.report_enter ..

@[simp] theorem Walk.entries_take (walk : Walk) (entry : Entry) : (walk.take entry).entries = walk.entries + 1 := by
  rw [Walk.take, Walk.enter]
  split <;> rfl

@[simp] theorem Walk.pending_take (walk : Walk) (entry : Entry) : (walk.take entry).pending = entry.pending ++ walk.pending := by
  rw [Walk.take, Walk.enter, Entry.pending]
  cases entry.node <;> rfl

@[simp] theorem Walk.files_take (walk : Walk) (entry : Entry) : (walk.take entry).files = walk.files ++ entry.file?.toList := by
  rw [Walk.take, Walk.enter, Entry.file?]
  cases entry.node <;> simp

@[simp] theorem Walk.directories_take (walk : Walk) (entry : Entry) :
    (walk.take entry).directories = walk.directories ++ entry.directory?.toList := by
  rw [Walk.take, Walk.enter, Entry.directory?]
  cases entry.node <;> simp

/-- The paths of the tree after an entry that is no reparse point. -/
theorem Walk.mem_paths_take (hplain : entry.node.isReparsePoint = false) (walk : Walk) (path : Text) :
    path ∈ (walk.take entry).paths ↔ path = entry.path ∨ path ∈ walk.paths := by
  rw [Walk.paths, Walk.paths, Walk.files_take, Walk.directories_take]
  cases hnode : entry.node with
  | reparsePoint =>
      rw [hnode] at hplain
      cases hplain
  | file length content => simp [Entry.file?, Entry.directory?, hnode, or_comm, or_assoc]
  | folder children => simp [Entry.file?, Entry.directory?, hnode, or_comm, or_assoc]
  | closedFolder failure => simp [Entry.file?, Entry.directory?, hnode, or_comm, or_assoc]

/-- A walk with a problem keeps one. -/
theorem visit_ne_nil (h : walk.report.problems ≠ []) : (ended (visit sys walk entry)).report.problems ≠ [] := by
  by_cases hfits : Fits sys walk entry
  · rw [visit_of_fits hfits, ended, Walk.report_take]
    exact h
  · exact visit_of_not_fits hfits

theorem foldlM_visit_ne_nil {entries : List Entry} (h : walk.report.problems ≠ []) :
    (ended (entries.foldlM (visit sys) walk)).report.problems ≠ [] := by
  induction entries generalizing walk with
  | nil => exact h
  | cons entry entries ih =>
      have hvisit : (ended (visit sys walk entry)).report.problems ≠ [] := visit_ne_nil h
      rw [List.foldlM_cons]
      cases hresult : visit sys walk entry with
      | error after =>
          rw [hresult] at hvisit
          exact hvisit
      | ok after =>
          rw [hresult] at hvisit
          exact ih hvisit

/-! ### The entries that are still to come -/

/-- What is asked of the entries that a walk has still to visit. -/
structure Good (sys : System) (walk : Walk) (entries : List Entry) : Prop where
  fit : ∀ entry ∈ entries, entry.Fit
  few : walk.entries + entries.length ≤ maxEntries
  new : ∀ entry ∈ entries, ∀ path ∈ walk.paths, same sys entry.path path = false
  distinct : entries.Pairwise fun first second => same sys first.path second.path = false

theorem Entry.Fit.isReparsePoint (h : entry.Fit) : entry.node.isReparsePoint = false := by
  rw [Entry.Fit] at h
  cases hnode : entry.node with
  | reparsePoint =>
      rw [hnode] at h
      exact h.elim
  | _ => rfl

theorem Good.perm {entries others : List Entry} (hperm : entries.Perm others) (h : Good sys walk entries) : Good sys walk others where
  fit entry hmem := h.fit entry (hperm.mem_iff.2 hmem)
  few := hperm.length_eq ▸ h.few
  new entry hmem := h.new entry (hperm.mem_iff.2 hmem)
  distinct := (hperm.pairwise_iff fun {_ _} hsame => (same_symm sys).trans hsame).1 h.distinct

/-- What is pending is not looked at. -/
theorem good_pending {entries : List Entry} {pending : List (Except ReadFailure (List (Text × Node)) × Text)} :
    Good sys { walk with pending := pending } entries ↔ Good sys walk entries :=
  ⟨fun h => ⟨h.fit, h.few, h.new, h.distinct⟩, fun h => ⟨h.fit, h.few, h.new, h.distinct⟩⟩

/-- The first entry is visited, and the others are still to come. -/
theorem good_cons {entries : List Entry} :
    Good sys walk (entry :: entries) ↔ entry.Fit ∧ Fits sys walk entry ∧ Good sys (walk.take entry) entries := by
  constructor
  · rintro ⟨hfit, hfew, hnew, hdistinct⟩
    rw [List.length_cons] at hfew
    rw [List.pairwise_cons] at hdistinct
    have hfirst := hfit entry (.head _)
    refine ⟨hfirst, ⟨by omega, hfirst.isReparsePoint, hnew entry (.head _)⟩, fun other hmem => hfit other (.tail _ hmem), ?_, ?_,
      hdistinct.2⟩
    · rw [Walk.entries_take]
      omega
    · intro other hmem path hpath
      rcases (Walk.mem_paths_take hfirst.isReparsePoint walk path).1 hpath with rfl | hpath
      · exact (same_symm sys).trans (hdistinct.1 other hmem)
      · exact hnew other (.tail _ hmem) path hpath
  · rintro ⟨hfirst, ⟨-, -, hnew⟩, hfit, hfew, hothers, hdistinct⟩
    rw [Walk.entries_take] at hfew
    have hpaths := Walk.mem_paths_take hfirst.isReparsePoint walk
    refine ⟨List.forall_mem_cons.2 ⟨hfirst, hfit⟩, by rw [List.length_cons]; omega, List.forall_mem_cons.2 ⟨hnew, ?_⟩,
      List.pairwise_cons.2 ⟨?_, hdistinct⟩⟩
    · intro other hmem path hpath
      exact hothers other hmem path ((hpaths path).2 (Or.inr hpath))
    · intro other hmem
      exact (same_symm sys).trans (hothers other hmem entry.path ((hpaths entry.path).2 (Or.inl rfl)))

/-- Good entries are all visited. -/
theorem foldlM_visit_of_good {entries others : List Entry} (h : Good sys walk (entries ++ others)) :
    entries.foldlM (visit sys) walk = .ok (entries.foldl Walk.take walk) ∧ Good sys (entries.foldl Walk.take walk) others := by
  induction entries generalizing walk with
  | nil => exact ⟨rfl, h⟩
  | cons entry entries ih =>
      obtain ⟨-, hfits, hgood⟩ := good_cons.1 h
      rw [List.foldlM_cons, visit_of_fits hfits]
      exact ih hgood

/-- Entries that are visited without a problem are good where they are fit and the ones after them are good. -/
theorem good_of_foldlM_visit {entries : List Entry} (hfew : walk.entries ≤ maxEntries)
    (h : (ended (entries.foldlM (visit sys) walk)).report.problems = []) :
    entries.foldlM (visit sys) walk = .ok (entries.foldl Walk.take walk) ∧ (entries.foldl Walk.take walk).entries ≤ maxEntries
      ∧ (∀ entry ∈ entries, entry.node.isReparsePoint = false)
      ∧ ∀ others, (∀ entry ∈ entries, entry.Fit) → Good sys (entries.foldl Walk.take walk) others → Good sys walk (entries ++ others) := by
  induction entries generalizing walk with
  | nil => exact ⟨rfl, hfew, fun _ hmem => (nomatch hmem), fun _ _ hgood => hgood⟩
  | cons entry entries ih =>
      rw [List.foldlM_cons] at h ⊢
      by_cases hfits : Fits sys walk entry
      · rw [visit_of_fits hfits] at h ⊢
        obtain ⟨hrest, hcount, hplain, hgood⟩ := ih ((Walk.entries_take walk entry).trans_le hfits.few) h
        refine ⟨hrest, hcount, List.forall_mem_cons.2 ⟨hfits.plain, hplain⟩, fun others hfit hothers => ?_⟩
        rw [List.forall_mem_cons] at hfit
        exact good_cons.2 ⟨hfit.1, hfits, hgood others hfit.2 hothers⟩
      · have hvisit := visit_of_not_fits hfits
        cases hresult : visit sys walk entry with
        | error after =>
            rw [hresult] at h hvisit
            exact absurd h hvisit
        | ok after =>
            rw [hresult] at h hvisit
            exact absurd h (foldlM_visit_ne_nil hvisit)

/-! ### The folders that are pending -/

def pendingEntries (pending : List (Except ReadFailure (List (Text × Node)) × Text)) : List Entry :=
  pending.flatMap fun item => (item.1.toOption.map (entriesUnder item.2)).getD []

def pendingFolders (pending : List (Except ReadFailure (List (Text × Node)) × Text)) : Nat :=
  (pending.map fun item => (item.1.toOption.map Node.foldersIn).getD 0 + 1).sum

/-- Every pending folder can be listed, and none is too deep. -/
def PendingFit (pending : List (Except ReadFailure (List (Text × Node)) × Text)) : Prop :=
  ∀ item ∈ pending, item.1.isOk = true ∧ item.2.count '/' < maxDepth

theorem pendingEntries_append (first second : List (Except ReadFailure (List (Text × Node)) × Text)) :
    pendingEntries (first ++ second) = pendingEntries first ++ pendingEntries second :=
  List.flatMap_append

theorem pendingFolders_append (first second : List (Except ReadFailure (List (Text × Node)) × Text)) :
    pendingFolders (first ++ second) = pendingFolders first + pendingFolders second := by
  rw [pendingFolders, List.map_append, List.sum_append]
  rfl

theorem pendingEntries_pending (entry : Entry) : pendingEntries entry.pending = entry.node.under entry.path := by
  rw [Entry.pending]
  cases hnode : entry.node with
  | folder children => simp [pendingEntries, Node.under, Except.toOption]
  | closedFolder failure => simp [pendingEntries, Node.under, Except.toOption]
  | reparsePoint => rfl
  | file length content => rfl

theorem pendingFolders_pending (entry : Entry) : pendingFolders entry.pending = entry.node.folders := by
  rw [Entry.pending]
  cases hnode : entry.node with
  | folder children => simp [pendingFolders, Node.folders, Except.toOption]
  | closedFolder failure => simp [pendingFolders, Node.folders, Except.toOption]
  | reparsePoint => rfl
  | file length content => rfl

theorem Entry.Fit.pending (h : entry.Fit) : PendingFit entry.pending := by
  intro item hmem
  rw [Entry.Fit] at h
  rw [Entry.pending] at hmem
  cases hnode : entry.node with
  | folder children =>
      rw [hnode] at h hmem
      obtain rfl := List.mem_singleton.1 hmem
      exact ⟨rfl, h⟩
  | closedFolder failure =>
      rw [hnode] at h
      exact h.elim
  | reparsePoint =>
      rw [hnode] at hmem
      cases hmem
  | file length content =>
      rw [hnode] at hmem
      cases hmem

theorem fit_of_pending (hplain : entry.node.isReparsePoint = false) (h : PendingFit entry.pending) : entry.Fit := by
  rw [Entry.pending] at h
  rw [Entry.Fit]
  cases hnode : entry.node with
  | folder children =>
      rw [hnode] at h
      exact (h _ (.head _)).2
  | closedFolder failure =>
      rw [hnode] at h
      exact absurd (h _ (.head _)).1 Bool.false_ne_true
  | reparsePoint =>
      rw [hnode] at hplain
      cases hplain
  | file length content => trivial

theorem pendingEntries_foldl (entries : List Entry) (walk : Walk) :
    (pendingEntries (entries.foldl Walk.take walk).pending).Perm
      ((entries.flatMap fun entry => entry.node.under entry.path) ++ pendingEntries walk.pending) := by
  induction entries generalizing walk with
  | nil => exact .refl _
  | cons entry entries ih =>
      have hrest := ih (walk.take entry)
      rw [Walk.pending_take, pendingEntries_append, pendingEntries_pending, ← List.append_assoc] at hrest
      rw [List.foldl_cons, List.flatMap_cons]
      exact hrest.trans (List.perm_append_comm.append_right _)

theorem pendingFolders_foldl (entries : List Entry) (walk : Walk) :
    pendingFolders (entries.foldl Walk.take walk).pending = (entries.map fun entry => entry.node.folders).sum + pendingFolders walk.pending := by
  induction entries generalizing walk with
  | nil => exact (Nat.zero_add _).symm
  | cons entry entries ih =>
      rw [List.foldl_cons, ih, Walk.pending_take, pendingFolders_append, pendingFolders_pending, List.map_cons, List.sum_cons]
      omega

theorem pendingFit_foldl (entries : List Entry) (walk : Walk) :
    PendingFit (entries.foldl Walk.take walk).pending ↔ (∀ entry ∈ entries, PendingFit entry.pending) ∧ PendingFit walk.pending := by
  induction entries generalizing walk with
  | nil => exact ⟨fun h => ⟨fun _ hmem => (nomatch hmem), h⟩, And.right⟩
  | cons entry entries ih =>
      rw [List.foldl_cons, ih, Walk.pending_take, List.forall_mem_cons, PendingFit, PendingFit, PendingFit, List.forall_mem_append]
      exact ⟨fun ⟨hrest, hfirst, hwalk⟩ => ⟨⟨hfirst, hrest⟩, hwalk⟩, fun ⟨⟨hfirst, hrest⟩, hwalk⟩ => ⟨hrest, hfirst, hwalk⟩⟩

theorem sum_folders (folder : Text) (children : List (Text × Node)) :
    ((entriesIn folder children).map fun entry => entry.node.folders).sum = Node.foldersIn children := by
  induction children with
  | nil => rfl
  | cons child children ih =>
      obtain ⟨name, node⟩ := child
      rw [Node.foldersIn, ← ih]
      rfl

theorem pending_eq_nil {pending : List (Except ReadFailure (List (Text × Node)) × Text)} (h : pendingFolders pending ≤ 0) :
    pending = [] := by
  cases pending with
  | nil => rfl
  | cons item pending =>
      rw [pendingFolders, List.map_cons, List.sum_cons] at h
      omega

theorem Walk.report_foldl (entries : List Entry) (walk : Walk) : (entries.foldl Walk.take walk).report = walk.report := by
  induction entries generalizing walk with
  | nil => rfl
  | cons entry entries ih => rw [List.foldl_cons, ih, Walk.report_take]

theorem Walk.files_foldl (entries : List Entry) (walk : Walk) :
    (entries.foldl Walk.take walk).files = walk.files ++ entries.filterMap Entry.file? := by
  induction entries generalizing walk with
  | nil => exact (List.append_nil _).symm
  | cons entry entries ih =>
      rw [List.foldl_cons, ih, Walk.files_take, List.append_assoc, List.filterMap_cons]
      cases entry.file? <;> rfl

theorem Walk.directories_foldl (entries : List Entry) (walk : Walk) :
    (entries.foldl Walk.take walk).directories = walk.directories ++ entries.filterMap Entry.directory? := by
  induction entries generalizing walk with
  | nil => exact (List.append_nil _).symm
  | cons entry entries ih =>
      rw [List.foldl_cons, ih, Walk.directories_take, List.append_assoc, List.filterMap_cons]
      cases entry.directory? <;> rfl

/-! ### The whole walk -/

/-- What a walk without a problem has found beside what it had. -/
structure Found (before after : Walk) (entries : List Entry) : Prop where
  report : after.report = before.report
  files : after.files.Perm (before.files ++ entries.filterMap Entry.file?)
  directories : after.directories.Perm (before.directories ++ entries.filterMap Entry.directory?)

theorem Found.refl (walk : Walk) : Found walk walk [] where
  report := rfl
  files := by rw [List.filterMap_nil, List.append_nil]
  directories := by rw [List.filterMap_nil, List.append_nil]

/-- What the entries of a folder were and what was found after them, in any order. -/
theorem Found.after {entries others all : List Entry} {after : Walk} (h : Found (entries.foldl Walk.take walk) after others)
    (hall : all.Perm (entries ++ others)) : Found walk after all where
  report := h.report.trans (Walk.report_foldl entries walk)
  files := by
    have hfiles := h.files
    rw [Walk.files_foldl, List.append_assoc, ← List.filterMap_append] at hfiles
    exact hfiles.trans ((hall.symm.filterMap _).append_left _)
  directories := by
    have hdirectories := h.directories
    rw [Walk.directories_foldl, List.append_assoc, ← List.filterMap_append] at hdirectories
    exact hdirectories.trans ((hall.symm.filterMap _).append_left _)

/-- The entries of the folder on the top of the stack, those under them, and those of the other folders. -/
theorem pendingEntries_cons (children : List (Text × Node)) (folder : Text)
    (pending : List (Except ReadFailure (List (Text × Node)) × Text)) (walk : Walk) :
    (pendingEntries ((.ok children, folder) :: pending)).Perm (entriesIn folder children
      ++ pendingEntries ((entriesIn folder children).foldl Walk.take { walk with pending := pending }).pending) := by
  have hfirst : pendingEntries ((.ok children, folder) :: pending) = entriesUnder folder children ++ pendingEntries pending := rfl
  rw [hfirst]
  refine ((entriesUnder_perm folder children).append_right _).trans ?_
  rw [List.append_assoc]
  exact (pendingEntries_foldl _ { walk with pending := pending }).symm.append_left _

theorem walkPending_ne_nil {steps : Nat} (h : walk.report.problems ≠ []) : (walkPending sys steps walk).report.problems ≠ [] := by
  induction steps generalizing walk with
  | zero => exact h
  | succ steps ih =>
      rw [walkPending]
      split
      · exact h
      · next listing folder pending _ =>
        split
        · exact Report.add_ne_nil _ _ _
        · split
          · exact Report.add_ne_nil _ _ _
          · next children _ =>
            have hvisit : (ended ((entriesIn folder children).foldlM (visit sys) { walk with pending := pending })).report.problems ≠ [] :=
              foldlM_visit_ne_nil h
            split
            · next after hresult =>
              rw [hresult] at hvisit
              exact hvisit
            · next after hresult =>
              rw [hresult] at hvisit
              exact ih hvisit

/-- The entries of a folder leave fewer folders to walk than the folder itself. -/
theorem pendingFolders_foldl_le {children : List (Text × Node)} {folder : Text} {pending : List (Except ReadFailure (List (Text × Node)) × Text)}
    {walk : Walk} {steps : Nat} (hsteps : pendingFolders ((.ok children, folder) :: pending) ≤ steps + 1) :
    pendingFolders ((entriesIn folder children).foldl Walk.take { walk with pending := pending }).pending ≤ steps := by
  rw [pendingFolders_foldl, sum_folders]
  have htotal : pendingFolders ((.ok children, folder) :: pending) = Node.foldersIn children + 1 + pendingFolders pending := rfl
  rw [htotal] at hsteps
  show _ + pendingFolders pending ≤ steps
  omega

/-- A walk whose entries are all good finds them, and nothing else. -/
theorem walkPending_of_good : ∀ (steps : Nat) (walk : Walk), pendingFolders walk.pending ≤ steps → PendingFit walk.pending →
    Good sys walk (pendingEntries walk.pending) → Found walk (walkPending sys steps walk) (pendingEntries walk.pending)
  | 0, walk, hsteps, _, _ => by
      rw [pending_eq_nil hsteps]
      exact Found.refl walk
  | steps + 1, walk, hsteps, hpending, hgood => by
      rw [walkPending]
      cases hstack : walk.pending with
      | nil => exact Found.refl walk
      | cons item pending =>
          obtain ⟨listing, folder⟩ := item
          rw [hstack] at hsteps hpending hgood
          have htop := hpending _ (.head _)
          cases listing with
          | error failure => exact absurd htop.1 Bool.false_ne_true
          | ok children =>
              have hperm := pendingEntries_cons children folder pending walk
              have hnow : Good sys { walk with pending := pending } (pendingEntries ((.ok children, folder) :: pending)) :=
                good_pending.2 hgood
              obtain ⟨hvisit, hlater⟩ := foldlM_visit_of_good (hnow.perm hperm)
              have hfit : PendingFit ((entriesIn folder children).foldl Walk.take { walk with pending := pending }).pending :=
                (pendingFit_foldl _ _).2 ⟨fun entry hmem => Entry.Fit.pending
                  ((hnow.perm hperm).fit entry (List.mem_append_left _ hmem)), fun item hmem => hpending item (.tail _ hmem)⟩
              have hfound := (walkPending_of_good steps _ (pendingFolders_foldl_le hsteps) hfit hlater).after hperm
              dsimp only
              rw [if_neg (Nat.not_le.2 htop.2), hvisit]
              exact ⟨hfound.report, hfound.files, hfound.directories⟩

/-- A walk without a problem has visited good entries only. -/
theorem good_of_walkPending : ∀ (steps : Nat) (walk : Walk), pendingFolders walk.pending ≤ steps → walk.entries ≤ maxEntries →
    (walkPending sys steps walk).report.problems = [] → PendingFit walk.pending ∧ Good sys walk (pendingEntries walk.pending)
  | 0, walk, hsteps, hfew, _ => by
      rw [pending_eq_nil hsteps]
      exact ⟨fun _ hmem => (nomatch hmem), fun _ hmem => (nomatch hmem), hfew, fun _ hmem => (nomatch hmem), .nil⟩
  | steps + 1, walk, hsteps, hfew, h => by
      rw [walkPending] at h
      cases hstack : walk.pending with
      | nil => exact ⟨fun _ hmem => (nomatch hmem), fun _ hmem => (nomatch hmem), hfew, fun _ hmem => (nomatch hmem), .nil⟩
      | cons item pending =>
          obtain ⟨listing, folder⟩ := item
          rw [hstack] at h hsteps
          dsimp only at h
          split at h
          · exact absurd h (Report.add_ne_nil _ _ _)
          next hdepth =>
          cases listing with
          | error failure => exact absurd h (Report.add_ne_nil _ _ _)
          | ok children =>
              dsimp only at h
              have hperm := pendingEntries_cons children folder pending walk
              have hclean : (ended ((entriesIn folder children).foldlM (visit sys) { walk with pending := pending })).report.problems = [] := by
                by_contra hproblem
                split at h
                · next after hresult =>
                  rw [hresult] at hproblem
                  exact hproblem h
                · next after hresult =>
                  rw [hresult] at hproblem
                  exact walkPending_ne_nil hproblem h
              have hnow : ({ walk with pending := pending } : Walk).entries ≤ maxEntries := hfew
              obtain ⟨hvisit, hcount, hplain, hgood⟩ := good_of_foldlM_visit hnow hclean
              rw [hvisit] at h
              obtain ⟨hfit, hlater⟩ := good_of_walkPending steps _ (pendingFolders_foldl_le hsteps) hcount h
              rw [pendingFit_foldl] at hfit
              have hall := good_pending.1 (hgood _ (fun entry hmem => fit_of_pending (hplain entry hmem) (hfit.1 entry hmem)) hlater)
              exact ⟨List.forall_mem_cons.2 ⟨⟨rfl, Nat.not_le.1 hdepth⟩, hfit.2⟩, hall.perm hperm.symm⟩

end BundleVerifier

end SortView
