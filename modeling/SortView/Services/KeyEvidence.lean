import SortView.Services.KeyInventory

/-!
# What a candidate rests on

A key is a candidate exactly when one enrollment record of its scope agrees in every part and fits no other key, so no two
candidates rest on one record, one code or one installation.
-/

namespace SortView

namespace KeyInventory

open PyText

/-- Rows with unique ids, and keys with unique key ids. -/
structure Snapshot.Keyed (snapshot : Snapshot) : Prop where
  keys : (snapshot.keys.map KeyRow.id).Nodup
  keyIds : (snapshot.keys.map KeyRow.keyId).Nodup
  tokens : (snapshot.tokens.map TokenRow.id).Nodup
  installations : (snapshot.installations.map InstallationRow.id).Nodup
  codes : (snapshot.codes.map CodeRow.id).Nodup
  cutovers : (snapshot.cutovers.map CutoverRow.id).Nodup
  organizations : (snapshot.organizations.map OrganizationRow.id).Nodup
  branches : (snapshot.branches.map BranchRow.id).Nodup

/-- The one cutover of the key's scope in enrollment form, set when the key was created, names a used, unrevoked contract-2 code
of an installation at the scope's own branch that a token of the scope is bound to. -/
structure EnrollmentRecord (snapshot : Snapshot) (key : KeyRow) (cutover : CutoverRow) (code : CodeRow)
    (installation : InstallationRow) : Prop where
  cutover_mem : cutover ∈ snapshot.cutovers
  cutover_scope : cutover.scope = key.scope
  note : enrollmentNote cutover = some (code.id, installation.id)
  only : ∀ other ∈ snapshot.cutovers, other.scope = key.scope → enrollmentNote other ≠ none → other = cutover
  instant : cutover.setAt = key.createdAt
  code_mem : code ∈ snapshot.codes
  code_installation : code.installationId = installation.id
  used : code.usedAt ≠ none
  contract : code.requiredContract = 2
  unrevoked : code.revokedAt = none
  installation_mem : installation ∈ snapshot.installations
  branch : ∃ branch, (mapped snapshot).get? key.scope = some branch ∧ installation.branchId = branch.id
  token : ∃ token ∈ snapshot.tokens, token.scope = key.scope ∧ token.installationId = some installation.id

/-- The key's heartbeat coincides with no other installation of its branch. -/
def HeartbeatAgrees (snapshot : Snapshot) (key : KeyRow) (installation : InstallationRow) : Prop :=
  ∀ other ∈ snapshot.installations, other.branchId = installation.branchId → key.lastHeartbeatAt ≠ none →
    other.lastSeenAt = key.lastHeartbeatAt → other.id = installation.id

/-! ### One key -/

theorem reasonIf_eq_nil_iff (found : Bool) (reason : String) : reasonIf found reason = [] ↔ found = false := by
  cases found <;> simp [reasonIf]

/-- What is found of a code that agrees. -/
theorem codeFindings_eq_nil_iff (instant installationId : Int) (code : Option CodeRow) :
    ((codeFindings instant installationId code).conflicts = [] ∧ (codeFindings instant installationId code).missing = [])
      ↔ ∃ row, code = some row ∧ row.installationId = installationId ∧ row.usedAt = some instant ∧ row.requiredContract = 2
        ∧ row.revokedAt = none := by
  cases code with
  | none => simp [codeFindings]
  | some row =>
      simp only [codeFindings, List.append_eq_nil_iff, reasonIf_eq_nil_iff, Option.some.injEq, exists_eq_left', decide_eq_false_iff_not,
        not_not, Option.isSome_eq_false_iff, Option.isNone_iff_eq_none, Option.isNone_eq_false_iff]
      cases row.usedAt with
      | none => simp
      | some usedAt => simp [and_assoc]

theorem installationFindings_eq_nil_iff (branch : Option BranchRow) (installation : Option InstallationRow) :
    ((installationFindings branch installation).conflicts = [] ∧ (installationFindings branch installation).missing = [])
      ↔ ∃ row own, installation = some row ∧ branch = some own ∧ row.branchId = own.id := by
  cases installation with
  | none => simp [installationFindings]
  | some row =>
      cases branch with
      | none => simp [installationFindings, reasonIf]
      | some own => simp [installationFindings, reasonIf_eq_nil_iff]

theorem ambiguities_eq_nil_iff (enrollmentCount : Nat) (installationId : Int) (heartbeats : List Int) :
    ambiguities enrollmentCount installationId heartbeats = []
      ↔ enrollmentCount ≤ 1 ∧ (heartbeats = [] ∨ heartbeats = [installationId]) := by
  simp only [ambiguities, List.append_eq_nil_iff, reasonIf_eq_nil_iff, decide_eq_false_iff_not, Nat.not_lt, Bool.and_eq_false_iff,
    not_not]

/-- The evidence of a key whose record agrees. -/
def agreed (cutover : CutoverRow) (codeId installationId : Int) : E1 where
  status := .candidate
  candidateInstallationId := some installationId
  cutoverId := some cutover.id
  enrollmentCodeId := some codeId
  reasons := ["all_e1_parts_agree"]

section OneKey

variable {key : KeyRow} {cutovers : List CutoverRow} {codes : Dict Int CodeRow} {installations : Dict Int InstallationRow}
  {branch : Option BranchRow} {bound heartbeats : List Int}

/-- Every part of a record agrees, and nothing else of the scope has its form. -/
structure Agrees (key : KeyRow) (cutovers : List CutoverRow) (codes : Dict Int CodeRow) (installations : Dict Int InstallationRow)
    (branch : Option BranchRow) (bound heartbeats : List Int) (cutover : CutoverRow) (codeId installationId : Int) : Prop where
  rows : enrollmentRows cutovers = [(cutover, codeId, installationId)]
  instant : cutover.setAt = key.createdAt
  code : ∃ row, codes.get? codeId = some row ∧ row.installationId = installationId ∧ row.usedAt = some key.createdAt
    ∧ row.requiredContract = 2 ∧ row.revokedAt = none
  installation : ∃ row own, installations.get? installationId = some row ∧ branch = some own ∧ row.branchId = own.id
  token : installationId ∈ bound
  heartbeat : heartbeats = [] ∨ heartbeats = [installationId]

theorem e1_of_agrees {cutover : CutoverRow} {codeId installationId : Int}
    (h : Agrees key cutovers codes installations branch bound heartbeats cutover codeId installationId) :
    e1 key cutovers codes installations branch bound heartbeats = agreed cutover codeId installationId := by
  have hcode := (codeFindings_eq_nil_iff key.createdAt installationId (codes.get? codeId)).2 h.code
  have hinstallation := (installationFindings_eq_nil_iff branch (installations.get? installationId)).2 h.installation
  have hambiguous := (ambiguities_eq_nil_iff 1 installationId heartbeats).2 ⟨Nat.le_refl 1, h.heartbeat⟩
  have hbound : bound.contains installationId = true := List.contains_iff_mem.2 h.token
  simp only [e1, h.rows, List.filter_cons, h.instant, decide_true, if_true, List.filter_nil, hcode.1, hcode.2, hinstallation.1,
    hinstallation.2, hbound, List.length_singleton, hambiguous]
  rfl

/-- A candidate's record agrees in every part. -/
theorem agrees_of_candidate (h : (e1 key cutovers codes installations branch bound heartbeats).status = .candidate) :
    ∃ cutover codeId installationId,
      Agrees key cutovers codes installations branch bound heartbeats cutover codeId installationId := by
  rw [e1] at h
  dsimp only at h
  split at h
  · split at h
    · cases h
    · split at h <;> cases h
  · next cutover codeId installationId hmatching =>
    split at h
    · split at h <;> cases h
    · next hfound =>
      rw [not_or, not_not, not_not] at hfound
      simp only [List.append_eq_nil_iff, reasonIf_eq_nil_iff, Bool.not_eq_false', List.contains_iff_mem] at hfound
      obtain ⟨⟨hcodeConflicts, hinstallationConflicts⟩, ⟨hcodeMissing, hinstallationMissing⟩, htoken⟩ := hfound
      split at h
      · cases h
      · next hambiguous =>
        rw [not_not, ambiguities_eq_nil_iff] at hambiguous
        have hmem : (cutover, codeId, installationId) ∈ enrollmentRows cutovers ∧ cutover.setAt = key.createdAt := by
          have hfirst : (cutover, codeId, installationId) ∈ (enrollmentRows cutovers).filter fun row =>
              decide (row.1.setAt = key.createdAt) := hmatching ▸ List.mem_singleton_self _
          rw [List.mem_filter, decide_eq_true_eq] at hfirst
          exact hfirst
        have hrows : enrollmentRows cutovers = [(cutover, codeId, installationId)] := by
          obtain ⟨row, hrow⟩ := List.length_eq_one_iff.1
            (Nat.le_antisymm hambiguous.1 (List.length_pos_of_mem hmem.1))
          rw [hrow] at hmem ⊢
          rw [List.mem_singleton.1 hmem.1]
        exact ⟨cutover, codeId, installationId, hrows, hmem.2,
          (codeFindings_eq_nil_iff _ _ _).1 ⟨hcodeConflicts, hcodeMissing⟩,
          (installationFindings_eq_nil_iff _ _).1 ⟨hinstallationConflicts, hinstallationMissing⟩, htoken, hambiguous.2⟩
  · cases h

end OneKey

/-! ### The scopes -/

/-- A fold that adds branches under their scopes or leaves them out holds branches of the list. -/
theorem get?_foldl_branches {snapshot : Snapshot} {scope : Scope} {branch : BranchRow}
    {step : Dict Scope BranchRow → BranchRow → Dict Scope BranchRow}
    (hstep : ∀ d other, step d other = d ∨ ∃ key,
      branchScope (Dict.indexBy OrganizationRow.id snapshot.organizations) other = some key ∧ step d other = d.set key other)
    (branches : List BranchRow) (d : Dict Scope BranchRow) (hget : (branches.foldl step d).get? scope = some branch) :
    (branch ∈ branches ∧ branchScope (Dict.indexBy OrganizationRow.id snapshot.organizations) branch = some scope)
      ∨ d.get? scope = some branch := by
  induction branches generalizing d with
  | nil => exact Or.inr hget
  | cons first branches ih =>
      rcases ih _ hget with ⟨hmem, hscope⟩ | hbefore
      · exact Or.inl ⟨List.mem_cons_of_mem _ hmem, hscope⟩
      · rcases hstep d first with hsame | ⟨key, hkey, hset⟩
        · rw [hsame] at hbefore
          exact Or.inr hbefore
        · rw [hset, Dict.get?_set] at hbefore
          split at hbefore
          · next heq =>
            cases hbefore
            exact Or.inl ⟨List.mem_cons_self .., hkey.trans (congrArg some heq.symm)⟩
          · exact Or.inr hbefore

theorem branchScope_of_mapped {snapshot : Snapshot} {scope : Scope} {branch : BranchRow}
    (h : (mapped snapshot).get? scope = some branch) :
    branch ∈ snapshot.branches ∧ branchScope (Dict.indexBy OrganizationRow.id snapshot.organizations) branch = some scope := by
  rw [mapped] at h
  refine (get?_foldl_branches ?_ snapshot.branches Dict.empty h).elim id ?_
  · intro d other
    cases hscope : branchScope (Dict.indexBy OrganizationRow.id snapshot.organizations) other with
    | none => exact Or.inl rfl
    | some key => exact Or.inr ⟨key, rfl, rfl⟩
  · intro hnone
    cases hnone

/-- A branch is the own branch of one scope. -/
theorem scope_eq_of_branch {snapshot : Snapshot} (hkeyed : snapshot.Keyed) {scope other : Scope} {branch second : BranchRow}
    (hbranch : (mapped snapshot).get? scope = some branch) (hsecond : (mapped snapshot).get? other = some second)
    (hid : branch.id = second.id) : scope = other := by
  obtain ⟨hmem, hscope⟩ := branchScope_of_mapped hbranch
  obtain ⟨hmem', hscope'⟩ := branchScope_of_mapped hsecond
  obtain rfl := List.inj_on_of_nodup_map hkeyed.branches hmem hmem' hid
  exact Option.some.inj (hscope.symm.trans hscope')

/-! ### The reports of the keys -/

section Reports

variable {snapshot : Snapshot}

theorem mem_keyReports {report : KeyReport} :
    report ∈ keyReports snapshot ↔ ∃ key ∈ snapshot.keys, report = keyReport snapshot key.scope key := by
  simp only [keyReports, List.mem_mergeSort, List.mem_flatMap, List.mem_map, List.mem_filter, decide_eq_true_eq]
  constructor
  · rintro ⟨scope, -, key, ⟨hkey, rfl⟩, rfl⟩
    exact ⟨key, hkey, rfl⟩
  · rintro ⟨key, hkey, rfl⟩
    refine ⟨key.scope, ?_, key, ⟨hkey, rfl⟩, rfl⟩
    simp only [scopes, List.mem_mergeSort, List.mem_dedup, List.mem_append]
    exact Or.inl (Or.inl (Or.inr (List.mem_map_of_mem hkey)))

/-- A key has one report. -/
theorem nodup_rowIds (hkeyed : snapshot.Keyed) : ((keyReports snapshot).map KeyReport.rowId).Nodup := by
  rw [keyReports, ((List.mergeSort_perm _ _).map KeyReport.rowId).nodup_iff, List.map_flatMap, List.nodup_flatMap]
  have hids : ∀ scope, ((snapshot.keys.filter fun key => key.scope = scope).map (keyReport snapshot scope)).map KeyReport.rowId
      = (snapshot.keys.filter fun key => key.scope = scope).map KeyRow.id := by
    intro scope
    rw [List.map_map]
    rfl
  constructor
  · intro scope _
    rw [hids]
    exact hkeyed.keys.sublist (List.filter_sublist.map _)
  · have hscopes : (scopes snapshot).Nodup := (List.mergeSort_perm _ _).nodup_iff.2 (List.nodup_dedup _)
    refine List.Pairwise.imp ?_ hscopes
    intro left right hne id hleft hright
    dsimp only at hleft hright
    rw [hids] at hleft hright
    obtain ⟨key, hkey, rfl⟩ := List.mem_map.1 hleft
    obtain ⟨other, hother, hid⟩ := List.mem_map.1 hright
    rw [List.mem_filter, decide_eq_true_eq] at hkey hother
    obtain rfl := List.inj_on_of_nodup_map hkeyed.keys hkey.1 hother.1 hid.symm
    exact hne (hkey.2.symm.trans hother.2)

/-- Two elements of a list that name one record. -/
theorem one_lt_count_filterMap {α β : Type} [DecidableEq β] {f : α → Option β} {items : List α} {left right : α} {value : β}
    (hleft : left ∈ items) (hright : right ∈ items) (hne : left ≠ right) (hfleft : f left = some value)
    (hfright : f right = some value) : 1 < (items.filterMap f).count value := by
  induction items with
  | nil => cases hleft
  | cons item items ih =>
      rcases List.mem_cons.1 hleft with rfl | hold
      · have hmem := List.mem_filterMap.2 ⟨right, (List.mem_cons.1 hright).resolve_left hne.symm, hfright⟩
        rw [List.filterMap_cons_some hfleft, List.count_cons_self]
        exact Nat.succ_lt_succ (List.count_pos_iff.2 hmem)
      · rcases List.mem_cons.1 hright with rfl | hother
        · have hmem := List.mem_filterMap.2 ⟨left, hold, hfleft⟩
          rw [List.filterMap_cons_some hfright, List.count_cons_self]
          exact Nat.succ_lt_succ (List.count_pos_iff.2 hmem)
        · have hrest := ih hold hother
          rw [List.filterMap_cons]
          split
          · exact hrest
          · exact Nat.lt_of_lt_of_le hrest (List.count_le_count_cons ..)

/-- A candidate of the report was one before the records were compared, and its record fits no other key. -/
theorem mem_buildReport_candidate {report : KeyReport} (hreport : report ∈ buildReport snapshot)
    (hcandidate : report.e1.status = .candidate) :
    report ∈ keyReports snapshot ∧ ∀ cutoverId, report.e1.cutoverId = some cutoverId →
      ((keyReports snapshot).filterMap fun row => row.e1.cutoverId).count cutoverId ≤ 1 := by
  obtain ⟨row, hrow, rfl⟩ := List.mem_map.1 hreport
  cases hcutover : row.e1.cutoverId with
  | none =>
      simp only [hcutover] at hcandidate ⊢
      exact ⟨hrow, fun cutoverId h => by cases h⟩
  | some cutoverId =>
      simp only [hcutover] at hcandidate ⊢
      by_cases hshared : 1 < ((keyReports snapshot).filterMap fun row => row.e1.cutoverId).count cutoverId
      · rw [if_pos hshared] at hcandidate
        cases hcandidate
      · rw [if_neg hshared]
        refine ⟨hrow, ?_⟩
        intro other hother
        rw [hcutover] at hother
        cases hother
        exact Nat.not_lt.1 hshared

theorem mem_buildReport_of_unshared {report : KeyReport} (hreport : report ∈ keyReports snapshot) {cutoverId : Int}
    (hcutover : report.e1.cutoverId = some cutoverId)
    (hunshared : ((keyReports snapshot).filterMap fun row => row.e1.cutoverId).count cutoverId ≤ 1) : report ∈ buildReport snapshot := by
  refine List.mem_map.2 ⟨report, hreport, ?_⟩
  simp only [hcutover]
  exact if_neg (Nat.not_lt.2 hunshared)

/-- The comparison of the records changes no record. -/
theorem exists_cutoverId_buildReport {report : KeyReport} (hreport : report ∈ keyReports snapshot) :
    ∃ marked ∈ buildReport snapshot, marked.rowId = report.rowId ∧ marked.e1.cutoverId = report.e1.cutoverId := by
  refine ⟨_, List.mem_map_of_mem hreport, ?_⟩
  split
  · exact ⟨rfl, rfl⟩
  · split <;> exact ⟨rfl, rfl⟩

/-! ### Evidence and records -/

/-- The cutovers of a scope, and the installations its tokens are bound to. -/
theorem enrollmentRows_eq_singleton_iff (hkeyed : snapshot.Keyed) (scope : Scope) (cutover : CutoverRow) (note : Int × Int) :
    enrollmentRows (snapshot.cutovers.filter fun row => row.scope = scope) = [(cutover, note)]
      ↔ cutover ∈ snapshot.cutovers ∧ cutover.scope = scope ∧ enrollmentNote cutover = some note
        ∧ ∀ other ∈ snapshot.cutovers, other.scope = scope → enrollmentNote other ≠ none → other = cutover := by
  have hmem : ∀ row : CutoverRow × Int × Int, row ∈ enrollmentRows (snapshot.cutovers.filter fun row => row.scope = scope)
      ↔ row.1 ∈ snapshot.cutovers ∧ row.1.scope = scope ∧ enrollmentNote row.1 = some row.2 := by
    intro row
    simp only [enrollmentRows, List.mem_filterMap, List.mem_filter, decide_eq_true_eq, Option.map_eq_some_iff]
    constructor
    · rintro ⟨other, hother, note, hnote, rfl⟩
      exact ⟨hother.1, hother.2, hnote⟩
    · rintro ⟨hrow, hscope, hnote⟩
      exact ⟨row.1, ⟨hrow, hscope⟩, row.2, hnote, rfl⟩
  constructor
  · intro hrows
    have hself := (hmem (cutover, note)).1 (hrows ▸ List.mem_singleton_self _)
    refine ⟨hself.1, hself.2.1, hself.2.2, ?_⟩
    intro other hother hscope hform
    obtain ⟨otherNote, hnote⟩ := Option.ne_none_iff_exists'.1 hform
    have hrow := (hmem (other, otherNote)).2 ⟨hother, hscope, hnote⟩
    rw [hrows] at hrow
    exact congrArg Prod.fst (List.mem_singleton.1 hrow)
  · rintro ⟨hcutover, hscope, hnote, honly⟩
    have hall : ∀ row ∈ enrollmentRows (snapshot.cutovers.filter fun row => row.scope = scope), row = (cutover, note) := by
      intro row hrow
      obtain ⟨hrowMem, hrowScope, hrowNote⟩ := (hmem row).1 hrow
      have hsame := honly row.1 hrowMem hrowScope (hrowNote ▸ Option.some_ne_none _)
      rw [hsame, hnote] at hrowNote
      exact Prod.ext hsame (Option.some.inj hrowNote).symm
    have hnodup : (enrollmentRows (snapshot.cutovers.filter fun row => row.scope = scope)).Nodup := by
      apply List.Nodup.filterMap _ (hkeyed.cutovers.of_map.filter _)
      intro left right row hleft hright
      obtain ⟨_, -, rfl⟩ := Option.map_eq_some_iff.1 hleft
      obtain ⟨_, -, heq⟩ := Option.map_eq_some_iff.1 hright
      exact (congrArg Prod.fst heq).symm
    by_contra hne
    rcases (hnodup.ne_singleton_iff _).1 hne with hnone | ⟨row, hrow, hother⟩
    · have hsome := (hmem (cutover, note)).2 ⟨hcutover, hscope, hnote⟩
      rw [hnone] at hsome
      cases hsome
    · exact hother (hall row hrow)

theorem mem_boundInstallations {scope : Scope} {installationId : Int} : installationId ∈ boundInstallations snapshot scope
    ↔ ∃ token ∈ snapshot.tokens, token.scope = scope ∧ token.installationId = some installationId := by
  simp only [boundInstallations, List.mem_filterMap, List.mem_filter, decide_eq_true_eq, and_assoc]

/-- The heartbeat coincides with one installation at most: the one that is asked for. -/
theorem heartbeatInstallations_iff (hkeyed : snapshot.Keyed) (key : KeyRow) {branch : BranchRow} {installation : InstallationRow}
    (hbranch : installation.branchId = branch.id) :
    (heartbeatInstallations key (installationsAt snapshot (some branch)) = []
        ∨ heartbeatInstallations key (installationsAt snapshot (some branch)) = [installation.id])
      ↔ HeartbeatAgrees snapshot key installation := by
  have hmem : ∀ id, id ∈ heartbeatInstallations key (installationsAt snapshot (some branch))
      ↔ ∃ row ∈ snapshot.installations, row.branchId = installation.branchId ∧ key.lastHeartbeatAt ≠ none
        ∧ row.lastSeenAt = key.lastHeartbeatAt ∧ row.id = id := by
    intro id
    rw [heartbeatInstallations, hbranch]
    cases key.lastHeartbeatAt with
    | none => simp
    | some heartbeat =>
        simp only [List.mem_mergeSort, List.mem_map, List.mem_filter, installationsAt, Option.any_some, decide_eq_true_eq,
          and_assoc, ne_eq, reduceCtorEq, not_false_eq_true, true_and]
  have hnodup : (heartbeatInstallations key (installationsAt snapshot (some branch))).Nodup := by
    rw [heartbeatInstallations]
    split
    · exact List.nodup_nil
    · rw [(List.mergeSort_perm _ _).nodup_iff]
      exact hkeyed.installations.sublist ((List.filter_sublist.trans List.filter_sublist).map _)
  constructor
  · intro h other hother hsame hbeat hseen
    have hid := (hmem other.id).2 ⟨other, hother, hsame, hbeat, hseen, rfl⟩
    rcases h with hnone | hone
    · rw [hnone] at hid
      cases hid
    · rw [hone] at hid
      exact List.mem_singleton.1 hid
  · intro h
    by_contra hneither
    rw [not_or] at hneither
    rcases (hnodup.ne_singleton_iff _).1 hneither.2 with hnone | ⟨id, hid, hne⟩
    · exact hneither.1 hnone
    · obtain ⟨row, hrow, hsame, hbeat, hseen, rfl⟩ := (hmem id).1 hid
      exact hne (h row hrow hsame hbeat hseen)

/-- The evidence of a key agrees where its scope has an enrollment record, used at that instant, that its heartbeat agrees
with. -/
theorem agrees_iff (hkeyed : snapshot.Keyed) (key : KeyRow) (cutover : CutoverRow) (codeId installationId : Int) :
    Agrees key (snapshot.cutovers.filter fun row => row.scope = key.scope) (Dict.indexBy CodeRow.id snapshot.codes)
        (Dict.indexBy InstallationRow.id snapshot.installations) ((mapped snapshot).get? key.scope)
        (boundInstallations snapshot key.scope)
        (heartbeatInstallations key (installationsAt snapshot ((mapped snapshot).get? key.scope))) cutover codeId installationId
      ↔ ∃ code installation, EnrollmentRecord snapshot key cutover code installation ∧ code.usedAt = some key.createdAt
        ∧ HeartbeatAgrees snapshot key installation ∧ code.id = codeId ∧ installation.id = installationId := by
  constructor
  · intro h
    obtain ⟨hcutover, hscope, hnote, honly⟩ := (enrollmentRows_eq_singleton_iff hkeyed _ _ _).1 h.rows
    obtain ⟨code, hcode, hcodeInstallation, hused, hcontract, hunrevoked⟩ := h.code
    obtain ⟨installation, own, hinstallation, hown, hbranch⟩ := h.installation
    obtain ⟨hcodeMem, rfl⟩ := (Dict.get?_indexBy hkeyed.codes _ _).1 hcode
    obtain ⟨hinstallationMem, rfl⟩ := (Dict.get?_indexBy hkeyed.installations _ _).1 hinstallation
    have hheartbeat := h.heartbeat
    rw [hown] at hheartbeat
    exact ⟨code, installation, ⟨hcutover, hscope, hnote, honly, h.instant, hcodeMem, hcodeInstallation, hused ▸ Option.some_ne_none _,
      hcontract, hunrevoked, hinstallationMem, ⟨own, hown, hbranch⟩, mem_boundInstallations.1 h.token⟩, hused,
      (heartbeatInstallations_iff hkeyed key hbranch).1 hheartbeat, rfl, rfl⟩
  · rintro ⟨code, installation, hrecord, hused, hheartbeat, rfl, rfl⟩
    obtain ⟨own, hown, hbranch⟩ := hrecord.branch
    refine ⟨(enrollmentRows_eq_singleton_iff hkeyed _ _ _).2 ⟨hrecord.cutover_mem, hrecord.cutover_scope, hrecord.note,
      hrecord.only⟩, hrecord.instant, ?_, ?_, mem_boundInstallations.2 hrecord.token, ?_⟩
    · exact ⟨code, (Dict.get?_indexBy hkeyed.codes _ _).2 ⟨hrecord.code_mem, rfl⟩, hrecord.code_installation, hused,
        hrecord.contract, hrecord.unrevoked⟩
    · exact ⟨installation, own, (Dict.get?_indexBy hkeyed.installations _ _).2 ⟨hrecord.installation_mem, rfl⟩, hown, hbranch⟩
    · rw [hown]
      exact (heartbeatInstallations_iff hkeyed key hbranch).2 hheartbeat

/-- What a candidate of the report rests on. -/
theorem record_of_candidate (hkeyed : snapshot.Keyed) {report : KeyReport} (hreport : report ∈ buildReport snapshot)
    (hcandidate : report.e1.status = .candidate) :
    ∃ key ∈ snapshot.keys, ∃ cutover code installation, report = { keyReport snapshot key.scope key with
          e1 := agreed cutover code.id installation.id }
      ∧ EnrollmentRecord snapshot key cutover code installation ∧ code.usedAt = some key.createdAt := by
  obtain ⟨key, hkey, rfl⟩ := mem_keyReports.1 (mem_buildReport_candidate hreport hcandidate).1
  obtain ⟨cutover, codeId, installationId, hagrees⟩ := agrees_of_candidate hcandidate
  obtain ⟨code, installation, hrecord, hused, -, rfl, rfl⟩ := (agrees_iff hkeyed key cutover codeId installationId).1 hagrees
  refine ⟨key, hkey, cutover, code, installation, ?_, hrecord, hused⟩
  rw [← e1_of_agrees hagrees]
  rfl

/-- Two candidates rest on two cutovers. -/
theorem cutoverId_ne_of_candidates {left right : KeyReport} (hleft : left ∈ buildReport snapshot) (hright : right ∈ buildReport snapshot)
    (hleftCandidate : left.e1.status = .candidate) (hrightCandidate : right.e1.status = .candidate) (hne : left ≠ right)
    {cutoverId : Int} (hcutover : left.e1.cutoverId = some cutoverId) : right.e1.cutoverId ≠ some cutoverId := by
  intro hother
  obtain ⟨hmem, hcount⟩ := mem_buildReport_candidate hleft hleftCandidate
  have hshared := one_lt_count_filterMap (f := fun row : KeyReport => row.e1.cutoverId) hmem
    (mem_buildReport_candidate hright hrightCandidate).1 hne hcutover hother
  exact absurd (hcount cutoverId hcutover) (Nat.not_le.2 hshared)

/-- Two candidates of one scope are one key. -/
theorem eq_of_candidates_at_scope (hkeyed : snapshot.Keyed) {left right : KeyReport} (hleft : left ∈ buildReport snapshot)
    (hright : right ∈ buildReport snapshot) (hleftCandidate : left.e1.status = .candidate)
    (hrightCandidate : right.e1.status = .candidate) (hscope : left.scope = right.scope) : left = right := by
  obtain ⟨key, -, cutover, code, installation, hreport, hrecord, -⟩ := record_of_candidate hkeyed hleft hleftCandidate
  obtain ⟨other, -, second, otherCode, otherInstallation, hreport', hrecord', -⟩ :=
    record_of_candidate hkeyed hright hrightCandidate
  by_contra hne
  have hkeys : key.scope = other.scope := by
    rw [hreport, hreport'] at hscope
    exact hscope
  have hsame : second = cutover := hrecord.only second hrecord'.cutover_mem (hrecord'.cutover_scope.trans hkeys.symm)
    (hrecord'.note ▸ Option.some_ne_none _)
  have hleftCutover : left.e1.cutoverId = some cutover.id := by
    rw [hreport]
    rfl
  have hrightCutover : right.e1.cutoverId = some cutover.id := by
    rw [hreport', hsame]
    rfl
  exact cutoverId_ne_of_candidates hleft hright hleftCandidate hrightCandidate hne hleftCutover hrightCutover

/-- Two candidates rest on two installations. -/
theorem installation_ne_of_candidates (hkeyed : snapshot.Keyed) {left right : KeyReport} (hleft : left ∈ buildReport snapshot)
    (hright : right ∈ buildReport snapshot) (hleftCandidate : left.e1.status = .candidate)
    (hrightCandidate : right.e1.status = .candidate) (hne : left ≠ right) :
    left.e1.candidateInstallationId ≠ right.e1.candidateInstallationId ∧ left.e1.enrollmentCodeId ≠ right.e1.enrollmentCodeId := by
  obtain ⟨key, -, cutover, code, installation, hreport, hrecord, -⟩ := record_of_candidate hkeyed hleft hleftCandidate
  obtain ⟨other, -, second, otherCode, otherInstallation, hreport', hrecord', -⟩ :=
    record_of_candidate hkeyed hright hrightCandidate
  have hinstallations : installation ≠ otherInstallation := by
    rintro rfl
    obtain ⟨branch, hbranch, hid⟩ := hrecord.branch
    obtain ⟨branch', hbranch', hid'⟩ := hrecord'.branch
    apply hne
    apply eq_of_candidates_at_scope hkeyed hleft hright hleftCandidate hrightCandidate
    rw [hreport, hreport']
    exact scope_eq_of_branch hkeyed hbranch hbranch' (hid.symm.trans hid')
  rw [hreport, hreport']
  constructor
  · intro hid
    exact hinstallations (List.inj_on_of_nodup_map hkeyed.installations hrecord.installation_mem hrecord'.installation_mem
      (Option.some.inj hid))
  · intro hid
    have hcodes := List.inj_on_of_nodup_map hkeyed.codes hrecord.code_mem hrecord'.code_mem (Option.some.inj hid)
    apply hinstallations
    apply List.inj_on_of_nodup_map hkeyed.installations hrecord.installation_mem hrecord'.installation_mem
    rw [← hrecord.code_installation, hcodes, hrecord'.code_installation]

/-- A record that no other key uses makes its key a candidate. -/
theorem candidate_of_record (hkeyed : snapshot.Keyed) {key : KeyRow} (hkey : key ∈ snapshot.keys) {cutover : CutoverRow}
    {code : CodeRow} {installation : InstallationRow} (hrecord : EnrollmentRecord snapshot key cutover code installation)
    (hused : code.usedAt = some key.createdAt) (hheartbeat : HeartbeatAgrees snapshot key installation)
    (hunshared : ∀ other ∈ buildReport snapshot, other.rowId ≠ key.id → other.e1.cutoverId ≠ some cutover.id) :
    ∃ report ∈ buildReport snapshot, report.rowId = key.id ∧ report.e1.status = .candidate := by
  have hagrees := (agrees_iff hkeyed key cutover code.id installation.id).2
    ⟨code, installation, hrecord, hused, hheartbeat, rfl, rfl⟩
  have he1 := e1_of_agrees hagrees
  have hreport : keyReport snapshot key.scope key ∈ keyReports snapshot := mem_keyReports.2 ⟨key, hkey, rfl⟩
  have hcutover : (keyReport snapshot key.scope key).e1.cutoverId = some cutover.id := congrArg E1.cutoverId he1
  refine ⟨_, mem_buildReport_of_unshared hreport hcutover ?_, rfl, congrArg E1.status he1⟩
  -- every row that names the cutover is the row of this key
  rw [List.count_filterMap]
  have hids := List.nodup_iff_count_le_one.1 (nodup_rowIds hkeyed) key.id
  rw [List.count, List.countP_map] at hids
  refine Nat.le_trans (List.countP_mono_left ?_) hids
  intro row hrow hnames
  by_contra hother
  obtain ⟨marked, hmarked, hid, hcutover⟩ := exists_cutoverId_buildReport hrow
  apply hunshared marked hmarked
  · rw [hid]
    simpa using hother
  · rw [hcutover]
    simpa using hnames

end Reports

/-- The inventory never names two owners by one record: of one scope one key at most is a candidate, no two candidates share a
cutover, a code or an installation, and every candidate rests on its scope's one enrollment record, whose code was used at that
instant. A key with such a record that no other key's evidence uses, and whose heartbeat agrees with it, is a candidate. -/
theorem one_record_names_one_owner {snapshot : Snapshot} (hkeyed : snapshot.Keyed) :
    (∀ left ∈ buildReport snapshot, ∀ right ∈ buildReport snapshot, left.e1.status = .candidate → right.e1.status = .candidate →
        left ≠ right → left.scope ≠ right.scope ∧ left.e1.cutoverId ≠ right.e1.cutoverId
          ∧ left.e1.enrollmentCodeId ≠ right.e1.enrollmentCodeId
          ∧ left.e1.candidateInstallationId ≠ right.e1.candidateInstallationId)
      ∧ (∀ report ∈ buildReport snapshot, report.e1.status = .candidate → ∃ key ∈ snapshot.keys, ∃ cutover code installation,
          report.rowId = key.id ∧ report.keyId = key.keyId ∧ report.scope = key.scope
            ∧ report.e1.cutoverId = some cutover.id ∧ report.e1.enrollmentCodeId = some code.id
            ∧ report.e1.candidateInstallationId = some installation.id
            ∧ EnrollmentRecord snapshot key cutover code installation ∧ code.usedAt = some key.createdAt)
      ∧ ∀ key ∈ snapshot.keys, ∀ cutover code installation, EnrollmentRecord snapshot key cutover code installation →
          code.usedAt = some key.createdAt → HeartbeatAgrees snapshot key installation →
          (∀ other ∈ buildReport snapshot, other.rowId ≠ key.id → other.e1.cutoverId ≠ some cutover.id) →
          ∃ report ∈ buildReport snapshot, report.rowId = key.id ∧ report.e1.status = .candidate := by
  refine ⟨?_, ?_, ?_⟩
  · intro left hleft right hright hleftCandidate hrightCandidate hne
    obtain ⟨hinstallation, hcode⟩ := installation_ne_of_candidates hkeyed hleft hright hleftCandidate hrightCandidate hne
    refine ⟨?_, ?_, hcode, hinstallation⟩
    · intro hscope
      exact hne (eq_of_candidates_at_scope hkeyed hleft hright hleftCandidate hrightCandidate hscope)
    · intro hcutover
      obtain ⟨key, -, cutover, code, installation, hreport, -⟩ := record_of_candidate hkeyed hleft hleftCandidate
      have hsome : left.e1.cutoverId = some cutover.id := by
        rw [hreport]
        rfl
      exact cutoverId_ne_of_candidates hleft hright hleftCandidate hrightCandidate hne hsome (hcutover.symm.trans hsome)
  · intro report hreport hcandidate
    obtain ⟨key, hkey, cutover, code, installation, rfl, hrecord, hused⟩ := record_of_candidate hkeyed hreport hcandidate
    exact ⟨key, hkey, cutover, code, installation, rfl, rfl, rfl, rfl, rfl, rfl, hrecord, hused⟩
  · intro key hkey cutover code installation hrecord hused hheartbeat hunshared
    exact candidate_of_record hkeyed hkey hrecord hused hheartbeat hunshared

/-! ### A code used at another instant -/

/-- One branch that enrolled one installation, whose code was used at some instant. -/
def enrolledSnapshot (usedAt : Int) : Snapshot where
  keys := [⟨1, "k".toList, 10, 20, 5, none⟩]
  tokens := [⟨1, 10, 20, some 3⟩]
  installations := [⟨3, 2, none⟩]
  codes := [⟨4, 3, some usedAt, none, 2⟩]
  cutovers := [⟨6, 10, 20, some enrollmentSetBy, 5, some "initial v2 cutover | enrollment_code_id=4 installation_id=3".toList⟩]
  organizations := [⟨7, some 10⟩]
  branches := [⟨2, 7, some 20⟩]

theorem enrolledSnapshot_keyed (usedAt : Int) : (enrolledSnapshot usedAt).Keyed :=
  ⟨List.nodup_singleton _, List.nodup_singleton _, List.nodup_singleton _, List.nodup_singleton _, List.nodup_singleton _,
    List.nodup_singleton _, List.nodup_singleton _, List.nodup_singleton _⟩

theorem readNote_enrolled : readNote "initial v2 cutover | enrollment_code_id=4 installation_id=3".toList = some (4, 3) := by decide

theorem enrolledSnapshot_record (usedAt : Int) :
    EnrollmentRecord (enrolledSnapshot usedAt) ⟨1, "k".toList, 10, 20, 5, none⟩
      ⟨6, 10, 20, some enrollmentSetBy, 5, some "initial v2 cutover | enrollment_code_id=4 installation_id=3".toList⟩
      ⟨4, 3, some usedAt, none, 2⟩ ⟨3, 2, none⟩ where
  cutover_mem := List.mem_singleton_self _
  cutover_scope := rfl
  note := (if_pos rfl).trans readNote_enrolled
  only _ hother _ _ := List.mem_singleton.1 hother
  instant := rfl
  code_mem := List.mem_singleton_self _
  code_installation := rfl
  used := Option.some_ne_none _
  contract := rfl
  unrevoked := rfl
  installation_mem := List.mem_singleton_self _
  branch := ⟨⟨2, 7, some 20⟩, rfl, rfl⟩
  token := ⟨⟨1, 10, 20, some 3⟩, List.mem_singleton_self _, rfl, rfl⟩

/-- A key whose enrollment record agrees, but for the instant at which its code was used, is no candidate. -/
theorem no_candidate_of_code_used_later :
    ∃ snapshot key cutover code installation, snapshot.Keyed ∧ key ∈ snapshot.keys
      ∧ EnrollmentRecord snapshot key cutover code installation ∧ HeartbeatAgrees snapshot key installation
      ∧ (∀ other ∈ buildReport snapshot, other.rowId ≠ key.id → other.e1.cutoverId ≠ some cutover.id)
      ∧ ∀ report ∈ buildReport snapshot, report.rowId = key.id → report.e1.status ≠ .candidate := by
  refine ⟨enrolledSnapshot 9, _, _, _, _, enrolledSnapshot_keyed 9, List.mem_singleton_self _, enrolledSnapshot_record 9, ?_, ?_, ?_⟩
  · intro other hother _ _ _
    exact congrArg InstallationRow.id (List.mem_singleton.1 hother)
  · intro other hother hid
    obtain ⟨row, hrow, rfl⟩ := List.mem_map.1 hother
    obtain ⟨key, hkey, rfl⟩ := mem_keyReports.1 hrow
    obtain rfl := List.mem_singleton.1 hkey
    exact absurd (by split <;> [rfl; (split <;> rfl)]) hid
  · intro report hreport _ hcandidate
    obtain ⟨key, hkey, cutover, code, installation, -, hrecord, hused⟩ :=
      record_of_candidate (enrolledSnapshot_keyed 9) hreport hcandidate
    obtain rfl := List.mem_singleton.1 hkey
    obtain rfl := List.mem_singleton.1 hrecord.code_mem
    cases hused

/-- A key whose code was used when it was created is a candidate. -/
theorem one_record_names_one_owner_sample :
    ∃ report ∈ buildReport (enrolledSnapshot 5), report.rowId = 1 ∧ report.e1.status = .candidate := by
  apply (one_record_names_one_owner (enrolledSnapshot_keyed 5)).2.2 _ (List.mem_singleton_self _) _ _ _ (enrolledSnapshot_record 5)
    rfl
  · intro other hother _ _ _
    exact congrArg InstallationRow.id (List.mem_singleton.1 hother)
  · intro other hother hid
    obtain ⟨row, hrow, rfl⟩ := List.mem_map.1 hother
    obtain ⟨key, hkey, rfl⟩ := mem_keyReports.1 hrow
    obtain rfl := List.mem_singleton.1 hkey
    exact absurd (by split <;> [rfl; (split <;> rfl)]) hid

end KeyInventory

end SortView
