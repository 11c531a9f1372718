import Mathlib.Data.List.Dedup
import SortView.Lib.Dict
import SortView.Lib.Text

/-!
# The inventory of ingest keys

`scripts/reconcile_ingest_keys.py`: the enrollment evidence of each key of a snapshot, and the records that fit several keys.
Of the report only this evidence is here; its flags, events, branches and summary decide nothing about it.
-/

namespace SortView

namespace KeyInventory

open PyText

/-! ### The snapshot -/

/-- The operational customer and branch that a key, a token and a cutover carry. -/
abbrev Scope := Int × Int

structure KeyRow where
  id : Int
  keyId : Text
  customerId : Int
  branchId : Int
  createdAt : Int
  lastHeartbeatAt : Option Int
  deriving DecidableEq

structure TokenRow where
  id : Int
  customerId : Int
  branchId : Int
  installationId : Option Int
  deriving DecidableEq

structure InstallationRow where
  id : Int
  branchId : Int
  lastSeenAt : Option Int
  deriving DecidableEq

structure CodeRow where
  id : Int
  installationId : Int
  usedAt : Option Int
  revokedAt : Option Int
  requiredContract : Int
  deriving DecidableEq

structure CutoverRow where
  id : Int
  customerId : Int
  branchId : Int
  setBy : Option Text
  setAt : Int
  note : Option Text
  deriving DecidableEq

structure OrganizationRow where
  id : Int
  operationalCustomerId : Option Int
  deriving DecidableEq

structure BranchRow where
  id : Int
  organizationId : Int
  operationalBranchId : Option Int
  deriving DecidableEq

structure Snapshot where
  keys : List KeyRow
  tokens : List TokenRow
  installations : List InstallationRow
  codes : List CodeRow
  cutovers : List CutoverRow
  organizations : List OrganizationRow
  branches : List BranchRow

/-- `_scope`. -/
def KeyRow.scope (row : KeyRow) : Scope := (row.customerId, row.branchId)

def TokenRow.scope (row : TokenRow) : Scope := (row.customerId, row.branchId)

def CutoverRow.scope (row : CutoverRow) : Scope := (row.customerId, row.branchId)

/-! ### The note of a redemption -/

/-- `ENROLLMENT_SET_BY`. -/
def enrollmentSetBy : Text := "collector-enrollment".toList

/-- `([0-9]{1,18})`, where no digit follows. -/
def readId (text : Text) : Option (Int × Text) :=
  let digits := text.takeWhile Char.isDigit
  if digits ≠ [] ∧ digits.length ≤ 18 then some ((Nat.ofDigitChars 10 digits 0 : Nat), text.dropWhile Char.isDigit) else none

/-- `_ENROLLMENT_NOTE.fullmatch`. -/
def readNote (note : Text) : Option (Int × Int) := do
  let rest ← note.dropPrefix? "initial v2 cutover | enrollment_code_id=".toList
  let (codeId, rest) ← readId rest
  let rest ← rest.dropPrefix? " installation_id=".toList
  let (installationId, rest) ← readId rest
  if rest = [] then some (codeId, installationId) else none

/-- `_enrollment_note`: the code and the installation that a redemption's cutover names. -/
def enrollmentNote (cutover : CutoverRow) : Option (Int × Int) :=
  if cutover.setBy = some enrollmentSetBy then readNote (cutover.note.getD []) else none

/-- `_heartbeat_installations`. -/
def heartbeatInstallations (key : KeyRow) (installations : List InstallationRow) : List Int :=
  match key.lastHeartbeatAt with
  | none => []
  | some heartbeat =>
      ((installations.filter fun row => row.lastSeenAt = some heartbeat).map InstallationRow.id).mergeSort

/-! ### The evidence of one key -/

inductive E1Status where
  | none
  | incomplete
  | conflicting
  | ambiguous
  | candidate
  deriving DecidableEq

structure E1 where
  status : E1Status := .none
  conclusive : Bool := false
  candidateInstallationId : Option Int := Option.none
  cutoverId : Option Int := Option.none
  enrollmentCodeId : Option Int := Option.none
  reasons : List String := []

/-- What the parts of a record disagree on, and what is missing of it. -/
structure Findings where
  conflicts : List String
  missing : List String

def reasonIf (found : Bool) (reason : String) : List String := if found then [reason] else []

def codeFindings (instant installationId : Int) : Option CodeRow → Findings
  | none => ⟨[], ["enrollment_code_missing"]⟩
  | some code =>
      { conflicts := reasonIf (code.installationId ≠ installationId) "code_names_another_installation"
          ++ reasonIf (code.usedAt.any (· ≠ instant)) "code_used_at_differs"
          ++ reasonIf (code.requiredContract ≠ 2) "code_is_not_contract_2"
          ++ reasonIf code.revokedAt.isSome "code_revoked"
        missing := reasonIf code.usedAt.isNone "code_not_marked_used" }

def installationFindings (branch : Option BranchRow) : Option InstallationRow → Findings
  | none => ⟨[], ["installation_missing"]⟩
  | some installation =>
      ⟨reasonIf (branch.all fun branch => installation.branchId ≠ branch.id) "installation_at_another_branch", []⟩

/-- The rows in enrollment form, with what their notes name. -/
def enrollmentRows (cutovers : List CutoverRow) : List (CutoverRow × Int × Int) :=
  cutovers.filterMap fun cutover => (enrollmentNote cutover).map fun note => (cutover, note)

/-- What else the evidence of an agreeing record points at. -/
def ambiguities (enrollmentCount : Nat) (installationId : Int) (heartbeats : List Int) : List String :=
  reasonIf (1 < enrollmentCount) "several_enrollment_cutovers_at_this_branch"
    ++ reasonIf (heartbeats ≠ [] && heartbeats ≠ [installationId]) "heartbeat_coincides_with_another_installation"

/-- `_e1`. -/
def e1 (key : KeyRow) (cutovers : List CutoverRow) (codes : Dict Int CodeRow) (installations : Dict Int InstallationRow)
    (branch : Option BranchRow) (boundTokenInstallations heartbeats : List Int) : E1 :=
  let recorded := enrollmentRows cutovers
  match recorded.filter fun row => row.1.setAt = key.createdAt with
  | [] =>
      if cutovers.any fun cutover => cutover.setAt = key.createdAt then
        { status := .incomplete, reasons := ["cutover_instant_matches_without_enrollment_record"] }
      else if recorded ≠ [] then { status := .incomplete, reasons := ["enrollment_cutover_instant_differs"] }
      else { reasons := ["no_enrollment_cutover"] }
  | [(cutover, codeId, installationId)] =>
      let code := codeFindings key.createdAt installationId (codes.get? codeId)
      let installation := installationFindings branch (installations.get? installationId)
      let conflicts := code.conflicts ++ installation.conflicts
      let missing := code.missing ++ installation.missing
        ++ reasonIf (!boundTokenInstallations.contains installationId) "no_token_bound_to_installation"
      if conflicts ≠ [] ∨ missing ≠ [] then
        { status := if conflicts ≠ [] then .conflicting else .incomplete
          cutoverId := some cutover.id
          enrollmentCodeId := some codeId
          reasons := conflicts ++ missing }
      else
        let ambiguous := ambiguities recorded.length installationId heartbeats
        if ambiguous ≠ [] then
          { status := .ambiguous, cutoverId := some cutover.id, enrollmentCodeId := some codeId, reasons := ambiguous }
        else
          { status := .candidate
            candidateInstallationId := some installationId
            cutoverId := some cutover.id
            enrollmentCodeId := some codeId
            reasons := ["all_e1_parts_agree"] }
  | _ => { status := .ambiguous, reasons := ["several_enrollment_cutovers_at_this_instant"] }

/-! ### The report -/

/-- One key of the report. -/
structure KeyReport where
  rowId : Int
  keyId : Text
  scope : Scope
  heartbeatInstallations : List Int
  e1 : E1

/-- The operational pair of a branch, where its organization and itself are mapped. -/
def branchScope (organizations : Dict Int OrganizationRow) (branch : BranchRow) : Option Scope := do
  let organization ← organizations.get? branch.organizationId
  let customerId ← organization.operationalCustomerId
  let branchId ← branch.operationalBranchId
  return (customerId, branchId)

/-- `mapped`. -/
def mapped (snapshot : Snapshot) : Dict Scope BranchRow :=
  let organizations := Dict.indexBy OrganizationRow.id snapshot.organizations
  snapshot.branches.foldl (fun mapped branch =>
    match branchScope organizations branch with
    | none => mapped
    | some scope => mapped.set scope branch) Dict.empty

def scopeLe (left right : Scope) : Bool := left.1 < right.1 || (left.1 = right.1 && left.2 ≤ right.2)

/-- `scopes`. -/
def scopes (snapshot : Snapshot) : List Scope :=
  ((mapped snapshot).keys ++ snapshot.keys.map KeyRow.scope ++ snapshot.tokens.map TokenRow.scope
    ++ snapshot.cutovers.map CutoverRow.scope).dedup.mergeSort scopeLe

/-- The installations that the tokens of a scope are bound to. -/
def boundInstallations (snapshot : Snapshot) (scope : Scope) : List Int :=
  (snapshot.tokens.filter fun row => row.scope = scope).filterMap TokenRow.installationId

/-- The installations at a branch. -/
def installationsAt (snapshot : Snapshot) (branch : Option BranchRow) : List InstallationRow :=
  snapshot.installations.filter fun row => branch.any fun branch => row.branchId = branch.id

def keyReport (snapshot : Snapshot) (scope : Scope) (key : KeyRow) : KeyReport :=
  let branch := (mapped snapshot).get? scope
  let cutovers := snapshot.cutovers.filter fun row => row.scope = scope
  let heartbeats := heartbeatInstallations key (installationsAt snapshot branch)
  { rowId := key.id
    keyId := key.keyId
    scope := scope
    heartbeatInstallations := heartbeats
    e1 := e1 key cutovers (Dict.indexBy CodeRow.id snapshot.codes) (Dict.indexBy InstallationRow.id snapshot.installations)
      branch (boundInstallations snapshot scope) heartbeats }

/-- The keys of the report before records are compared. -/
def keyReports (snapshot : Snapshot) : List KeyReport :=
  ((scopes snapshot).flatMap fun scope =>
    (snapshot.keys.filter fun key => key.scope = scope).map (keyReport snapshot scope)).mergeSort fun left right =>
      decide (left.rowId ≤ right.rowId)

/-- `_mark_shared_evidence`. -/
def markSharedEvidence (keys : List KeyReport) : List KeyReport :=
  let seen := keys.filterMap fun row => row.e1.cutoverId
  keys.map fun row =>
    match row.e1.cutoverId with
    | none => row
    | some cutoverId =>
        if 1 < seen.count cutoverId then
          { row with e1 := { row.e1 with
            status := .ambiguous
            candidateInstallationId := none
            reasons := ["record_fits_several_keys"] } }
        else row

/-- `build_report`, of the keys. -/
def buildReport (snapshot : Snapshot) : List KeyReport := markSharedEvidence (keyReports snapshot)

end KeyInventory

end SortView
