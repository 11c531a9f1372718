import SortView.Services.AcsItemSummary
import SortView.Services.HoldRules
import SortView.Services.OperationalMetrics

/-!
# The narrow read of the holds report

`services/hold_report_service.py`, of the legacy era: the rows that its statement selects, the two counts that it takes from
them, and when these are the counts of all rows with the rules of the merged documents.
-/

namespace SortView

namespace HoldReport

open PyText Latest AcsItemSummary

/-! ### The statement -/

/-- `btrim(text)`: spaces only. -/
def btrim (text : Text) : Text := ((text.dropWhile (· = ' ')).reverse.dropWhile (· = ' ')).reverse

/-- `raw_message LIKE '101%' OR btrim(message_code) = '64'`, where NULL selects nothing. -/
def selects (row : AcsRow) : Bool :=
  row.rawMessage.any (fun raw => "101".toList.isPrefixOf raw) || row.messageCode.any fun code => btrim code = "64".toList

/-- The rows of a site in a span. -/
def inSpan (tenant : ResolvedOperationalTenant) (span : Int × Int) (row : AcsRow) : Bool :=
  row.customerId = tenant.operationalCustomerId && row.branchId = tenant.operationalBranchId
    && span.1 ≤ row.eventTime && row.eventTime < span.2

def spanRows (tenant : ResolvedOperationalTenant) (span : Int × Int) (stored : List AcsRow) : List AcsRow :=
  stored.filter (inSpan tenant span)

/-- The rows of `_V1_ROWS`. -/
def v1Rows (tenant : ResolvedOperationalTenant) (span : Int × Int) (stored : List AcsRow) : List AcsRow :=
  stored.filter fun row => inSpan tenant span row && selects row

/-! ### The report -/

structure HoldsReport where
  publicHoldCount : Nat
  illHoldCount : Nat
  deriving DecidableEq

/-- `build_acs_item_summary` with the rules of a site, and the two counts that are taken of it. -/
def holdsOf (sorting : TimeSort AcsRow.eventTime) (isWord : Char → Bool) (rows : List AcsRow) (transitLabels : List Text)
    (rules : V1HoldRules) : HoldsReport :=
  let legacy := buildAcsItemSummary sorting isWord rows transitLabels rules.branchServicesNames rules.collectionServicesNames
    rules.branchServicesDaPatterns rules.collectionServicesDaPatterns
  ⟨legacy.holdsTotal, legacy.illTotal⟩

/-- `get_holds_report`, of a span that the legacy era owns: from the rows of its two statements. -/
def legacyHolds (sorting : TimeSort AcsRow.eventTime) (isWord : Char → Bool) (str : Json → Text) (rules : List HoldRulesRow)
    (rows : List AcsRow) : Except String HoldsReport := do
  let rules ← legacyHoldRules str rules
  return holdsOf sorting isWord rows [] rules

/-! ### What the statement selects -/

theorem selects_of_isItem {row : AcsRow} (h : isItem row = true) : selects row = true := by
  rw [isItem, raw] at h
  rw [selects]
  cases hraw : row.rawMessage with
  | none =>
      rw [hraw] at h
      cases h
  | some text =>
      rw [hraw] at h
      rw [Option.any_some, Option.getD_some] at *
      rw [h, Bool.true_or]

/-- The narrow read loses nothing where the latest patron of every latest hold is selected, and the branch's document does not
merely name the rules, or the organization has none. -/
theorem narrow_read_loses_nothing (sorting : TimeSort AcsRow.eventTime) (isWord : Char → Bool) (str : Json → Text)
    (tenant : ResolvedOperationalTenant) (span : Int × Int) (stored : List AcsRow) (organization branch : SettingsDocument)
    (transitLabels : List Text)
    (hitems : Distinct AcsRow.barcode AcsRow.eventTime ((spanRows tenant span stored).filter isItem))
    (hpatrons : Distinct AcsRow.patronId AcsRow.eventTime ((spanRows tenant span stored).filter isPatron))
    (hread : PatronsRead selects (spanRows tenant span stored))
    (hrules : NamesRules branch → v1HoldRules str (Json.get organization.items internalRoutingKey) = v1HoldRules str .null)
    {narrow whole : List AcsRow} (hnarrow : narrow.Perm (v1Rows tenant span stored)) (hwhole : whole.Perm (spanRows tenant span stored)) :
    legacyHolds sorting isWord str [holdRulesRow organization branch] narrow
      = .ok (holdsOf sorting isWord whole transitLabels (effectiveHoldRules str organization branch)) := by
  have hselected : v1Rows tenant span stored = (spanRows tenant span stored).filter selects := by
    rw [v1Rows, spanRows, List.filter_filter]
    exact List.filter_congr fun row _ => Bool.and_comm ..
  have hall : (spanRows tenant span stored).filter (fun _ => true) = spanRows tenant span stored := List.filter_true _
  have heffective := (legacyHoldRules_eq_iff str organization branch).2 hrules
  have hnarrowTotals := totals_eq sorting hitems hpatrons (fun row h => selects_of_isItem h) (hselected ▸ hnarrow) hread isWord [] []
  have hwholeTotals := totals_eq sorting hitems hpatrons (fun _ _ => rfl) (hall.symm ▸ hwhole) (fun _ _ _ _ _ _ => rfl) isWord
    transitLabels []
  rw [legacyHolds, heffective]
  show Except.ok (holdsOf _ _ _ _ _) = Except.ok (holdsOf _ _ _ _ _)
  rw [holdsOf, holdsOf]
  dsimp only at hnarrowTotals hwholeTotals ⊢
  rw [(hnarrowTotals _ _ _ _).1, (hnarrowTotals _ _ _ _).2, (hwholeTotals _ _ _ _).1, (hwholeTotals _ _ _ _).2]

/-! ### A patron record that is not selected -/

def site : ResolvedOperationalTenant := ⟨['c'], ['b']⟩

def noSettings : SettingsDocument := ⟨none, fun _ h => nomatch h⟩

/-- A hold, and the record of its patron, whose type is ILL, under a message code. -/
def holdOfPatron (messageCode : Text) : List AcsRow :=
  [⟨['c'], ['b'], 1, some "10".toList, some ['i'], none, some ['p'], some "101YNY".toList⟩,
    ⟨['c'], ['b'], 2, some messageCode, none, none, some ['p'], some "|PTILL".toList⟩]

/-- A patron record whose code ends in a tab is not read, and its interlibrary hold counts as a public one. -/
theorem patron_with_a_tab_is_lost :
    let stored := holdOfPatron "64\t".toList
    let sorting := insertionTimeSort AcsRow.eventTime
    Distinct AcsRow.barcode AcsRow.eventTime ((spanRows site (0, 10) stored).filter isItem)
      ∧ Distinct AcsRow.patronId AcsRow.eventTime ((spanRows site (0, 10) stored).filter isPatron)
      ∧ legacyHolds sorting Char.isAlphanum (fun _ => []) [holdRulesRow noSettings noSettings] (v1Rows site (0, 10) stored)
          ≠ .ok (holdsOf sorting Char.isAlphanum (spanRows site (0, 10) stored) []
            (effectiveHoldRules (fun _ => []) noSettings noSettings)) := by
  have hpublic : legacyHolds (insertionTimeSort AcsRow.eventTime) Char.isAlphanum (fun _ => []) [holdRulesRow noSettings noSettings]
      (v1Rows site (0, 10) (holdOfPatron "64\t".toList)) = .ok ⟨1, 0⟩ := by rfl
  have hill : holdsOf (insertionTimeSort AcsRow.eventTime) Char.isAlphanum (spanRows site (0, 10) (holdOfPatron "64\t".toList)) []
      (effectiveHoldRules (fun _ => []) noSettings noSettings) = ⟨0, 1⟩ := by rfl
  refine ⟨List.pairwise_singleton _ _, List.pairwise_singleton _ _, ?_⟩
  intro h
  rw [hpublic, hill] at h
  cases h

/-- A patron record of code 64 is read. -/
theorem narrow_read_loses_nothing_sample :
    legacyHolds (insertionTimeSort AcsRow.eventTime) Char.isAlphanum (fun _ => []) [holdRulesRow noSettings noSettings]
        (v1Rows site (0, 10) (holdOfPatron "64".toList))
      = .ok (holdsOf (insertionTimeSort AcsRow.eventTime) Char.isAlphanum (spanRows site (0, 10) (holdOfPatron "64".toList)) []
          (effectiveHoldRules (fun _ => []) noSettings noSettings)) := by
  refine narrow_read_loses_nothing (insertionTimeSort AcsRow.eventTime) Char.isAlphanum (fun _ => []) site (0, 10)
    (holdOfPatron "64".toList) noSettings noSettings [] (List.pairwise_singleton _ _) (List.pairwise_singleton _ _) ?_ ?_
    (List.Perm.refl _) (List.Perm.refl _)
  · intro hold patron _ _ hpatron _
    obtain rfl := List.mem_singleton.1 hpatron.1
    rfl
  · intro hnames
    exact nomatch hnames.1

end HoldReport

end SortView
