import SortView.Services.StoredSettings

/-!
# SortView Value settings are stored exactly

The same for the block of SortView Value and the blocks of its two kinds of work, and the three validators together.
-/

namespace SortView

open PyText Calendar

/-! ### What a block denotes -/

/-- What a block says of reporting work. -/
def ReportingDenotes (notAfter : Option Date) (block : Json) (inputs : ReportingInputs) : Prop :=
  match block with
  | .null => inputs = {}
  | .object items => FieldHolds perMonthField.Holds items tasksPerMonthName inputs.tasksPerMonth
      ∧ FieldHolds minutesField.Holds items baselineMinutesPerTaskName inputs.baselineMinutesPerTask
      ∧ FieldHolds minutesField.Holds items currentMinutesPerTaskName inputs.currentMinutesPerTask
      ∧ FieldHolds BasisHolds items basisName inputs.basis
      ∧ FieldHolds (DateHolds notAfter) items asOfName inputs.asOf
  | _ => False

/-- What a block says of troubleshooting work. -/
def TroubleshootingDenotes (notAfter : Option Date) (block : Json) (inputs : TroubleshootingInputs) : Prop :=
  match block with
  | .null => inputs = {}
  | .object items => FieldHolds perMonthField.Holds items incidentsPerMonthName inputs.incidentsPerMonth
      ∧ FieldHolds staffPerIncidentField.Holds items staffPerIncidentName inputs.staffPerIncident
      ∧ FieldHolds minutesField.Holds items baselineMinutesName inputs.baselineMinutes
      ∧ FieldHolds minutesField.Holds items currentMinutesName inputs.currentMinutes
      ∧ FieldHolds BasisHolds items basisName inputs.basis
      ∧ FieldHolds (DateHolds notAfter) items asOfName inputs.asOf
  | _ => False

/-- What a block says of SortView Value. -/
def ValueDenotes (notAfter : Option Date) (block : Json) (settings : SortViewValueSettings) : Prop :=
  match block with
  | .null => settings = {}
  | .object items => FieldHolds valueLaborRateField.Holds items laborRateName settings.laborRate
      ∧ FieldHolds subscriptionAnnualCostField.Holds items subscriptionAnnualCostName settings.subscriptionAnnualCost
      ∧ ReportingDenotes notAfter (Json.get items reportingName) settings.reporting
      ∧ TroubleshootingDenotes notAfter (Json.get items troubleshootingName) settings.troubleshooting
  | _ => False

/-- A field of the reporting block that is faulty or unknown, or the block when it is no object. -/
def ReportingFaulty (notAfter : Option Date) (block : Json) (field : Text) : Prop :=
  match block with
  | .null => False
  | .object items =>
      (field = categoryPath reportingName tasksPerMonthName ∧ FieldFaulty perMonthField.Holds items tasksPerMonthName)
      ∨ (field = categoryPath reportingName baselineMinutesPerTaskName
          ∧ FieldFaulty minutesField.Holds items baselineMinutesPerTaskName)
      ∨ (field = categoryPath reportingName currentMinutesPerTaskName
          ∧ FieldFaulty minutesField.Holds items currentMinutesPerTaskName)
      ∨ (field = categoryPath reportingName basisName ∧ FieldFaulty BasisHolds items basisName)
      ∨ (field = categoryPath reportingName asOfName ∧ FieldFaulty (DateHolds notAfter) items asOfName)
      ∨ ∃ name ∈ items.map Prod.fst, name ∉ reportingFieldNames ∧ field = categoryPath reportingName [] ++ name
  | _ => field = reportingName

/-- A field of the troubleshooting block that is faulty or unknown, or the block when it is no object. -/
def TroubleshootingFaulty (notAfter : Option Date) (block : Json) (field : Text) : Prop :=
  match block with
  | .null => False
  | .object items =>
      (field = categoryPath troubleshootingName incidentsPerMonthName
          ∧ FieldFaulty perMonthField.Holds items incidentsPerMonthName)
      ∨ (field = categoryPath troubleshootingName staffPerIncidentName
          ∧ FieldFaulty staffPerIncidentField.Holds items staffPerIncidentName)
      ∨ (field = categoryPath troubleshootingName baselineMinutesName
          ∧ FieldFaulty minutesField.Holds items baselineMinutesName)
      ∨ (field = categoryPath troubleshootingName currentMinutesName
          ∧ FieldFaulty minutesField.Holds items currentMinutesName)
      ∨ (field = categoryPath troubleshootingName basisName ∧ FieldFaulty BasisHolds items basisName)
      ∨ (field = categoryPath troubleshootingName asOfName ∧ FieldFaulty (DateHolds notAfter) items asOfName)
      ∨ ∃ name ∈ items.map Prod.fst, name ∉ troubleshootingFieldNames ∧ field = categoryPath troubleshootingName [] ++ name
  | _ => field = troubleshootingName

/-- A field of the block is malformed, out of range, after today or unknown, or the block itself is no object. -/
def ValueFaulty (notAfter : Option Date) (block : Json) (field : Text) : Prop :=
  match block with
  | .null => False
  | .object items => (field = laborRateName ∧ FieldFaulty valueLaborRateField.Holds items laborRateName)
      ∨ (field = subscriptionAnnualCostName
          ∧ FieldFaulty subscriptionAnnualCostField.Holds items subscriptionAnnualCostName)
      ∨ ReportingFaulty notAfter (Json.get items reportingName) field
      ∨ TroubleshootingFaulty notAfter (Json.get items troubleshootingName) field
      ∨ (field ∈ items.map Prod.fst ∧ field ∉ valueFieldNames)
  | _ => field = sortviewValueSettingsKey

structure SameReporting (left right : ReportingInputs) : Prop where
  tasksPerMonth : SameNumber left.tasksPerMonth right.tasksPerMonth
  baselineMinutesPerTask : SameNumber left.baselineMinutesPerTask right.baselineMinutesPerTask
  currentMinutesPerTask : SameNumber left.currentMinutesPerTask right.currentMinutesPerTask
  basis : left.basis = right.basis
  asOf : left.asOf = right.asOf

structure SameTroubleshooting (left right : TroubleshootingInputs) : Prop where
  incidentsPerMonth : SameNumber left.incidentsPerMonth right.incidentsPerMonth
  staffPerIncident : SameNumber left.staffPerIncident right.staffPerIncident
  baselineMinutes : SameNumber left.baselineMinutes right.baselineMinutes
  currentMinutes : SameNumber left.currentMinutes right.currentMinutes
  basis : left.basis = right.basis
  asOf : left.asOf = right.asOf

structure SameValueSettings (left right : SortViewValueSettings) : Prop where
  laborRate : SameNumber left.laborRate right.laborRate
  subscriptionAnnualCost : SameNumber left.subscriptionAnnualCost right.subscriptionAnnualCost
  reporting : SameReporting left.reporting right.reporting
  troubleshooting : SameTroubleshooting left.troubleshooting right.troubleshooting

/-- A block with no name but those of SortView Value, in it and in each kind of work. -/
structure OnlyValueNames (block : Json) : Prop where
  names : OnlyNames valueFieldNames block
  reporting : ∀ items, block = .object items → OnlyNames reportingFieldNames (Json.get items reportingName)
  troubleshooting : ∀ items, block = .object items → OnlyNames troubleshootingFieldNames (Json.get items troubleshootingName)

theorem onlyNames_of_not_object {owned : List Text} {block : Json} (h : ∀ items, block ≠ .object items) : OnlyNames owned block := by
  intro items heq
  exact absurd heq (h items)

theorem reportingFields_ok_iff {refuseUnknown : Bool} {notAfter : Option Date} {block : Json} {inputs : ReportingInputs} :
    (reportingFields refuseUnknown notAfter block).2 = [] ∧ (reportingFields refuseUnknown notAfter block).1 = inputs
      ↔ ReportingDenotes notAfter block inputs ∧ (refuseUnknown = true → OnlyNames reportingFieldNames block) := by
  obtain ⟨tasksPerMonth, baseline, current, basis, asOf⟩ := inputs
  cases block with
  | null =>
      constructor
      · rintro ⟨-, heq⟩
        exact ⟨heq.symm, fun _ => onlyNames_of_not_object nofun⟩
      · rintro ⟨heq, -⟩
        exact ⟨rfl, heq.symm⟩
  | object items =>
      simp only [reportingFields, ReportingDenotes]
      rw [decimal_field_iff (categoryPath reportingName tasksPerMonthName),
        decimal_field_iff (categoryPath reportingName baselineMinutesPerTaskName),
        decimal_field_iff (categoryPath reportingName currentMinutesPerTaskName),
        basis_field_iff (categoryPath reportingName basisName), date_field_iff (categoryPath reportingName asOfName),
        ← @unknownNames_eq_nil_iff _ (categoryPath reportingName [])]
      simp only [List.append_eq_nil_iff, ReportingInputs.mk.injEq]
      constructor
      · rintro ⟨⟨⟨⟨⟨⟨htasks, hbaseline⟩, hcurrent⟩, hbasis⟩, hasOf⟩, hknown⟩, htasks', hbaseline', hcurrent', hbasis', hasOf'⟩
        exact ⟨⟨⟨htasks, htasks'⟩, ⟨hbaseline, hbaseline'⟩, ⟨hcurrent, hcurrent'⟩, ⟨hbasis, hbasis'⟩, hasOf, hasOf'⟩, hknown⟩
      · rintro ⟨⟨⟨htasks, htasks'⟩, ⟨hbaseline, hbaseline'⟩, ⟨hcurrent, hcurrent'⟩, ⟨hbasis, hbasis'⟩, hasOf, hasOf'⟩, hknown⟩
        exact ⟨⟨⟨⟨⟨⟨htasks, hbaseline⟩, hcurrent⟩, hbasis⟩, hasOf⟩, hknown⟩, htasks', hbaseline', hcurrent', hbasis', hasOf'⟩
  | _ => simp [reportingFields, ReportingDenotes]

theorem troubleshootingFields_ok_iff {refuseUnknown : Bool} {notAfter : Option Date} {block : Json}
    {inputs : TroubleshootingInputs} :
    (troubleshootingFields refuseUnknown notAfter block).2 = []
        ∧ (troubleshootingFields refuseUnknown notAfter block).1 = inputs
      ↔ TroubleshootingDenotes notAfter block inputs ∧ (refuseUnknown = true → OnlyNames troubleshootingFieldNames block) := by
  obtain ⟨incidents, staff, baseline, current, basis, asOf⟩ := inputs
  cases block with
  | null =>
      constructor
      · rintro ⟨-, heq⟩
        exact ⟨heq.symm, fun _ => onlyNames_of_not_object nofun⟩
      · rintro ⟨heq, -⟩
        exact ⟨rfl, heq.symm⟩
  | object items =>
      simp only [troubleshootingFields, TroubleshootingDenotes]
      rw [decimal_field_iff (categoryPath troubleshootingName incidentsPerMonthName),
        decimal_field_iff (categoryPath troubleshootingName staffPerIncidentName),
        decimal_field_iff (categoryPath troubleshootingName baselineMinutesName),
        decimal_field_iff (categoryPath troubleshootingName currentMinutesName),
        basis_field_iff (categoryPath troubleshootingName basisName),
        date_field_iff (categoryPath troubleshootingName asOfName),
        ← @unknownNames_eq_nil_iff _ (categoryPath troubleshootingName [])]
      simp only [List.append_eq_nil_iff, TroubleshootingInputs.mk.injEq]
      constructor
      · rintro ⟨⟨⟨⟨⟨⟨⟨hincidents, hstaff⟩, hbaseline⟩, hcurrent⟩, hbasis⟩, hasOf⟩, hknown⟩, hincidents', hstaff', hbaseline',
          hcurrent', hbasis', hasOf'⟩
        exact ⟨⟨⟨hincidents, hincidents'⟩, ⟨hstaff, hstaff'⟩, ⟨hbaseline, hbaseline'⟩, ⟨hcurrent, hcurrent'⟩,
          ⟨hbasis, hbasis'⟩, hasOf, hasOf'⟩, hknown⟩
      · rintro ⟨⟨⟨hincidents, hincidents'⟩, ⟨hstaff, hstaff'⟩, ⟨hbaseline, hbaseline'⟩, ⟨hcurrent, hcurrent'⟩,
          ⟨hbasis, hbasis'⟩, hasOf, hasOf'⟩, hknown⟩
        exact ⟨⟨⟨⟨⟨⟨⟨hincidents, hstaff⟩, hbaseline⟩, hcurrent⟩, hbasis⟩, hasOf⟩, hknown⟩, hincidents', hstaff', hbaseline',
          hcurrent', hbasis', hasOf'⟩
  | _ => simp [troubleshootingFields, TroubleshootingDenotes]

theorem sortviewValueFields_ok_iff {refuseUnknown : Bool} {notAfter : Option Date} {block : Json}
    {settings : SortViewValueSettings} :
    sortviewValueFields refuseUnknown notAfter block = .ok settings
      ↔ ValueDenotes notAfter block settings ∧ (refuseUnknown = true → OnlyValueNames block) := by
  obtain ⟨laborRate, cost, reporting, troubleshooting⟩ := settings
  cases block with
  | null =>
      simp only [sortviewValueFields, ValueDenotes, Except.ok.injEq]
      constructor
      · intro h
        refine ⟨h.symm, fun _ => ⟨onlyNames_of_not_object ?_, ?_, ?_⟩⟩
        · intro items heq
          cases heq
        · intro items heq
          cases heq
        · intro items heq
          cases heq
      · intro h
        exact h.1.symm
  | object items =>
      have honly : OnlyValueNames (.object items) ↔ OnlyNames reportingFieldNames (Json.get items reportingName)
          ∧ OnlyNames troubleshootingFieldNames (Json.get items troubleshootingName) ∧ OnlyNames valueFieldNames (.object items) := by
        constructor
        · intro h
          exact ⟨h.reporting items rfl, h.troubleshooting items rfl, h.names⟩
        · rintro ⟨hreporting, htroubleshooting, hnames⟩
          refine ⟨hnames, ?_, ?_⟩
          · intro other heq
            cases heq
            exact hreporting
          · intro other heq
            cases heq
            exact htroubleshooting
      have hreporting := @reportingFields_ok_iff refuseUnknown notAfter (Json.get items reportingName) reporting
      have htroubleshooting :=
        @troubleshootingFields_ok_iff refuseUnknown notAfter (Json.get items troubleshootingName) troubleshooting
      simp only [sortviewValueFields, ValueDenotes]
      rw [unlessProblems_ok_iff, decimal_field_iff laborRateName, decimal_field_iff subscriptionAnnualCostName, honly]
      simp only [List.append_eq_nil_iff, SortViewValueSettings.mk.injEq, unknownNames_eq_nil_iff]
      constructor
      · rintro ⟨⟨⟨⟨⟨hlabor, hcost⟩, hreportingNil⟩, htroubleshootingNil⟩, hknown⟩, hlabor', hcost', hreporting', htroubleshooting'⟩
        obtain ⟨hdenotes, hnames⟩ := hreporting.1 ⟨hreportingNil, hreporting'⟩
        obtain ⟨hdenotes', hnames'⟩ := htroubleshooting.1 ⟨htroubleshootingNil, htroubleshooting'⟩
        exact ⟨⟨⟨hlabor, hlabor'⟩, ⟨hcost, hcost'⟩, hdenotes, hdenotes'⟩,
          fun hrefuse => ⟨hnames hrefuse, hnames' hrefuse, hknown hrefuse⟩⟩
      · rintro ⟨⟨⟨hlabor, hlabor'⟩, ⟨hcost, hcost'⟩, hdenotes, hdenotes'⟩, hknown⟩
        obtain ⟨hreportingNil, hreporting'⟩ := hreporting.2 ⟨hdenotes, fun hrefuse => (hknown hrefuse).1⟩
        obtain ⟨htroubleshootingNil, htroubleshooting'⟩ := htroubleshooting.2 ⟨hdenotes', fun hrefuse => (hknown hrefuse).2.1⟩
        exact ⟨⟨⟨⟨⟨hlabor, hcost⟩, hreportingNil⟩, htroubleshootingNil⟩, fun hrefuse => (hknown hrefuse).2.2⟩, hlabor', hcost',
          hreporting', htroubleshooting'⟩
  | _ => simp [sortviewValueFields, ValueDenotes]

/-! ### What is written -/

structure ReportingAccepted (notAfter : Option Date) (inputs : ReportingInputs) : Prop where
  tasksPerMonth : Accepted perMonthField.Holds inputs.tasksPerMonth
  baselineMinutesPerTask : Accepted minutesField.Holds inputs.baselineMinutesPerTask
  currentMinutesPerTask : Accepted minutesField.Holds inputs.currentMinutesPerTask
  asOf : Accepted (DateHolds notAfter) inputs.asOf

structure TroubleshootingAccepted (notAfter : Option Date) (inputs : TroubleshootingInputs) : Prop where
  incidentsPerMonth : Accepted perMonthField.Holds inputs.incidentsPerMonth
  staffPerIncident : Accepted staffPerIncidentField.Holds inputs.staffPerIncident
  baselineMinutes : Accepted minutesField.Holds inputs.baselineMinutes
  currentMinutes : Accepted minutesField.Holds inputs.currentMinutes
  asOf : Accepted (DateHolds notAfter) inputs.asOf

structure ValueAccepted (notAfter : Option Date) (settings : SortViewValueSettings) : Prop where
  laborRate : Accepted valueLaborRateField.Holds settings.laborRate
  subscriptionAnnualCost : Accepted subscriptionAnnualCostField.Holds settings.subscriptionAnnualCost
  reporting : ReportingAccepted notAfter settings.reporting
  troubleshooting : TroubleshootingAccepted notAfter settings.troubleshooting

theorem reportingAccepted_empty (notAfter : Option Date) : ReportingAccepted notAfter {} :=
  ⟨accepted_none _, accepted_none _, accepted_none _, accepted_none _⟩

theorem troubleshootingAccepted_empty (notAfter : Option Date) : TroubleshootingAccepted notAfter {} :=
  ⟨accepted_none _, accepted_none _, accepted_none _, accepted_none _, accepted_none _⟩

theorem ReportingDenotes.accepted {notAfter : Option Date} {block : Json} {inputs : ReportingInputs}
    (h : ReportingDenotes notAfter block inputs) : ReportingAccepted notAfter inputs := by
  cases block with
  | null =>
      have hnone : inputs = {} := h
      rw [hnone]
      exact reportingAccepted_empty notAfter
  | object items => exact ⟨h.1.accepted, h.2.1.accepted, h.2.2.1.accepted, h.2.2.2.2.accepted⟩
  | _ => cases h

theorem TroubleshootingDenotes.accepted {notAfter : Option Date} {block : Json} {inputs : TroubleshootingInputs}
    (h : TroubleshootingDenotes notAfter block inputs) : TroubleshootingAccepted notAfter inputs := by
  cases block with
  | null =>
      have hnone : inputs = {} := h
      rw [hnone]
      exact troubleshootingAccepted_empty notAfter
  | object items =>
      exact ⟨h.1.accepted, h.2.1.accepted, h.2.2.1.accepted, h.2.2.2.1.accepted, h.2.2.2.2.2.accepted⟩
  | _ => cases h

theorem ValueDenotes.accepted {notAfter : Option Date} {block : Json} {settings : SortViewValueSettings}
    (h : ValueDenotes notAfter block settings) : ValueAccepted notAfter settings := by
  cases block with
  | null =>
      have hnone : settings = {} := h
      rw [hnone]
      exact ⟨accepted_none _, accepted_none _, reportingAccepted_empty notAfter, troubleshootingAccepted_empty notAfter⟩
  | object items => exact ⟨h.1.accepted, h.2.1.accepted, h.2.2.1.accepted, h.2.2.2.accepted⟩
  | _ => cases h

theorem reporting_written {notAfter : Option Date} {inputs : ReportingInputs} (h : ReportingAccepted notAfter inputs) :
    ReportingDenotes notAfter ((categoryBlock inputs.entries).getD .null) inputs
      ∧ OnlyNames reportingFieldNames ((categoryBlock inputs.entries).getD .null) := by
  obtain ⟨entries, hentries⟩ : ∃ entries, entries = inputs.entries := ⟨_, rfl⟩
  have hnames : entries.map Prod.fst = reportingFieldNames := by
    rw [hentries]
    rfl
  have hkeys : (entries.map Prod.fst).Nodup := by
    rw [hnames]
    decide
  rw [← hentries, categoryBlock]
  split
  · next hnil =>
    refine ⟨?_, onlyNames_of_not_object nofun⟩
    obtain ⟨tasksPerMonth, baseline, current, basis, asOf⟩ := inputs
    have hnone : ∀ entry ∈ entries, entry.2 = none := fun entry => eq_none_of_written_nil hnil
    simp only [hentries, ReportingInputs.entries, List.mem_cons, List.not_mem_nil, or_false, forall_eq_or_imp, forall_eq,
      Option.map_eq_none_iff] at hnone
    obtain ⟨rfl, rfl, rfl, rfl, rfl⟩ := hnone
    rfl
  · refine ⟨⟨fieldHolds_decimal hkeys ?_ h.tasksPerMonth, fieldHolds_decimal hkeys ?_ h.baselineMinutesPerTask,
      fieldHolds_decimal hkeys ?_ h.currentMinutesPerTask, fieldHolds_basis hkeys ?_, fieldHolds_date hkeys ?_ h.asOf⟩, ?_⟩
    · simp [hentries, ReportingInputs.entries]
    · simp [hentries, ReportingInputs.entries]
    · simp [hentries, ReportingInputs.entries]
    · simp [hentries, ReportingInputs.entries]
    · simp [hentries, ReportingInputs.entries]
    · intro items heq name hname
      cases heq
      exact hnames ▸ mem_keys_written hname

theorem troubleshooting_written {notAfter : Option Date} {inputs : TroubleshootingInputs}
    (h : TroubleshootingAccepted notAfter inputs) :
    TroubleshootingDenotes notAfter ((categoryBlock inputs.entries).getD .null) inputs
      ∧ OnlyNames troubleshootingFieldNames ((categoryBlock inputs.entries).getD .null) := by
  obtain ⟨entries, hentries⟩ : ∃ entries, entries = inputs.entries := ⟨_, rfl⟩
  have hnames : entries.map Prod.fst = troubleshootingFieldNames := by
    rw [hentries]
    rfl
  have hkeys : (entries.map Prod.fst).Nodup := by
    rw [hnames]
    decide
  rw [← hentries, categoryBlock]
  split
  · next hnil =>
    refine ⟨?_, onlyNames_of_not_object nofun⟩
    obtain ⟨incidents, staff, baseline, current, basis, asOf⟩ := inputs
    have hnone : ∀ entry ∈ entries, entry.2 = none := fun entry => eq_none_of_written_nil hnil
    simp only [hentries, TroubleshootingInputs.entries, List.mem_cons, List.not_mem_nil, or_false, forall_eq_or_imp, forall_eq,
      Option.map_eq_none_iff] at hnone
    obtain ⟨rfl, rfl, rfl, rfl, rfl, rfl⟩ := hnone
    rfl
  · refine ⟨⟨fieldHolds_decimal hkeys ?_ h.incidentsPerMonth, fieldHolds_decimal hkeys ?_ h.staffPerIncident,
      fieldHolds_decimal hkeys ?_ h.baselineMinutes, fieldHolds_decimal hkeys ?_ h.currentMinutes, fieldHolds_basis hkeys ?_,
      fieldHolds_date hkeys ?_ h.asOf⟩, ?_⟩
    · simp [hentries, TroubleshootingInputs.entries]
    · simp [hentries, TroubleshootingInputs.entries]
    · simp [hentries, TroubleshootingInputs.entries]
    · simp [hentries, TroubleshootingInputs.entries]
    · simp [hentries, TroubleshootingInputs.entries]
    · simp [hentries, TroubleshootingInputs.entries]
    · intro items heq name hname
      cases heq
      exact hnames ▸ mem_keys_written hname

theorem value_written {notAfter : Option Date} {settings : SortViewValueSettings} (h : ValueAccepted notAfter settings) :
    ValueDenotes notAfter (serializeSortviewValueSettings settings) settings
      ∧ OnlyValueNames (serializeSortviewValueSettings settings) := by
  obtain ⟨entries, hentries⟩ : ∃ entries,
      entries = [(laborRateName, settings.laborRate.map (decimalText valueLaborRateField)),
        (subscriptionAnnualCostName, settings.subscriptionAnnualCost.map (decimalText subscriptionAnnualCostField)),
        (reportingName, categoryBlock settings.reporting.entries),
        (troubleshootingName, categoryBlock settings.troubleshooting.entries)] := ⟨_, rfl⟩
  have hnames : entries.map Prod.fst = valueFieldNames := by
    rw [hentries]
    rfl
  have hkeys : (entries.map Prod.fst).Nodup := by
    rw [hnames]
    decide
  have hreporting : Json.get (written entries) reportingName = (categoryBlock settings.reporting.entries).getD .null :=
    get_written hkeys (by simp [hentries])
  have htroubleshooting : Json.get (written entries) troubleshootingName
      = (categoryBlock settings.troubleshooting.entries).getD .null :=
    get_written hkeys (by simp [hentries])
  have hwritten := reporting_written h.reporting
  have hwritten' := troubleshooting_written h.troubleshooting
  rw [← hreporting] at hwritten
  rw [← htroubleshooting] at hwritten'
  rw [serializeSortviewValueSettings, ← hentries]
  refine ⟨⟨fieldHolds_decimal hkeys ?_ h.laborRate, fieldHolds_decimal hkeys ?_ h.subscriptionAnnualCost, hwritten.1, hwritten'.1⟩,
    ?_, ?_, ?_⟩
  · simp [hentries]
  · simp [hentries]
  · intro items heq name hname
    cases heq
    exact hnames ▸ mem_keys_written hname
  · intro items heq
    cases heq
    exact hwritten.2
  · intro items heq
    cases heq
    exact hwritten'.2

/-! ### Stored documents -/

theorem ReportingDenotes.anyLimit {notAfter : Option Date} {block : Json} {inputs : ReportingInputs}
    (h : ReportingDenotes notAfter block inputs) : ReportingDenotes none block inputs := by
  cases block with
  | null => exact h
  | object items => exact ⟨h.1, h.2.1, h.2.2.1, h.2.2.2.1, h.2.2.2.2.anyLimit⟩
  | _ => cases h

theorem TroubleshootingDenotes.anyLimit {notAfter : Option Date} {block : Json} {inputs : TroubleshootingInputs}
    (h : TroubleshootingDenotes notAfter block inputs) : TroubleshootingDenotes none block inputs := by
  cases block with
  | null => exact h
  | object items => exact ⟨h.1, h.2.1, h.2.2.1, h.2.2.2.1, h.2.2.2.2.1, h.2.2.2.2.2.anyLimit⟩
  | _ => cases h

theorem ValueDenotes.anyLimit {notAfter : Option Date} {block : Json} {settings : SortViewValueSettings}
    (h : ValueDenotes notAfter block settings) : ValueDenotes none block settings := by
  cases block with
  | null => exact h
  | object items => exact ⟨h.1, h.2.1, h.2.2.1.anyLimit, h.2.2.2.anyLimit⟩
  | _ => cases h

/-! ### Equal values -/

theorem reporting_eq_of_same {notAfter notAfter' : Option Date} {left right : ReportingInputs}
    (hleft : ReportingAccepted notAfter left) (hright : ReportingAccepted notAfter' right) (h : SameReporting left right) :
    left = right := by
  obtain ⟨tasksPerMonth, baseline, current, basis, asOf⟩ := left
  obtain ⟨tasksPerMonth', baseline', current', basis', asOf'⟩ := right
  rw [ReportingInputs.mk.injEq]
  exact ⟨eq_of_sameNumber hleft.tasksPerMonth hright.tasksPerMonth h.tasksPerMonth,
    eq_of_sameNumber hleft.baselineMinutesPerTask hright.baselineMinutesPerTask h.baselineMinutesPerTask,
    eq_of_sameNumber hleft.currentMinutesPerTask hright.currentMinutesPerTask h.currentMinutesPerTask, h.basis, h.asOf⟩

theorem troubleshooting_eq_of_same {notAfter notAfter' : Option Date} {left right : TroubleshootingInputs}
    (hleft : TroubleshootingAccepted notAfter left) (hright : TroubleshootingAccepted notAfter' right)
    (h : SameTroubleshooting left right) : left = right := by
  obtain ⟨incidents, staff, baseline, current, basis, asOf⟩ := left
  obtain ⟨incidents', staff', baseline', current', basis', asOf'⟩ := right
  rw [TroubleshootingInputs.mk.injEq]
  exact ⟨eq_of_sameNumber hleft.incidentsPerMonth hright.incidentsPerMonth h.incidentsPerMonth,
    eq_of_sameNumber hleft.staffPerIncident hright.staffPerIncident h.staffPerIncident,
    eq_of_sameNumber hleft.baselineMinutes hright.baselineMinutes h.baselineMinutes,
    eq_of_sameNumber hleft.currentMinutes hright.currentMinutes h.currentMinutes, h.basis, h.asOf⟩

theorem sameReporting_refl (inputs : ReportingInputs) : SameReporting inputs inputs := ⟨rfl, rfl, rfl, rfl, rfl⟩

theorem sameTroubleshooting_refl (inputs : TroubleshootingInputs) : SameTroubleshooting inputs inputs :=
  ⟨rfl, rfl, rfl, rfl, rfl, rfl⟩

theorem sameValueSettings_iff {notAfter notAfter' : Option Date} {left right : SortViewValueSettings}
    (hleft : ValueAccepted notAfter left) (hright : ValueAccepted notAfter' right) :
    SameValueSettings left right ↔ left = right := by
  constructor
  · intro h
    obtain ⟨laborRate, cost, reporting, troubleshooting⟩ := left
    obtain ⟨laborRate', cost', reporting', troubleshooting'⟩ := right
    rw [SortViewValueSettings.mk.injEq]
    exact ⟨eq_of_sameNumber hleft.laborRate hright.laborRate h.laborRate,
      eq_of_sameNumber hleft.subscriptionAnnualCost hright.subscriptionAnnualCost h.subscriptionAnnualCost,
      reporting_eq_of_same hleft.reporting hright.reporting h.reporting,
      troubleshooting_eq_of_same hleft.troubleshooting hright.troubleshooting h.troubleshooting⟩
  · rintro rfl
    exact ⟨rfl, rfl, sameReporting_refl _, sameTroubleshooting_refl _⟩

/-! ### The fields that are named -/

theorem mem_reportingProblems_iff {notAfter : Option Date} {block : Json} {field : Text} :
    field ∈ (reportingFields true notAfter block).2.map EfficiencySettingProblem.field ↔ ReportingFaulty notAfter block field := by
  cases block with
  | null => exact List.mem_nil_iff field
  | object items =>
      simp only [reportingFields, List.map_append, List.mem_append, mem_problemOf_iff fun _ _ => parseDecimalText_ok_iff,
        mem_problemOf_iff fun _ _ => parseDateText_ok_iff, mem_problemOf_iff fun _ _ => parseBasis_ok_iff, mem_unknownNames_iff,
        ReportingFaulty, or_assoc]
  | _ => exact List.mem_singleton

theorem mem_troubleshootingProblems_iff {notAfter : Option Date} {block : Json} {field : Text} :
    field ∈ (troubleshootingFields true notAfter block).2.map EfficiencySettingProblem.field
      ↔ TroubleshootingFaulty notAfter block field := by
  cases block with
  | null => exact List.mem_nil_iff field
  | object items =>
      simp only [troubleshootingFields, List.map_append, List.mem_append, mem_problemOf_iff fun _ _ => parseDecimalText_ok_iff,
        mem_problemOf_iff fun _ _ => parseDateText_ok_iff, mem_problemOf_iff fun _ _ => parseBasis_ok_iff, mem_unknownNames_iff,
        TroubleshootingFaulty, or_assoc]
  | _ => exact List.mem_singleton

theorem value_namesFaults (today : Date) (block : Json) :
    NamesFaults (validateSortviewValueSettings today block) (ValueFaulty (some today) block) := by
  cases block with
  | null => exact fun field h => h
  | object items =>
      apply namesFaults_unlessProblems
      intro field
      simp only [List.map_append, List.mem_append, mem_problemOf_iff fun _ _ => parseDecimalText_ok_iff, mem_reportingProblems_iff,
        mem_troubleshootingProblems_iff, mem_unknownNames_iff, ValueFaulty, List.nil_append, exists_unknown_iff, or_assoc]
  | _ => exact ⟨nofun, fun field => List.mem_singleton⟩

theorem value_settings_stored_exactly (today : Date) :
    StoresExactly (validateSortviewValueSettings today) parseSortviewValueSettings serializeSortviewValueSettings
      sortviewValueSettingsKey (ValueDenotes (some today)) SameValueSettings (ValueFaulty (some today)) := by
  apply @StoresExactly.of _ _ _ _ _ _ _ _ OnlyValueNames
  · intro block settings
    rw [validateSortviewValueSettings, sortviewValueFields_ok_iff]
    simp
  · intro block settings h
    exact value_written h.accepted
  · intro block settings items h hget
    rw [parseSortviewValueSettings, storedBlock, hget, sortviewValueFields_ok_iff]
    exact ⟨h.anyLimit, fun hrefuse => absurd hrefuse Bool.false_ne_true⟩
  · intro block other first second hfirst hsecond
    exact sameValueSettings_iff hfirst.accepted hsecond.accepted
  · exact value_namesFaults today

/-- What an administrator types is stored exactly: every accepted text denotes the value that is held, what is written is
accepted again and read from a stored document as the same settings, equal blocks are equal values, and a block is
refused for exactly the fields that are named. -/
theorem settings_are_stored_exactly (today : Date) :
    StoresExactly validateOrganizationEfficiencySettings parseOrganizationEfficiencySettings
        serializeOrganizationEfficiencySettings efficiencySettingsKey OrganizationDenotes SameOrganizationSettings
        OrganizationFaulty
      ∧ StoresExactly (validateSorterEfficiencySettings today) parseSorterEfficiencySettings
        serializeSorterEfficiencySettings efficiencySettingsKey (SorterDenotes (some today)) SameSorterSettings
        (SorterFaulty (some today))
      ∧ StoresExactly (validateSortviewValueSettings today) parseSortviewValueSettings serializeSortviewValueSettings
        sortviewValueSettingsKey (ValueDenotes (some today)) SameValueSettings (ValueFaulty (some today)) :=
  ⟨organization_settings_stored_exactly, sorter_settings_stored_exactly today, value_settings_stored_exactly today⟩

end SortView
