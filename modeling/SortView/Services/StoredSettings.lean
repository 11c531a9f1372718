import SortView.Services.SortViewValue

/-!
# Settings are stored exactly

What a block denotes field by field, and that the three validators accept a block exactly when every field of it denotes
a value, hold that value, write it as a text that is read back, and name exactly the fields they refuse.
-/

namespace SortView

open PyText Calendar

/-! ### Fields -/

section Fields

variable {α : Type} {holds : Json → α → Prop} {parse : Json → Except EfficiencyCode α}

/-- What a block has at a name is this value, or nothing. -/
def FieldHolds (holds : Json → α → Prop) (items : List (Text × Json)) (name : Text) : Option α → Prop
  | none => Json.get items name = .null
  | some value => Json.get items name ≠ .null ∧ holds (Json.get items name) value

/-- What a block has at a name denotes no value. -/
def FieldFaulty (holds : Json → α → Prop) (items : List (Text × Json)) (name : Text) : Prop :=
  Json.get items name ≠ .null ∧ ∀ value, ¬ holds (Json.get items name) value

theorem readField_of_ne_null {items : List (Text × Json)} {name : Text} (h : Json.get items name ≠ .null) :
    readField items name parse = (parse (Json.get items name)).map some := by
  rw [readField]
  split
  · next hnull => exact absurd hnull h
  · rfl

theorem readField_ok_iff (hparse : ∀ stored value, parse stored = .ok value ↔ holds stored value) {items : List (Text × Json)}
    {name : Text} {value : Option α} : readField items name parse = .ok value ↔ FieldHolds holds items name value := by
  by_cases hnull : Json.get items name = .null
  · rw [readField, hnull]
    cases value with
    | none => exact ⟨fun _ => hnull, fun _ => rfl⟩
    | some value =>
        constructor
        · intro h
          cases h
        · intro h
          exact absurd hnull h.1
  · rw [readField_of_ne_null hnull]
    cases value with
    | none =>
        constructor
        · intro h
          cases hresult : parse (Json.get items name) <;> rw [hresult] at h <;> cases h
        · intro h
          exact absurd h hnull
    | some value =>
        rw [FieldHolds, ← hparse]
        cases hresult : parse (Json.get items name) with
        | error code =>
            constructor
            · intro h
              cases h
            · intro h
              cases h.2
        | ok found =>
            constructor
            · intro h
              cases h
              exact ⟨hnull, rfl⟩
            · intro h
              cases h.2
              rfl

/-- The fields named by the problem of one field. -/
theorem mem_problemOf_iff (hparse : ∀ stored value, parse stored = .ok value ↔ holds stored value)
    {items : List (Text × Json)} {name path field : Text} :
    field ∈ (problemOf path (readField items name parse)).map EfficiencySettingProblem.field
      ↔ field = path ∧ FieldFaulty holds items name := by
  cases hresult : readField items name parse with
  | ok value =>
      have hholds := (readField_ok_iff hparse).1 hresult
      constructor
      · intro h
        cases h
      · rintro ⟨-, hne, hnone⟩
        cases value with
        | none => exact absurd hholds hne
        | some value => exact absurd hholds.2 (hnone value)
  | error code =>
      have hne : Json.get items name ≠ .null := by
        intro hnull
        rw [readField, hnull] at hresult
        cases hresult
      have hfaulty : FieldFaulty holds items name := by
        refine ⟨hne, ?_⟩
        intro value hvalue
        have hok : readField items name parse = .ok (some value) := (readField_ok_iff hparse).2 ⟨hne, hvalue⟩
        rw [hok] at hresult
        cases hresult
      simp [problemOf, hfaulty]

theorem field_ok_iff {path : Text} {result : Except EfficiencyCode (Option α)} {value : Option α} :
    problemOf path result = [] ∧ valueOf result = value ↔ result = .ok value := by
  cases result with
  | ok found => simp [problemOf, valueOf]
  | error code => simp [problemOf]

end Fields

theorem exists_unknown_iff {owned : List Text} {items : List (Text × Json)} {field : Text} :
    (∃ name ∈ items.map Prod.fst, name ∉ owned ∧ field = name) ↔ field ∈ items.map Prod.fst ∧ field ∉ owned := by
  constructor
  · rintro ⟨name, hmem, hnot, rfl⟩
    exact ⟨hmem, hnot⟩
  · rintro ⟨hmem, hnot⟩
    exact ⟨field, hmem, hnot, rfl⟩

/-- A block with no name but these. -/
def OnlyNames (owned : List Text) (block : Json) : Prop :=
  ∀ items, block = .object items → ∀ name ∈ items.map Prod.fst, name ∈ owned

theorem unknownNames_eq_nil_iff {refuseUnknown : Bool} {path : Text} {owned : List Text} {items : List (Text × Json)} :
    unknownNames refuseUnknown path owned items = [] ↔ (refuseUnknown = true → OnlyNames owned (.object items)) := by
  cases refuseUnknown with
  | false => simp [unknownNames]
  | true =>
      simp only [unknownNames, if_true, List.map_eq_nil_iff, List.filter_eq_nil_iff, decide_eq_true_eq, not_not, true_implies]
      constructor
      · intro h other heq
        cases heq
        exact h
      · intro h
        exact h items rfl

theorem mem_unknownNames_iff {path : Text} {owned : List Text} {items : List (Text × Json)} {field : Text} :
    field ∈ (unknownNames true path owned items).map EfficiencySettingProblem.field
      ↔ ∃ name ∈ items.map Prod.fst, name ∉ owned ∧ field = path ++ name := by
  simp only [unknownNames, if_true, List.mem_map, List.mem_filter, decide_eq_true_eq]
  constructor
  · rintro ⟨problem, ⟨name, ⟨hmem, hnot⟩, rfl⟩, rfl⟩
    exact ⟨name, hmem, hnot, rfl⟩
  · rintro ⟨name, hmem, hnot, rfl⟩
    exact ⟨_, ⟨name, ⟨hmem, hnot⟩, rfl⟩, rfl⟩

theorem unlessProblems_ok_iff {σ : Type} {problems : List EfficiencySettingProblem} {settings found : σ} :
    unlessProblems problems settings = .ok found ↔ problems = [] ∧ settings = found := by
  rw [unlessProblems]
  split <;> simp_all

/-! ### Blocks that are written -/

theorem mem_keys_written {entries : List (Text × Option Json)} {name : Text} (h : name ∈ (written entries).map Prod.fst) :
    name ∈ entries.map Prod.fst := by
  obtain ⟨item, hitem, rfl⟩ := List.mem_map.1 h
  obtain ⟨entry, hentry, hsome⟩ := List.mem_filterMap.1 hitem
  obtain ⟨value, -, rfl⟩ := Option.map_eq_some_iff.1 hsome
  exact List.mem_map.2 ⟨entry, hentry, rfl⟩

theorem get_written {entries : List (Text × Option Json)} (hnodup : (entries.map Prod.fst).Nodup) {name : Text}
    {value : Option Json} (hmem : (name, value) ∈ entries) : Json.get (written entries) name = value.getD .null := by
  induction entries with
  | nil => cases hmem
  | cons entry entries ih =>
      rw [List.map_cons, List.nodup_cons] at hnodup
      obtain ⟨key, stored⟩ := entry
      rcases List.mem_cons.1 hmem with heq | hmem
      · cases heq
        cases value with
        | some value => simp [written, Json.get, Json.getD]
        | none =>
            have hnone : (written entries).lookup name = none := by
              rw [List.lookup_eq_none_iff]
              intro item hitem
              have hkey := mem_keys_written (List.mem_map.2 ⟨item, hitem, rfl⟩)
              rw [bne_iff_ne]
              rintro rfl
              exact hnodup.1 hkey
            have hskip : written ((name, none) :: entries) = written entries := rfl
            rw [hskip, Json.get, Json.getD, hnone]
      · have hne : name ≠ key := by
          intro heq
          apply hnodup.1
          rw [← heq]
          exact List.mem_map.2 ⟨_, hmem, rfl⟩
        have hrest := ih hnodup.2 hmem
        cases stored with
        | none => exact hrest
        | some stored =>
            have hcons : written ((key, some stored) :: entries) = (key, stored) :: written entries := rfl
            have hbeq : (name == key) = false := beq_eq_false_iff_ne.2 hne
            rw [hcons, Json.get, Json.getD, List.lookup_cons, hbeq]
            exact hrest

theorem eq_none_of_written_nil {entries : List (Text × Option Json)} (h : written entries = []) {entry : Text × Option Json}
    (hentry : entry ∈ entries) : entry.2 = none := by
  rw [written, List.filterMap_eq_nil_iff] at h
  exact Option.map_eq_none_iff.1 (h entry hentry)

theorem fieldHolds_written {α : Type} {holds : Json → α → Prop} {write : α → Json} {entries : List (Text × Option Json)}
    (hnodup : (entries.map Prod.fst).Nodup) {name : Text} {value : Option α} (hmem : (name, value.map write) ∈ entries)
    (hwrite : ∀ x ∈ value, write x ≠ .null ∧ holds (write x) x) : FieldHolds holds (written entries) name value := by
  have hget := get_written hnodup hmem
  cases value with
  | none => exact hget
  | some x =>
      rw [FieldHolds, hget]
      exact hwrite x rfl

/-! ### Values that are written -/

/-- Of a value that a field accepts, the text that is written holds the same value. -/
theorem DecimalField.holds_decimalText {field : DecimalField} {stored : Json} {x : Decimal} (h : field.Holds stored x) :
    field.Holds (decimalText field x) x := by
  obtain ⟨-, -, q, -, -, -, -, hadmits, hat, hvalue⟩ := h
  obtain ⟨whole, fraction, hgroups, hlength, hdecimal⟩ := hat.groups field.somePlaces
  have hdenotes := denotesDecimal_of_groups hgroups
  rw [hdecimal, hlength, hvalue] at hdenotes
  refine ⟨_, _, q, rfl, ?_, hdenotes, Nat.le_refl _, hadmits, hat, hvalue⟩
  have hle : x.coefficient / 10 ^ field.places ≤ field.maximum := by
    have hmax := hadmits.2
    rw [← hvalue, hat.value_eq, div_le_iff₀ (by positivity)] at hmax
    have hnat : x.coefficient ≤ field.maximum * 10 ^ field.places := by exact_mod_cast hmax
    exact Nat.div_le_of_le_mul (by rwa [Nat.mul_comm])
  have hwhole : (decimal (x.coefficient / 10 ^ field.places)).length ≤ 20 :=
    length_decimal_le (by decide) (Nat.lt_of_le_of_lt hle field.fits.1)
  have hpadded := length_padded field.somePlaces (Nat.mod_lt x.coefficient (by positivity : 0 < 10 ^ field.places))
  have hplaces := field.fits.2
  rw [hat.fixedText_eq, List.length_append, List.length_cons, hpadded, maxSettingLength]
  omega

theorem DateHolds.dateText {notAfter : Option Date} {stored : Json} {date : Date} (h : DateHolds notAfter stored date) :
    DateHolds notAfter (dateText date) date :=
  ⟨rfl, h.2⟩

theorem DateHolds.anyLimit {notAfter : Option Date} {stored : Json} {date : Date} (h : DateHolds notAfter stored date) :
    DateHolds none stored date :=
  ⟨h.1, h.2.1, nofun⟩

/-- A stored value is the text of a basis. -/
def BasisHolds (stored : Json) (basis : Basis) : Prop := stored = basisText basis

theorem parseBasis_ok_iff {stored : Json} {basis : Basis} : parseBasis stored = .ok basis ↔ BasisHolds stored basis := by
  have hdistinct : Basis.measured.text ≠ Basis.estimate.text := by decide
  constructor
  · intro h
    cases stored with
    | text value =>
        rw [parseBasis] at h
        split at h
        · next heq =>
          cases h
          rw [heq, BasisHolds, basisText]
        · split at h
          · next heq =>
            cases h
            rw [heq, BasisHolds, basisText]
          · cases h
    | _ => cases h
  · intro h
    rw [h, basisText, parseBasis]
    cases basis with
    | estimate => exact if_pos rfl
    | measured => rw [if_neg hdistinct, if_pos rfl]

/-! ### The value of a field that was accepted -/

/-- The same number, or none in both. -/
def SameNumber (left right : Option Decimal) : Prop := left.map Decimal.value = right.map Decimal.value

/-- A value that some text of the field holds, or none. -/
def Accepted {α : Type} (holds : Json → α → Prop) (value : Option α) : Prop := ∀ x ∈ value, ∃ stored, holds stored x

theorem FieldHolds.accepted {α : Type} {holds : Json → α → Prop} {items : List (Text × Json)} {name : Text} {value : Option α}
    (h : FieldHolds holds items name value) : Accepted holds value := by
  intro x hx
  cases hx
  exact ⟨_, h.2⟩

theorem accepted_none {α : Type} (holds : Json → α → Prop) : Accepted holds none := nofun

theorem eq_of_sameNumber {field : DecimalField} {left right : Option Decimal} (hleft : Accepted field.Holds left)
    (hright : Accepted field.Holds right) (h : SameNumber left right) : left = right := by
  cases left with
  | none =>
      cases right with
      | none => rfl
      | some y => cases h
  | some x =>
      cases right with
      | none => cases h
      | some y =>
          obtain ⟨_, _, _, _, _, _, _, _, _, hx, _⟩ := hleft x rfl
          obtain ⟨_, _, _, _, _, _, _, _, _, hy, _⟩ := hright y rfl
          rw [hx.eq_of_value hy (Option.some.inj h)]

theorem fieldHolds_decimal {field : DecimalField} {entries : List (Text × Option Json)} (hnodup : (entries.map Prod.fst).Nodup)
    {name : Text} {value : Option Decimal} (hmem : (name, value.map (decimalText field)) ∈ entries)
    (haccepted : Accepted field.Holds value) : FieldHolds field.Holds (written entries) name value := by
  apply fieldHolds_written hnodup hmem
  intro x hx
  obtain ⟨stored, hstored⟩ := haccepted x hx
  exact ⟨nofun, DecimalField.holds_decimalText hstored⟩

theorem fieldHolds_date {notAfter : Option Date} {entries : List (Text × Option Json)} (hnodup : (entries.map Prod.fst).Nodup)
    {name : Text} {value : Option Date} (hmem : (name, value.map dateText) ∈ entries)
    (haccepted : Accepted (DateHolds notAfter) value) : FieldHolds (DateHolds notAfter) (written entries) name value := by
  apply fieldHolds_written hnodup hmem
  intro x hx
  obtain ⟨stored, hstored⟩ := haccepted x hx
  exact ⟨nofun, hstored.dateText⟩

theorem fieldHolds_basis {entries : List (Text × Option Json)} (hnodup : (entries.map Prod.fst).Nodup)
    {name : Text} {value : Option Basis} (hmem : (name, value.map basisText) ∈ entries) :
    FieldHolds BasisHolds (written entries) name value :=
  fieldHolds_written hnodup hmem fun _ _ => ⟨nofun, rfl⟩

theorem decimal_field_iff (path : Text) {field : DecimalField} {items : List (Text × Json)} {name : Text} {value : Option Decimal} :
    FieldHolds field.Holds items name value ↔ problemOf path (readField items name (parseDecimalText field)) = []
      ∧ valueOf (readField items name (parseDecimalText field)) = value := by
  rw [field_ok_iff, readField_ok_iff fun _ _ => parseDecimalText_ok_iff]

theorem date_field_iff (path : Text) {notAfter : Option Date} {items : List (Text × Json)} {name : Text} {value : Option Date} :
    FieldHolds (DateHolds notAfter) items name value ↔ problemOf path (readField items name (parseDateText notAfter)) = []
      ∧ valueOf (readField items name (parseDateText notAfter)) = value := by
  rw [field_ok_iff, readField_ok_iff fun _ _ => parseDateText_ok_iff]

theorem basis_field_iff (path : Text) {items : List (Text × Json)} {name : Text} {value : Option Basis} :
    FieldHolds BasisHolds items name value ↔ problemOf path (readField items name parseBasis) = []
      ∧ valueOf (readField items name parseBasis) = value := by
  rw [field_ok_iff, readField_ok_iff fun _ _ => parseBasis_ok_iff]

theorem FieldHolds.anyLimit {notAfter : Option Date} {items : List (Text × Json)} {name : Text} {value : Option Date}
    (h : FieldHolds (DateHolds notAfter) items name value) : FieldHolds (DateHolds none) items name value := by
  cases value with
  | none => exact h
  | some date => exact ⟨h.1, h.2.anyLimit⟩

/-! ### What it is to store settings exactly -/

/-- A validator, the reader of stored documents, and the block that is stored. -/
structure StoresExactly {σ : Type} (validate parse : Json → Except (List EfficiencySettingProblem) σ) (serialize : σ → Json)
    (key : Text) (denotes : Json → σ → Prop) (same : σ → σ → Prop) (faulty : Json → Text → Prop) : Prop where
  exact : ∀ block settings, validate block = .ok settings → denotes block settings
  accepted : ∀ block settings, validate block = .ok settings → validate (serialize settings) = .ok settings
  stored : ∀ block settings items, validate block = .ok settings → Json.get items key = serialize settings →
    parse (.object items) = .ok settings
  distinct : ∀ block other first second, validate block = .ok first → validate other = .ok second →
    (serialize first = serialize second ↔ same first second)
  refused : ∀ block, (∃ problems, validate block = .error problems) ↔ ∃ field, faulty block field
  named : ∀ block problems, validate block = .error problems →
    ∀ field, field ∈ problems.map EfficiencySettingProblem.field ↔ faulty block field

/-- The fields that a validator names are the faulty ones, and it accepts a block that has none. -/
def NamesFaults {σ : Type} (result : Except (List EfficiencySettingProblem) σ) (faulty : Text → Prop) : Prop :=
  match result with
  | .ok _ => ∀ field, ¬ faulty field
  | .error problems => problems ≠ [] ∧ ∀ field, field ∈ problems.map EfficiencySettingProblem.field ↔ faulty field

theorem namesFaults_unlessProblems {σ : Type} {problems : List EfficiencySettingProblem} {settings : σ} {faulty : Text → Prop}
    (h : ∀ field, field ∈ problems.map EfficiencySettingProblem.field ↔ faulty field) :
    NamesFaults (unlessProblems problems settings) faulty := by
  rw [unlessProblems]
  split
  · next hnil =>
    intro field hfaulty
    have hmem := (h field).2 hfaulty
    rw [hnil] at hmem
    cases hmem
  · next hne => exact ⟨hne, h⟩

theorem StoresExactly.of {σ : Type} {validate parse : Json → Except (List EfficiencySettingProblem) σ} {serialize : σ → Json}
    {key : Text} {denotes : Json → σ → Prop} {same : σ → σ → Prop} {faulty : Json → Text → Prop} {only : Json → Prop}
    (hvalidate : ∀ block settings, validate block = .ok settings ↔ denotes block settings ∧ only block)
    (hwritten : ∀ block settings, denotes block settings → denotes (serialize settings) settings ∧ only (serialize settings))
    (hparse : ∀ block settings items, denotes block settings → Json.get items key = block → parse (.object items) = .ok settings)
    (hsame : ∀ block other first second, denotes block first → denotes other second → (same first second ↔ first = second))
    (hfaulty : ∀ block, NamesFaults (validate block) (faulty block)) :
    StoresExactly validate parse serialize key denotes same faulty where
  exact block settings h := ((hvalidate block settings).1 h).1
  accepted block settings h := (hvalidate _ _).2 (hwritten block settings ((hvalidate block settings).1 h).1)
  stored block settings items h hget :=
    hparse _ settings items (hwritten block settings ((hvalidate block settings).1 h).1).1 hget
  distinct block other first second hfirst hsecond := by
    have hdenotes := ((hvalidate _ _).1 hfirst).1
    have hdenotes' := ((hvalidate _ _).1 hsecond).1
    rw [hsame block other first second hdenotes hdenotes']
    constructor
    · intro heq
      have hback := (hvalidate _ _).2 (hwritten block first hdenotes)
      have hback' := (hvalidate _ _).2 (hwritten other second hdenotes')
      rw [heq, hback'] at hback
      exact (Except.ok.inj hback).symm
    · intro heq
      rw [heq]
  refused block := by
    have hnames := hfaulty block
    cases hresult : validate block with
    | ok settings =>
        rw [hresult] at hnames
        constructor
        · rintro ⟨problems, h⟩
          cases h
        · rintro ⟨field, hfield⟩
          exact absurd hfield (hnames field)
    | error problems =>
        rw [hresult] at hnames
        constructor
        · intro _
          obtain ⟨problem, hproblem⟩ := List.exists_mem_of_ne_nil problems hnames.1
          exact ⟨problem.field, (hnames.2 _).1 (List.mem_map.2 ⟨problem, hproblem, rfl⟩)⟩
        · intro _
          exact ⟨problems, rfl⟩
  named block problems h := by
    have hnames := hfaulty block
    rw [h] at hnames
    exact hnames.2

/-! ### The settings of an organization -/

/-- What a block says of an organization. -/
def OrganizationDenotes (block : Json) (settings : OrganizationEfficiencySettings) : Prop :=
  match block with
  | .null => settings = {}
  | .object items => FieldHolds laborRateField.Holds items laborRateName settings.laborRate
      ∧ FieldHolds manualItemsPerHourField.Holds items manualItemsPerHourName settings.manualItemsPerHour
  | _ => False

/-- A field of the block is malformed, out of range or unknown, or the block itself is no object. -/
def OrganizationFaulty (block : Json) (field : Text) : Prop :=
  match block with
  | .null => False
  | .object items => (field = laborRateName ∧ FieldFaulty laborRateField.Holds items laborRateName)
      ∨ (field = manualItemsPerHourName ∧ FieldFaulty manualItemsPerHourField.Holds items manualItemsPerHourName)
      ∨ (field ∈ items.map Prod.fst ∧ field ∉ organizationFieldNames)
  | _ => field = efficiencySettingsKey

def SameOrganizationSettings (left right : OrganizationEfficiencySettings) : Prop :=
  SameNumber left.laborRate right.laborRate ∧ SameNumber left.manualItemsPerHour right.manualItemsPerHour

theorem organizationFields_ok_iff {refuseUnknown : Bool} {block : Json} {settings : OrganizationEfficiencySettings} :
    organizationFields refuseUnknown block = .ok settings
      ↔ OrganizationDenotes block settings ∧ (refuseUnknown = true → OnlyNames organizationFieldNames block) := by
  obtain ⟨laborRate, manualItemsPerHour⟩ := settings
  cases block with
  | null =>
      simp only [organizationFields, OrganizationDenotes, OnlyNames, Except.ok.injEq]
      constructor
      · intro h
        exact ⟨h.symm, fun _ items heq => by cases heq⟩
      · intro h
        exact h.1.symm
  | object items =>
      simp only [organizationFields, OrganizationDenotes]
      rw [unlessProblems_ok_iff, decimal_field_iff laborRateName, decimal_field_iff manualItemsPerHourName,
        ← @unknownNames_eq_nil_iff _ []]
      simp only [List.append_eq_nil_iff, OrganizationEfficiencySettings.mk.injEq]
      constructor
      · rintro ⟨⟨⟨hlabor, hmanual⟩, hknown⟩, hlabor', hmanual'⟩
        exact ⟨⟨⟨hlabor, hlabor'⟩, hmanual, hmanual'⟩, hknown⟩
      · rintro ⟨⟨⟨hlabor, hlabor'⟩, hmanual, hmanual'⟩, hknown⟩
        exact ⟨⟨⟨hlabor, hmanual⟩, hknown⟩, hlabor', hmanual'⟩
  | _ => simp [organizationFields, OrganizationDenotes]

theorem OrganizationDenotes.accepted {block : Json} {settings : OrganizationEfficiencySettings}
    (h : OrganizationDenotes block settings) :
    Accepted laborRateField.Holds settings.laborRate ∧ Accepted manualItemsPerHourField.Holds settings.manualItemsPerHour := by
  cases block with
  | null =>
      have hnone : settings = {} := h
      rw [hnone]
      exact ⟨accepted_none _, accepted_none _⟩
  | object items => exact ⟨h.1.accepted, h.2.accepted⟩
  | _ => cases h

theorem organization_written {block : Json} {settings : OrganizationEfficiencySettings} (h : OrganizationDenotes block settings) :
    OrganizationDenotes (serializeOrganizationEfficiencySettings settings) settings
      ∧ OnlyNames organizationFieldNames (serializeOrganizationEfficiencySettings settings) := by
  obtain ⟨hlabor, hmanual⟩ := h.accepted
  refine ⟨⟨fieldHolds_decimal ?_ ?_ hlabor, fieldHolds_decimal ?_ ?_ hmanual⟩, ?_⟩
  · simp only [List.map_cons, List.map_nil]
    decide
  · simp
  · simp only [List.map_cons, List.map_nil]
    decide
  · simp
  · intro items heq name hname
    cases heq
    exact mem_keys_written hname

theorem organization_namesFaults (block : Json) :
    NamesFaults (validateOrganizationEfficiencySettings block) (OrganizationFaulty block) := by
  cases block with
  | null => exact fun field h => h
  | object items =>
      apply namesFaults_unlessProblems
      intro field
      simp only [List.map_append, List.mem_append, mem_problemOf_iff fun _ _ => parseDecimalText_ok_iff, mem_unknownNames_iff,
        OrganizationFaulty, List.nil_append]
      rw [or_assoc]
      refine or_congr_right (or_congr_right ?_)
      exact exists_unknown_iff
  | _ => exact ⟨nofun, fun field => List.mem_singleton⟩

theorem organization_settings_stored_exactly :
    StoresExactly validateOrganizationEfficiencySettings parseOrganizationEfficiencySettings
      serializeOrganizationEfficiencySettings efficiencySettingsKey OrganizationDenotes SameOrganizationSettings
      OrganizationFaulty := by
  apply @StoresExactly.of _ _ _ _ _ _ _ _ (OnlyNames organizationFieldNames)
  · intro block settings
    rw [validateOrganizationEfficiencySettings, organizationFields_ok_iff]
    simp
  · intro block settings
    exact organization_written
  · intro block settings items h hget
    rw [parseOrganizationEfficiencySettings, storedBlock, hget, organizationFields_ok_iff]
    exact ⟨h, nofun⟩
  · intro block other first second hfirst hsecond
    obtain ⟨hlabor, hmanual⟩ := hfirst.accepted
    obtain ⟨hlabor', hmanual'⟩ := hsecond.accepted
    constructor
    · intro h
      obtain ⟨laborRate, manualItemsPerHour⟩ := first
      obtain ⟨laborRate', manualItemsPerHour'⟩ := second
      rw [OrganizationEfficiencySettings.mk.injEq]
      exact ⟨eq_of_sameNumber hlabor hlabor' h.1, eq_of_sameNumber hmanual hmanual' h.2⟩
    · rintro rfl
      exact ⟨rfl, rfl⟩
  · exact organization_namesFaults

/-! ### The settings of a sorter site -/

/-- What a block says of a sorter site. -/
def SorterDenotes (notAfter : Option Date) (block : Json) (settings : SorterEfficiencySettings) : Prop :=
  match block with
  | .null => settings = {}
  | .object items => FieldHolds laborRateField.Holds items laborRateName settings.laborRate
      ∧ FieldHolds manualItemsPerHourField.Holds items manualItemsPerHourName settings.manualItemsPerHour
      ∧ FieldHolds oneTimeCostField.Holds items oneTimeCostName settings.oneTimeCost
      ∧ FieldHolds recurringAnnualCostField.Holds items recurringAnnualCostName settings.recurringAnnualCost
      ∧ FieldHolds (DateHolds notAfter) items inServiceDateName settings.inServiceDate
  | _ => False

/-- A field of the block is malformed, out of range, after today or unknown, or the block itself is no object. -/
def SorterFaulty (notAfter : Option Date) (block : Json) (field : Text) : Prop :=
  match block with
  | .null => False
  | .object items => (field = laborRateName ∧ FieldFaulty laborRateField.Holds items laborRateName)
      ∨ (field = manualItemsPerHourName ∧ FieldFaulty manualItemsPerHourField.Holds items manualItemsPerHourName)
      ∨ (field = oneTimeCostName ∧ FieldFaulty oneTimeCostField.Holds items oneTimeCostName)
      ∨ (field = recurringAnnualCostName ∧ FieldFaulty recurringAnnualCostField.Holds items recurringAnnualCostName)
      ∨ (field = inServiceDateName ∧ FieldFaulty (DateHolds notAfter) items inServiceDateName)
      ∨ (field ∈ items.map Prod.fst ∧ field ∉ sorterFieldNames)
  | _ => field = efficiencySettingsKey

structure SameSorterSettings (left right : SorterEfficiencySettings) : Prop where
  laborRate : SameNumber left.laborRate right.laborRate
  manualItemsPerHour : SameNumber left.manualItemsPerHour right.manualItemsPerHour
  oneTimeCost : SameNumber left.oneTimeCost right.oneTimeCost
  recurringAnnualCost : SameNumber left.recurringAnnualCost right.recurringAnnualCost
  inServiceDate : left.inServiceDate = right.inServiceDate

theorem sorterFields_ok_iff {refuseUnknown : Bool} {notAfter : Option Date} {block : Json} {settings : SorterEfficiencySettings} :
    sorterFields refuseUnknown notAfter block = .ok settings
      ↔ SorterDenotes notAfter block settings ∧ (refuseUnknown = true → OnlyNames sorterFieldNames block) := by
  obtain ⟨laborRate, manualItemsPerHour, oneTimeCost, recurringAnnualCost, inServiceDate⟩ := settings
  cases block with
  | null =>
      simp only [sorterFields, SorterDenotes, OnlyNames, Except.ok.injEq]
      constructor
      · intro h
        exact ⟨h.symm, fun _ items heq => by cases heq⟩
      · intro h
        exact h.1.symm
  | object items =>
      simp only [sorterFields, SorterDenotes]
      rw [unlessProblems_ok_iff, decimal_field_iff laborRateName, decimal_field_iff manualItemsPerHourName,
        decimal_field_iff oneTimeCostName, decimal_field_iff recurringAnnualCostName, date_field_iff inServiceDateName,
        ← @unknownNames_eq_nil_iff _ []]
      simp only [List.append_eq_nil_iff, SorterEfficiencySettings.mk.injEq]
      constructor
      · rintro ⟨⟨⟨⟨⟨⟨hlabor, hmanual⟩, hcost⟩, hannual⟩, hdate⟩, hknown⟩, hlabor', hmanual', hcost', hannual', hdate'⟩
        exact ⟨⟨⟨hlabor, hlabor'⟩, ⟨hmanual, hmanual'⟩, ⟨hcost, hcost'⟩, ⟨hannual, hannual'⟩, hdate, hdate'⟩, hknown⟩
      · rintro ⟨⟨⟨hlabor, hlabor'⟩, ⟨hmanual, hmanual'⟩, ⟨hcost, hcost'⟩, ⟨hannual, hannual'⟩, hdate, hdate'⟩, hknown⟩
        exact ⟨⟨⟨⟨⟨⟨hlabor, hmanual⟩, hcost⟩, hannual⟩, hdate⟩, hknown⟩, hlabor', hmanual', hcost', hannual', hdate'⟩
  | _ => simp [sorterFields, SorterDenotes]

structure SorterAccepted (notAfter : Option Date) (settings : SorterEfficiencySettings) : Prop where
  laborRate : Accepted laborRateField.Holds settings.laborRate
  manualItemsPerHour : Accepted manualItemsPerHourField.Holds settings.manualItemsPerHour
  oneTimeCost : Accepted oneTimeCostField.Holds settings.oneTimeCost
  recurringAnnualCost : Accepted recurringAnnualCostField.Holds settings.recurringAnnualCost
  inServiceDate : Accepted (DateHolds notAfter) settings.inServiceDate

theorem SorterDenotes.accepted {notAfter : Option Date} {block : Json} {settings : SorterEfficiencySettings}
    (h : SorterDenotes notAfter block settings) : SorterAccepted notAfter settings := by
  cases block with
  | null =>
      have hnone : settings = {} := h
      rw [hnone]
      exact ⟨accepted_none _, accepted_none _, accepted_none _, accepted_none _, accepted_none _⟩
  | object items => exact ⟨h.1.accepted, h.2.1.accepted, h.2.2.1.accepted, h.2.2.2.1.accepted, h.2.2.2.2.accepted⟩
  | _ => cases h

theorem SorterDenotes.anyLimit {notAfter : Option Date} {block : Json} {settings : SorterEfficiencySettings}
    (h : SorterDenotes notAfter block settings) : SorterDenotes none block settings := by
  cases block with
  | null => exact h
  | object items => exact ⟨h.1, h.2.1, h.2.2.1, h.2.2.2.1, h.2.2.2.2.anyLimit⟩
  | _ => cases h

/-- What is written of a sorter says the same again. -/
theorem sorter_written {notAfter : Option Date} {settings : SorterEfficiencySettings} (h : SorterAccepted notAfter settings) :
    SorterDenotes notAfter (serializeSorterEfficiencySettings settings) settings
      ∧ OnlyNames sorterFieldNames (serializeSorterEfficiencySettings settings) := by
  have hnodup : ([laborRateName, manualItemsPerHourName, oneTimeCostName, recurringAnnualCostName, inServiceDateName]).Nodup := by
    decide
  obtain ⟨entries, hentries⟩ : ∃ entries, entries = [(laborRateName, settings.laborRate.map (decimalText laborRateField)),
      (manualItemsPerHourName, settings.manualItemsPerHour.map (decimalText manualItemsPerHourField)),
      (oneTimeCostName, settings.oneTimeCost.map (decimalText oneTimeCostField)),
      (recurringAnnualCostName, settings.recurringAnnualCost.map (decimalText recurringAnnualCostField)),
      (inServiceDateName, settings.inServiceDate.map dateText)] := ⟨_, rfl⟩
  have hkeys : (entries.map Prod.fst).Nodup := by
    rw [hentries]
    exact hnodup
  rw [serializeSorterEfficiencySettings, ← hentries]
  refine ⟨⟨fieldHolds_decimal hkeys ?_ h.laborRate, fieldHolds_decimal hkeys ?_ h.manualItemsPerHour,
    fieldHolds_decimal hkeys ?_ h.oneTimeCost, fieldHolds_decimal hkeys ?_ h.recurringAnnualCost,
    fieldHolds_date hkeys ?_ h.inServiceDate⟩, ?_⟩
  · simp [hentries]
  · simp [hentries]
  · simp [hentries]
  · simp [hentries]
  · simp [hentries]
  · rw [hentries]
    intro items heq name hname
    cases heq
    exact mem_keys_written hname

theorem sorter_namesFaults (today : Date) (block : Json) :
    NamesFaults (validateSorterEfficiencySettings today block) (SorterFaulty (some today) block) := by
  cases block with
  | null => exact fun field h => h
  | object items =>
      apply namesFaults_unlessProblems
      intro field
      simp only [List.map_append, List.mem_append, mem_problemOf_iff fun _ _ => parseDecimalText_ok_iff,
        mem_problemOf_iff fun _ _ => parseDateText_ok_iff, mem_unknownNames_iff, SorterFaulty, List.nil_append,
        exists_unknown_iff, or_assoc]
  | _ => exact ⟨nofun, fun field => List.mem_singleton⟩

theorem sorter_settings_stored_exactly (today : Date) :
    StoresExactly (validateSorterEfficiencySettings today) parseSorterEfficiencySettings serializeSorterEfficiencySettings
      efficiencySettingsKey (SorterDenotes (some today)) SameSorterSettings (SorterFaulty (some today)) := by
  apply @StoresExactly.of _ _ _ _ _ _ _ _ (OnlyNames sorterFieldNames)
  · intro block settings
    rw [validateSorterEfficiencySettings, sorterFields_ok_iff]
    simp
  · intro block settings h
    exact sorter_written h.accepted
  · intro block settings items h hget
    rw [parseSorterEfficiencySettings, storedBlock, hget, sorterFields_ok_iff]
    exact ⟨h.anyLimit, nofun⟩
  · intro block other first second hfirst hsecond
    have haccepted := hfirst.accepted
    have haccepted' := hsecond.accepted
    constructor
    · intro h
      obtain ⟨laborRate, manualItemsPerHour, oneTimeCost, recurringAnnualCost, inServiceDate⟩ := first
      obtain ⟨laborRate', manualItemsPerHour', oneTimeCost', recurringAnnualCost', inServiceDate'⟩ := second
      rw [SorterEfficiencySettings.mk.injEq]
      exact ⟨eq_of_sameNumber haccepted.laborRate haccepted'.laborRate h.laborRate,
        eq_of_sameNumber haccepted.manualItemsPerHour haccepted'.manualItemsPerHour h.manualItemsPerHour,
        eq_of_sameNumber haccepted.oneTimeCost haccepted'.oneTimeCost h.oneTimeCost,
        eq_of_sameNumber haccepted.recurringAnnualCost haccepted'.recurringAnnualCost h.recurringAnnualCost, h.inServiceDate⟩
    · rintro rfl
      exact ⟨rfl, rfl, rfl, rfl, rfl⟩
  · exact sorter_namesFaults today

end SortView
