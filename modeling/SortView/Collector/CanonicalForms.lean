import SortView.Collector.Identity

/-!
# Canonical forms are unambiguous

A canonical form determines the kind of its event and every field the server compares. The `ruleset_id` is
in no form.
-/

namespace SortView

open PyText Calendar

/-! ### Lines of a form -/

/-- The kind and the names of a form hold no line break. -/
def PlainNames (kind : Text) (fields : List (Text × Text)) : Prop :=
  '\n' ∉ kind ∧ ∀ field ∈ fields, '\n' ∉ field.1

theorem fieldLine_injective {name left right : Text} (h : fieldLine (name, left) = fieldLine (name, right)) : left = right :=
  (List.cons.inj (List.append_cancel_left h)).2

theorem mem_lines {kind text : Text} {fields : List (Text × Text)} (hnames : PlainNames kind fields)
    (hform : canonicalForm kind fields = some text) :
    text = join '\n' (("sortview/v2/event/".toList ++ kind ++ "/1".toList) :: fields.map fieldLine)
      ∧ ∀ line ∈ ("sortview/v2/event/".toList ++ kind ++ "/1".toList) :: fields.map fieldLine, '\n' ∉ line := by
  rw [canonicalForm] at hform
  split at hform
  · cases hform
  · next hplain =>
    cases hform
    refine ⟨rfl, ?_⟩
    intro line hline
    rcases List.mem_cons.1 hline with rfl | hline
    · rw [List.mem_append, List.mem_append]
      rintro ((hfront | hkind) | hback)
      · exact absurd hfront (by decide)
      · exact hnames.1 hkind
      · exact absurd hback (by decide)
    · obtain ⟨field, hfield, rfl⟩ := List.mem_map.1 hline
      rw [fieldLine, List.mem_append, List.mem_cons]
      rintro (hname | hequals | hvalue)
      · exact hnames.2 field hfield hname
      · exact absurd hequals (by decide)
      · apply hplain
        rw [List.any_eq_true]
        refine ⟨field, hfield, ?_⟩
        rw [List.any_eq_true]
        exact ⟨'\n', hvalue, rfl⟩

/-- One text is the form of one kind and one list of lines. -/
theorem canonicalForm_inj {kind kind' text : Text} {fields fields' : List (Text × Text)} (hnames : PlainNames kind fields)
    (hnames' : PlainNames kind' fields') (hform : canonicalForm kind fields = some text)
    (hform' : canonicalForm kind' fields' = some text) : kind = kind' ∧ fields.map fieldLine = fields'.map fieldLine := by
  obtain ⟨htext, hlines⟩ := mem_lines hnames hform
  obtain ⟨htext', hlines'⟩ := mem_lines hnames' hform'
  have hjoin := join_injective (List.cons_ne_nil _ _) (List.cons_ne_nil _ _) hlines hlines' (htext.symm.trans htext')
  obtain ⟨hheader, hfields⟩ := List.cons.inj hjoin
  exact ⟨List.append_cancel_left (List.append_cancel_right hheader), hfields⟩

/-! ### Values of a field -/

theorem textOrAbsent_injective (valid : Text → Bool) (habsent : valid absentText = false) (hempty : valid [] = false)
    {left right : Option Text} (hleft : left.all valid = true) (hright : right.all valid = true)
    (h : textOrAbsent left = textOrAbsent right) : left = right := by
  have hvalue : ∀ {value : Text}, valid value = true → value ≠ [] ∧ value ≠ absentText := by
    intro value hvalid
    constructor <;> rintro rfl
    · exact absurd (hempty.symm.trans hvalid) Bool.false_ne_true
    · exact absurd (habsent.symm.trans hvalid) Bool.false_ne_true
  cases left with
  | none =>
      cases right with
      | none => rfl
      | some value =>
          obtain ⟨hne, habs⟩ := hvalue hright
          rw [textOrAbsent, textOrAbsent, if_neg hne] at h
          exact absurd h.symm habs
  | some value =>
      obtain ⟨hne, habs⟩ := hvalue hleft
      cases right with
      | none =>
          rw [textOrAbsent, textOrAbsent, if_neg hne] at h
          exact absurd h habs
      | some other =>
          rw [textOrAbsent, textOrAbsent, if_neg hne, if_neg (hvalue hright).1] at h
          rw [h]

theorem flagText_injective {left right : Option Bool} (h : flagText left = flagText right) : left = right := by
  revert h
  rcases left with _ | _ | _ <;> rcases right with _ | _ | _ <;> decide

/-! ### The compared columns of an event -/

/-- What the server compares, by kind: times to the second, and no `ruleset_id`. -/
inductive CompareColumns where
  | checkin (eventTime : Instant) (itemKey : Option Text) (destination bin : Text)
  | reject (eventTime : Instant) (errorClass : ErrorClass) (itemKey : Option Text)
  | acsItem (eventTime : Instant) (state : AcsState) (itemKey : Text) (fields : HoldFields)
  deriving DecidableEq

def SafeEvent.compareColumns : SafeEvent → CompareColumns
  | .checkin event => .checkin event.eventTime.wholeSecond event.itemKey event.destination event.bin
  | .reject event => .reject event.eventTime.wholeSecond event.errorClass event.itemKey
  | .acsItem event => .acsItem event.eventTime.wholeSecond event.state event.itemKey event.fields

/-- A call of one of the three builders. -/
inductive BuildCall where
  | checkin (eventTime : Instant) (itemKey : Option Text) (destination bin : Text)
  | reject (eventTime : Instant) (itemKey : Option Text) (errorClass : ErrorClass)
  | acsItem (eventTime : Instant) (itemKey : Text) (state : AcsState) (fields : HoldFields) (rulesetId : Option Text)
      (revision : Int)
  deriving DecidableEq

def BuildCall.build (keys : SubKeys) : BuildCall → Except BuildError SafeEvent
  | .checkin eventTime itemKey destination bin => (buildCheckin keys eventTime itemKey destination bin).map .checkin
  | .reject eventTime itemKey errorClass => (buildReject keys eventTime itemKey errorClass).map .reject
  | .acsItem eventTime itemKey state fields rulesetId revision =>
      (buildAcsItem keys eventTime itemKey state fields rulesetId revision).map .acsItem

def BuildCall.canonical : BuildCall → Option Text
  | .checkin eventTime itemKey destination bin => canonicalCheckin (formatTime eventTime) itemKey destination bin
  | .reject eventTime itemKey errorClass => canonicalReject (formatTime eventTime) itemKey errorClass
  | .acsItem eventTime itemKey state fields _ revision => canonicalAcsItem (formatTime eventTime) itemKey state fields revision

def BuildCall.compareColumns : BuildCall → CompareColumns
  | .checkin eventTime itemKey destination bin => .checkin eventTime.wholeSecond itemKey destination bin
  | .reject eventTime itemKey errorClass => .reject eventTime.wholeSecond errorClass itemKey
  | .acsItem eventTime itemKey state fields _ _ => .acsItem eventTime.wholeSecond state itemKey fields

/-- The checks an event made by this call passes, its own key apart. -/
def BuildCall.Accepted : BuildCall → Prop
  | .checkin _ itemKey _ _ => itemKey.all isHexKey = true
  | .reject _ itemKey _ => itemKey.all isHexKey = true
  | .acsItem _ _ state fields rulesetId _ =>
      if state = .hold then fields.destination.any isDestinationSlug = true else fields = .none ∧ rulesetId = none

/-- A built event: its key is the digest of its canonical form, its columns are those of the call. -/
theorem build_ok {keys : SubKeys} {call : BuildCall} {event : SafeEvent} (h : call.build keys = .ok event) :
    ∃ canonical, call.canonical = some canonical ∧ event.eventKey = (keys.event canonical).hex
      ∧ event.compareColumns = call.compareColumns ∧ call.Accepted := by
  cases call with
  | checkin eventTime itemKey destination bin =>
      rw [BuildCall.build, buildCheckin] at h
      cases hcanonical : canonicalCheckin (formatTime eventTime) itemKey destination bin with
      | none =>
          rw [hcanonical] at h
          cases h
      | some canonical =>
          rw [hcanonical] at h
          dsimp only at h
          unfold CheckinV2.make at h
          split at h
          · next hsafe =>
            cases h
            rw [firstUnsafe_eq_none] at hsafe
            exact ⟨canonical, hcanonical, rfl, rfl, hsafe ("item_key".toList, _) (List.mem_cons_of_mem _ (List.mem_cons_self ..))⟩
          · cases h
  | reject eventTime itemKey errorClass =>
      rw [BuildCall.build, buildReject] at h
      cases hcanonical : canonicalReject (formatTime eventTime) itemKey errorClass with
      | none =>
          rw [hcanonical] at h
          cases h
      | some canonical =>
          rw [hcanonical] at h
          dsimp only at h
          unfold RejectV2.make at h
          split at h
          · next hsafe =>
            cases h
            rw [firstUnsafe_eq_none] at hsafe
            exact ⟨canonical, hcanonical, rfl, rfl, hsafe ("item_key".toList, _) (List.mem_cons_of_mem _ (List.mem_cons_self ..))⟩
          · cases h
  | acsItem eventTime itemKey state fields rulesetId revision =>
      rw [BuildCall.build, buildAcsItem] at h
      cases hcanonical : canonicalAcsItem (formatTime eventTime) itemKey state fields revision with
      | none =>
          rw [hcanonical] at h
          cases h
      | some canonical =>
          rw [hcanonical] at h
          dsimp only at h
          unfold AcsItemV2.make at h
          split at h
          · next hsafe =>
            cases h
            rw [firstUnsafe_eq_none] at hsafe
            refine ⟨canonical, hcanonical, rfl, rfl, ?_⟩
            rw [BuildCall.Accepted]
            by_cases hhold : state = .hold
            · rw [if_pos hhold]
              apply hsafe ("destination".toList, fields.destination.any isDestinationSlug)
              rw [acsItemChecks, if_pos hhold]
              exact List.mem_append_right _ (List.mem_cons_self ..)
            · rw [if_neg hhold]
              have hshape := hsafe ("non_hold_shape".toList, decide (fields = .none) && rulesetId.isNone)
                (by simp [acsItemChecks, hhold])
              simpa using hshape
          · cases h

/-! ### One form, one event -/

theorem plainNames_checkin (eventTime : Text) (itemKey : Option Text) (destination bin : Text) :
    PlainNames "checkin".toList [("event_time".toList, eventTime), ("item_key".toList, textOrAbsent itemKey),
      ("destination".toList, destination), ("bin".toList, bin)] := by
  refine ⟨by decide, ?_⟩
  intro field hfield
  simp only [List.mem_cons, List.not_mem_nil, or_false] at hfield
  rcases hfield with rfl | rfl | rfl | rfl <;> dsimp only <;> decide

theorem plainNames_reject (eventTime : Text) (itemKey : Option Text) (errorClass : ErrorClass) :
    PlainNames "reject".toList [("event_time".toList, eventTime), ("item_key".toList, textOrAbsent itemKey),
      ("error_class".toList, errorClass.text)] := by
  refine ⟨by decide, ?_⟩
  intro field hfield
  simp only [List.mem_cons, List.not_mem_nil, or_false] at hfield
  rcases hfield with rfl | rfl | rfl <;> dsimp only <;> decide

theorem plainNames_acsItem (eventTime itemKey : Text) (state : AcsState) (fields : HoldFields) (revision : Int) :
    PlainNames "acs_item".toList (acsItemFields eventTime itemKey state fields revision) := by
  have hnames : ∀ name ∈ (acsItemFields eventTime itemKey state fields revision).map Prod.fst, name ∈
      ["event_time".toList, "item_key".toList, "state".toList, "destination".toList, "is_ill".toList,
        "is_branch_services".toList, "is_collection_services".toList, "revision".toList] := by
    intro name hname
    rw [acsItemFields] at hname
    split at hname
    · split at hname
      · exact hname
      · exact List.mem_append_left ["revision".toList] hname
    · exact List.mem_append_left _ hname
  have hplain : ∀ name ∈ ["event_time".toList, "item_key".toList, "state".toList, "destination".toList, "is_ill".toList,
      "is_branch_services".toList, "is_collection_services".toList, "revision".toList], '\n' ∉ name := by decide
  exact ⟨by decide, fun field hfield => hplain _ (hnames _ (List.mem_map_of_mem hfield))⟩

theorem acsItem_columns {eventTime eventTime' itemKey itemKey' : Text} {state state' : AcsState} {fields fields' : HoldFields}
    {revision revision' : Int}
    (hlines : (acsItemFields eventTime itemKey state fields revision).map fieldLine
      = (acsItemFields eventTime' itemKey' state' fields' revision').map fieldLine)
    (hfields : if state = .hold then fields.destination.any isDestinationSlug = true else fields = .none)
    (hfields' : if state' = .hold then fields'.destination.any isDestinationSlug = true else fields' = .none) :
    eventTime = eventTime' ∧ itemKey = itemKey' ∧ state = state' ∧ fields = fields' := by
  rw [acsItemFields, acsItemFields, List.map_append, List.map_append] at hlines
  obtain ⟨htime, hlines⟩ := List.cons.inj hlines
  obtain ⟨hkey, hlines⟩ := List.cons.inj hlines
  obtain ⟨hstate, hlines⟩ := List.cons.inj hlines
  obtain rfl := AcsState.text_injective (fieldLine_injective hstate)
  refine ⟨fieldLine_injective htime, fieldLine_injective hkey, rfl, ?_⟩
  by_cases hhold : state = .hold
  · simp only [if_pos hhold] at hlines hfields hfields'
    obtain ⟨hdestination, hlines⟩ := List.cons.inj hlines
    obtain ⟨hill, hlines⟩ := List.cons.inj hlines
    obtain ⟨hbranch, hlines⟩ := List.cons.inj hlines
    obtain ⟨hcollection, -⟩ := List.cons.inj hlines
    have hall : ∀ {destination : Option Text}, destination.any isDestinationSlug = true →
        destination.all isDestinationSlug = true := by
      intro destination hany
      cases destination with
      | none => rfl
      | some slug => exact hany
    have hslug := textOrAbsent_injective isDestinationSlug (by decide) rfl (hall hfields) (hall hfields')
      (fieldLine_injective hdestination)
    obtain ⟨destination, isIll, isBranch, isCollection⟩ := fields
    obtain ⟨destination', isIll', isBranch', isCollection'⟩ := fields'
    obtain rfl : destination = destination' := hslug
    obtain rfl := flagText_injective (fieldLine_injective hill)
    obtain rfl := flagText_injective (fieldLine_injective hbranch)
    obtain rfl := flagText_injective (fieldLine_injective hcollection)
    rfl
  · rw [if_neg hhold] at hfields hfields'
    rw [hfields, hfields']

/-- One canonical form belongs to one kind and one set of compared columns. -/
theorem compareColumns_of_canonical {call call' : BuildCall} {text : Text} (hcanonical : call.canonical = some text)
    (hcanonical' : call'.canonical = some text) (haccepted : call.Accepted) (haccepted' : call'.Accepted) :
    call.compareColumns = call'.compareColumns := by
  have hhex : ∀ {left right : Option Text}, left.all isHexKey = true → right.all isHexKey = true →
      textOrAbsent left = textOrAbsent right → left = right := textOrAbsent_injective isHexKey (by decide) rfl
  cases call with
  | checkin eventTime itemKey destination bin =>
      cases call' with
      | checkin eventTime' itemKey' destination' bin' =>
          have hlines := (canonicalForm_inj (plainNames_checkin ..) (plainNames_checkin ..) hcanonical hcanonical').2
          obtain ⟨htime, hlines⟩ := List.cons.inj hlines
          obtain ⟨hkey, hlines⟩ := List.cons.inj hlines
          obtain ⟨hdestination, hlines⟩ := List.cons.inj hlines
          obtain ⟨hbin, -⟩ := List.cons.inj hlines
          rw [BuildCall.compareColumns, BuildCall.compareColumns,
            wholeSecond_eq_of_formatTime_eq (fieldLine_injective htime), hhex haccepted haccepted' (fieldLine_injective hkey),
            fieldLine_injective hdestination, fieldLine_injective hbin]
      | reject => exact absurd (canonicalForm_inj (plainNames_checkin ..) (plainNames_reject ..) hcanonical hcanonical').1 (by decide)
      | acsItem => exact absurd (canonicalForm_inj (plainNames_checkin ..) (plainNames_acsItem ..) hcanonical hcanonical').1 (by decide)
  | reject eventTime itemKey errorClass =>
      cases call' with
      | checkin => exact absurd (canonicalForm_inj (plainNames_reject ..) (plainNames_checkin ..) hcanonical hcanonical').1 (by decide)
      | reject eventTime' itemKey' errorClass' =>
          have hlines := (canonicalForm_inj (plainNames_reject ..) (plainNames_reject ..) hcanonical hcanonical').2
          obtain ⟨htime, hlines⟩ := List.cons.inj hlines
          obtain ⟨hkey, hlines⟩ := List.cons.inj hlines
          obtain ⟨hclass, -⟩ := List.cons.inj hlines
          rw [BuildCall.compareColumns, BuildCall.compareColumns,
            wholeSecond_eq_of_formatTime_eq (fieldLine_injective htime), hhex haccepted haccepted' (fieldLine_injective hkey),
            ErrorClass.text_injective (fieldLine_injective hclass)]
      | acsItem => exact absurd (canonicalForm_inj (plainNames_reject ..) (plainNames_acsItem ..) hcanonical hcanonical').1 (by decide)
  | acsItem eventTime itemKey state fields rulesetId revision =>
      cases call' with
      | checkin => exact absurd (canonicalForm_inj (plainNames_acsItem ..) (plainNames_checkin ..) hcanonical hcanonical').1 (by decide)
      | reject => exact absurd (canonicalForm_inj (plainNames_acsItem ..) (plainNames_reject ..) hcanonical hcanonical').1 (by decide)
      | acsItem eventTime' itemKey' state' fields' rulesetId' revision' =>
          have hlines := (canonicalForm_inj (plainNames_acsItem ..) (plainNames_acsItem ..) hcanonical hcanonical').2
          have hfields : ∀ {state : AcsState} {fields : HoldFields} {rulesetId : Option Text},
              (if state = .hold then fields.destination.any isDestinationSlug = true else fields = .none ∧ rulesetId = none) →
              if state = .hold then fields.destination.any isDestinationSlug = true else fields = .none := by
            intro state fields rulesetId h
            split at h
            · next hhold => rwa [if_pos hhold]
            · next hhold =>
              rw [if_neg hhold]
              exact h.1
          obtain ⟨htime, rfl, rfl, rfl⟩ := acsItem_columns hlines (hfields haccepted) (hfields haccepted')
          rw [BuildCall.compareColumns, BuildCall.compareColumns, wholeSecond_eq_of_formatTime_eq htime]

/-! ### The columns of a built event -/

section Columns

variable {keys : SubKeys} {time : Instant}

theorem columns_buildCheckin {itemKey : Option Text} {destination bin : Text} {event : CheckinV2}
    (h : buildCheckin keys time itemKey destination bin = .ok event) :
    (SafeEvent.checkin event).compareColumns = .checkin time.wholeSecond itemKey destination bin := by
  obtain ⟨_, -, -, hcolumns, -⟩ := @build_ok keys (.checkin time itemKey destination bin) (.checkin event)
    (by rw [BuildCall.build, h]; rfl)
  exact hcolumns

theorem columns_buildReject {itemKey : Option Text} {errorClass : ErrorClass} {event : RejectV2}
    (h : buildReject keys time itemKey errorClass = .ok event) :
    (SafeEvent.reject event).compareColumns = .reject time.wholeSecond errorClass itemKey := by
  obtain ⟨_, -, -, hcolumns, -⟩ := @build_ok keys (.reject time itemKey errorClass) (.reject event)
    (by rw [BuildCall.build, h]; rfl)
  exact hcolumns

theorem columns_buildAcsItem {itemKey : Text} {state : AcsState} {fields : HoldFields} {rulesetId : Option Text} {revision : Int}
    {event : AcsItemV2} (h : buildAcsItem keys time itemKey state fields rulesetId revision = .ok event) :
    (SafeEvent.acsItem event).compareColumns = .acsItem time.wholeSecond state itemKey fields := by
  obtain ⟨_, -, -, hcolumns, -⟩ := @build_ok keys (.acsItem time itemKey state fields rulesetId revision) (.acsItem event)
    (by rw [BuildCall.build, h]; rfl)
  exact hcolumns

end Columns

end SortView
