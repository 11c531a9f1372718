import SortView.Collector.CanonicalForms
import SortView.Collector.Normalize
import SortView.Lib.JsonText
import SortView.Services.CollectorRules

/-!
# Builds that succeed

Values in the formats of a safe event are printable, so a canonical form holds them, and the event they make passes its own
checks. What `v2_normalize` gives is in those formats.
-/

namespace SortView

open PyText Calendar JsonText

/-! ### Printable values -/

theorem printable_of_ranges {text : Text} (h : ∀ c ∈ text, ('a' ≤ c ∧ c ≤ 'z') ∨ ('0' ≤ c ∧ c ≤ '9') ∨ c = '_') :
    Printable text := by
  intro c hc
  rcases h c hc with ⟨hlow, hhigh⟩ | ⟨hlow, hhigh⟩ | rfl
  · have hlow' : 97 ≤ c.toNat := hlow
    have hhigh' : c.toNat ≤ 122 := hhigh
    omega
  · have hlow' : 48 ≤ c.toNat := hlow
    have hhigh' : c.toNat ≤ 57 := hhigh
    omega
  · decide

theorem printable_hexKey {text : Text} (h : isHexKey text = true) : Printable text := by
  rw [isHexKey, Bool.and_eq_true, List.all_eq_true] at h
  apply printable_of_ranges
  intro c hc
  have hchar := h.2 c hc
  simp only [Bool.or_eq_true, Bool.and_eq_true, decide_eq_true_eq] at hchar
  rcases hchar with hdigit | ⟨hlow, hhigh⟩
  · exact Or.inr (Or.inl hdigit)
  · exact Or.inl ⟨hlow, Char.le_trans hhigh (show 'f' ≤ 'z' by decide)⟩

theorem slugCharacter_ranges {c : Char} (h : (('a' ≤ c && c ≤ 'z') || ('0' ≤ c && c ≤ '9') || c == '_') = true) :
    ('a' ≤ c ∧ c ≤ 'z') ∨ ('0' ≤ c ∧ c ≤ '9') ∨ c = '_' := by
  simpa [or_assoc] using h

theorem printable_slug {slug : Text} (h : isDestinationSlug slug = true) : Printable slug := by
  cases slug with
  | nil => exact Printable.nil
  | cons first rest =>
      rw [isDestinationSlug] at h
      simp only [Bool.and_eq_true, decide_eq_true_eq, List.all_eq_true] at h
      apply printable_of_ranges
      intro c hc
      rcases List.mem_cons.1 hc with rfl | hrest
      · exact Or.inl h.1.1
      · exact slugCharacter_ranges (h.1.2 c hrest)

theorem printable_bin {bin : Text} (h : isBin bin = true) : Printable bin := by
  cases bin with
  | nil => exact Printable.nil
  | cons first rest =>
      rw [isBin] at h
      simp only [Bool.and_eq_true, Bool.or_eq_true, decide_eq_true_eq, List.all_eq_true] at h
      apply printable_of_ranges
      intro c hc
      rcases List.mem_cons.1 hc with rfl | hrest
      · exact h.1.1.elim Or.inl fun hdigit => Or.inr (Or.inl hdigit)
      · exact slugCharacter_ranges (by simpa using h.1.2 c hrest)

theorem printable_padded (width value : Nat) : Printable (padded width value) :=
  printable_digits fun _ hc => isDigit_of_mem_padded hc

theorem printable_date (date : Date) : Printable date.written :=
  (printable_padded _ _).append (.cons (by decide) ((printable_padded _ _).append (.cons (by decide) (printable_padded _ _))))

theorem printable_clock (clock : Nat) : Printable (clockWritten clock) :=
  (printable_padded _ _).append (.cons (by decide) ((printable_padded _ _).append (.cons (by decide) (printable_padded _ _))))

theorem printable_formatTime (instant : Instant) : Printable (formatTime instant) :=
  (printable_date _).append (.cons (by decide) ((printable_clock _).append (.cons (by decide) .nil)))

theorem printable_textOrAbsent {valid : Text → Bool} (hvalid : ∀ text, valid text = true → Printable text) {value : Option Text}
    (h : value.all valid = true) : Printable (textOrAbsent value) := by
  cases value with
  | none => exact .of_all rfl
  | some text =>
      rw [textOrAbsent]
      split
      · exact .of_all rfl
      · exact hvalid text h

theorem printable_errorClass (errorClass : ErrorClass) : Printable errorClass.text := by
  cases errorClass <;> exact .of_all rfl

theorem printable_state (state : AcsState) : Printable state.text := by
  cases state <;> exact .of_all rfl

theorem printable_flag (flag : Option Bool) : Printable (flagText flag) := by
  rcases flag with _ | _ | _ <;> exact .of_all rfl

/-- Printable fields have a canonical form. -/
theorem canonicalForm_of_printable {kind : Text} {fields : List (Text × Text)} (h : ∀ field ∈ fields, Printable field.2) :
    ∃ canonical, canonicalForm kind fields = some canonical := by
  rw [canonicalForm, if_neg]
  · exact ⟨_, rfl⟩
  · rw [Bool.not_eq_true, List.any_eq_false]
    intro field hfield hany
    obtain ⟨c, hc, hbad⟩ := List.any_eq_true.1 hany
    obtain ⟨hlow, hhigh⟩ := h field hfield c hc
    simp only [Bool.or_eq_true, beq_iff_eq, decide_eq_true_eq] at hbad
    rcases hbad with (rfl | rfl) | hwide
    · exact absurd hlow (by decide)
    · exact absurd hlow (by decide)
    · omega

/-! ### The builders -/

variable (keys : SubKeys) (time : Instant)

theorem CheckinV2.exists_make {eventKey : Text} {itemKey : Option Text} {destination bin : Text}
    (h : firstUnsafe (checkinChecks eventKey itemKey destination bin) = none) :
    ∃ event, CheckinV2.make eventKey time itemKey destination bin = .ok event := by
  rw [CheckinV2.make]
  split
  · exact ⟨_, rfl⟩
  · next hsome =>
    rw [h] at hsome
    cases hsome

theorem RejectV2.exists_make (errorClass : ErrorClass) {eventKey : Text} {itemKey : Option Text}
    (h : firstUnsafe (rejectChecks eventKey itemKey) = none) :
    ∃ event, RejectV2.make eventKey time errorClass itemKey = .ok event := by
  rw [RejectV2.make]
  split
  · exact ⟨_, rfl⟩
  · next hsome =>
    rw [h] at hsome
    cases hsome

theorem AcsItemV2.exists_make {eventKey itemKey : Text} {state : AcsState} {fields : HoldFields} {rulesetId : Option Text}
    (h : firstUnsafe (acsItemChecks eventKey itemKey state fields rulesetId) = none) :
    ∃ event, AcsItemV2.make eventKey time itemKey state fields rulesetId = .ok event := by
  rw [AcsItemV2.make]
  split
  · exact ⟨_, rfl⟩
  · next hsome =>
    rw [h] at hsome
    cases hsome

theorem exists_buildCheckin {itemKey : Option Text} {destination bin : Text} (hitem : itemKey.all isHexKey = true)
    (hdestination : isDestinationSlug destination = true) (hbin : isBin bin = true) :
    ∃ event, buildCheckin keys time itemKey destination bin = .ok event := by
  obtain ⟨canonical, hcanonical⟩ : ∃ canonical, canonicalCheckin (formatTime time) itemKey destination bin = some canonical := by
    apply canonicalForm_of_printable
    simp only [List.forall_mem_cons]
    exact ⟨printable_formatTime time, printable_textOrAbsent (fun _ => printable_hexKey) hitem, printable_slug hdestination,
      printable_bin hbin, List.forall_mem_nil _⟩
  have hsafe : firstUnsafe (checkinChecks (keys.event canonical).hex itemKey destination bin) = none := by
    rw [firstUnsafe_eq_none, checkinChecks]
    simp only [List.forall_mem_cons]
    exact ⟨(keys.event canonical).valid, hitem, hdestination, hbin, List.forall_mem_nil _⟩
  obtain ⟨event, hmake⟩ := CheckinV2.exists_make time hsafe
  rw [buildCheckin, hcanonical]
  dsimp only
  rw [hmake]
  exact ⟨event, rfl⟩

theorem exists_buildReject {itemKey : Option Text} (hitem : itemKey.all isHexKey = true) (errorClass : ErrorClass) :
    ∃ event, buildReject keys time itemKey errorClass = .ok event := by
  obtain ⟨canonical, hcanonical⟩ : ∃ canonical, canonicalReject (formatTime time) itemKey errorClass = some canonical := by
    apply canonicalForm_of_printable
    simp only [List.forall_mem_cons]
    exact ⟨printable_formatTime time, printable_textOrAbsent (fun _ => printable_hexKey) hitem, printable_errorClass errorClass,
      List.forall_mem_nil _⟩
  have hsafe : firstUnsafe (rejectChecks (keys.event canonical).hex itemKey) = none := by
    rw [firstUnsafe_eq_none, rejectChecks]
    simp only [List.forall_mem_cons]
    exact ⟨(keys.event canonical).valid, hitem, List.forall_mem_nil _⟩
  obtain ⟨event, hmake⟩ := RejectV2.exists_make time errorClass hsafe
  rw [buildReject, hcanonical]
  dsimp only
  rw [hmake]
  exact ⟨event, rfl⟩

/-- A hold with its destination and flags, and a ruleset id in its format. -/
theorem exists_buildHold {itemKey destination rulesetId : Text} {isIll isBranchServices isCollectionServices : Bool} (revision : Int)
    (hitem : isHexKey itemKey = true) (hdestination : isDestinationSlug destination = true) (hruleset : isUuid4 rulesetId = true) :
    ∃ event, buildAcsItem keys time itemKey .hold
      ⟨some destination, some isIll, some isBranchServices, some isCollectionServices⟩ (some rulesetId) revision = .ok event := by
  obtain ⟨canonical, hcanonical⟩ : ∃ canonical, canonicalAcsItem (formatTime time) itemKey .hold
      ⟨some destination, some isIll, some isBranchServices, some isCollectionServices⟩ revision = some canonical := by
    apply canonicalForm_of_printable
    intro field hfield
    rw [acsItemFields, if_pos rfl] at hfield
    rcases List.mem_append.1 hfield with hcommon | hhold
    · simp only [List.mem_cons, List.not_mem_nil, or_false] at hcommon
      rcases hcommon with rfl | rfl | rfl
      · exact printable_formatTime time
      · exact printable_hexKey hitem
      · exact printable_state .hold
    · rcases List.mem_append.1 hhold with hfixed | hrevision
      · simp only [List.mem_cons, List.not_mem_nil, or_false] at hfixed
        rcases hfixed with rfl | rfl | rfl | rfl
        · have hslug : (some destination).all isDestinationSlug = true := hdestination
          exact printable_textOrAbsent (fun _ => printable_slug) hslug
        · exact printable_flag _
        · exact printable_flag _
        · exact printable_flag _
      · split at hrevision
        · rw [List.mem_singleton.1 hrevision]
          exact printable_digits fun _ hc => isDigit_of_mem_decimal hc
        · cases hrevision
  have hsafe : firstUnsafe (acsItemChecks (keys.event canonical).hex itemKey .hold
      ⟨some destination, some isIll, some isBranchServices, some isCollectionServices⟩ (some rulesetId)) = none := by
    rw [firstUnsafe_eq_none, acsItemChecks, if_pos rfl]
    simp only [List.cons_append, List.nil_append, List.forall_mem_cons]
    exact ⟨(keys.event canonical).valid, hitem, hdestination, rfl, hruleset, List.forall_mem_nil _⟩
  obtain ⟨event, hmake⟩ := AcsItemV2.exists_make time hsafe
  rw [buildAcsItem, hcanonical]
  dsimp only
  rw [hmake]
  exact ⟨event, rfl⟩

theorem exists_buildNonHold {itemKey : Text} {state : AcsState} (hitem : isHexKey itemKey = true) (hstate : state ≠ .hold) :
    ∃ event, buildAcsItem keys time itemKey state .none none 0 = .ok event := by
  obtain ⟨canonical, hcanonical⟩ : ∃ canonical, canonicalAcsItem (formatTime time) itemKey state .none 0 = some canonical := by
    apply canonicalForm_of_printable
    rw [acsItemFields, if_neg hstate, List.append_nil]
    simp only [List.forall_mem_cons]
    exact ⟨printable_formatTime time, printable_hexKey hitem, printable_state state, List.forall_mem_nil _⟩
  have hsafe : firstUnsafe (acsItemChecks (keys.event canonical).hex itemKey state .none none) = none := by
    rw [firstUnsafe_eq_none, acsItemChecks, if_neg hstate]
    simp only [List.cons_append, List.nil_append, List.forall_mem_cons]
    exact ⟨(keys.event canonical).valid, hitem, rfl, List.forall_mem_nil _⟩
  obtain ⟨event, hmake⟩ := AcsItemV2.exists_make time hsafe
  rw [buildAcsItem, hcanonical]
  dsimp only
  rw [hmake]
  exact ⟨event, rfl⟩

/-! ### Normalized values -/

theorem isDestinationSlug_documentDestination {entry : Json} {destination : Text × Text}
    (h : documentDestination entry = .ok destination) : isDestinationSlug destination.1 = true := by
  rw [documentDestination] at h
  split at h
  · cases h
  · split at h
    · split at h
      · next hslug =>
        cases h
        exact hslug.1
      · cases h
    · cases h

theorem isDestinationSlug_of_mapM {entries : List Json} {destinations : List (Text × Text)}
    (h : entries.mapM documentDestination = .ok destinations) :
    ∀ destination ∈ destinations, isDestinationSlug destination.1 = true := by
  induction entries generalizing destinations with
  | nil =>
      cases h
      exact List.forall_mem_nil _
  | cons entry entries ih =>
      rw [List.mapM_cons] at h
      obtain ⟨first, hfirst, h⟩ := bind_eq_ok.1 h
      obtain ⟨rest, hrest, h⟩ := bind_eq_ok.1 h
      cases h
      exact List.forall_mem_cons.2 ⟨isDestinationSlug_documentDestination hfirst, ih hrest⟩

theorem isDestinationSlug_documentDestinations {items : List (Text × Json)} {destinations : List (Text × Text)}
    (h : documentDestinations items = .ok destinations) : ∀ destination ∈ destinations, isDestinationSlug destination.1 = true := by
  rw [documentDestinations] at h
  split at h
  · cases h
  · split at h
    · cases h
    · exact isDestinationSlug_of_mapM h

theorem isDestinationSlug_of_normalizeDocument {document : Json} {normal : RulesDocument}
    (h : normalizeDocument document = .ok normal) :
    ∀ destination ∈ normal.destinations, isDestinationSlug destination.1 = true := by
  rw [normalizeDocument] at h
  split at h
  · cases h
  · split at h
    · obtain ⟨destinations, hdestinations, h⟩ := bind_eq_ok.1 h
      obtain ⟨branchNames, -, h⟩ := bind_eq_ok.1 h
      obtain ⟨collectionNames, -, h⟩ := bind_eq_ok.1 h
      obtain ⟨branchPatterns, -, h⟩ := bind_eq_ok.1 h
      obtain ⟨collectionPatterns, -, h⟩ := bind_eq_ok.1 h
      cases h
      exact isDestinationSlug_documentDestinations hdestinations
    · cases h

theorem isDestinationSlug_of_compileRules {document : Json} {rules : Rules} (h : compileRules keys document = .ok rules) :
    ∀ destination ∈ rules.destinations, isDestinationSlug destination.2 = true := by
  obtain ⟨normal, hnormal, rfl⟩ : ∃ normal, normalizeDocument document = .ok normal ∧ normal.compile keys = rules := by
    rw [compileRules] at h
    cases hnormal : normalizeDocument document with
    | error fault =>
        rw [hnormal] at h
        cases h
    | ok normal =>
        rw [hnormal] at h
        cases h
        exact ⟨normal, rfl, rfl⟩
  intro destination hdestination
  obtain ⟨entry, hentry, rfl⟩ := List.mem_map.1 hdestination
  exact isDestinationSlug_of_normalizeDocument hnormal entry hentry

theorem isDestinationSlug_normalizeDestination {rules : Rules}
    (hrules : ∀ destination ∈ rules.destinations, isDestinationSlug destination.2 = true) (raw : Text) :
    isDestinationSlug (Normalize.normalizeDestination raw rules) = true := by
  have hfirst : ∀ {entries : List (Text × Text)} {upperText slug : Text},
      (∀ entry ∈ entries, isDestinationSlug entry.2 = true) → firstContained entries upperText = some slug → isDestinationSlug slug = true := by
    intro entries upperText slug hentries hfound
    obtain ⟨entry, hentry, rfl⟩ := Option.map_eq_some_iff.1 hfound
    exact hentries entry (List.mem_of_find?_eq_some hentry)
  rw [Normalize.normalizeDestination]
  split
  · rfl
  · split
    · rfl
    · split
      · next slug hslug => exact hfirst (by decide) hslug
      · cases hfound : firstContained rules.destinations (upper (strip raw)) with
        | none => rfl
        | some slug => exact hfirst hrules hfound

theorem isBin_normalizeBin (raw : Text) : isBin (Normalize.normalizeBin raw) = true := by
  rw [Normalize.normalizeBin]
  split
  · next hdigits =>
    obtain ⟨hne, hlength, hall⟩ := hdigits
    cases htext : strip raw with
    | nil => exact absurd htext hne
    | cons first rest =>
        rw [htext] at hlength hall
        rw [List.all_cons, Bool.and_eq_true] at hall
        rw [isBin, hall.1, Bool.or_true, Bool.true_and, Bool.and_eq_true, List.all_eq_true]
        refine ⟨?_, decide_eq_true (by rw [List.length_cons] at hlength; omega)⟩
        intro c hc
        rw [List.all_eq_true.1 hall.2 c hc, Bool.or_true, Bool.true_or]
  · rfl

end SortView
