import SortView.Collector.CanonicalForms
import SortView.Collector.Transform

/-!
# The patron-card guard

A barcode that is a known patron identifier makes no event. The holds of the ledger do: their corrections are not guarded.
-/

namespace SortView

open PyText Calendar Emitting

/-- The item that an event is about. -/
def SafeEvent.itemKey : SafeEvent → Option Text
  | .checkin event => event.itemKey
  | .reject event => event.itemKey
  | .acsItem event => some event.itemKey

theorem Digest.eq_of_hex {left right : Digest} (h : left.hex = right.hex) : left = right := by
  cases left
  cases right
  cases h
  rfl

namespace Transform

/-! ### The item of a built event -/

theorem itemKey_buildCheckin {keys : SubKeys} {time : Instant} {itemKey : Option Text} {destination bin : Text} {event : CheckinV2}
    (h : buildCheckin keys time itemKey destination bin = .ok event) : event.itemKey = itemKey := by
  injection columns_buildCheckin h

theorem itemKey_buildReject {keys : SubKeys} {time : Instant} {itemKey : Option Text} {errorClass : ErrorClass} {event : RejectV2}
    (h : buildReject keys time itemKey errorClass = .ok event) : event.itemKey = itemKey := by
  injection columns_buildReject h

theorem itemKey_buildAcsItem {keys : SubKeys} {time : Instant} {itemKey : Text} {state : AcsState} {fields : HoldFields}
    {rulesetId : Option Text} {revision : Int} {event : AcsItemV2}
    (h : buildAcsItem keys time itemKey state fields rulesetId revision = .ok event) : event.itemKey = itemKey := by
  injection columns_buildAcsItem h

theorem emit_eq_ok {α : Type} {built : Except BuildError α} {event : α → SafeEvent} {change : PatronCache → PatronCache}
    {cache after : PatronCache} {emitted : List SafeEvent} :
    emit built event change cache = .ok (emitted, after)
      ↔ ∃ value, built = .ok value ∧ emitted = [event value] ∧ after = change cache := by
  cases built with
  | error error =>
      constructor
      · intro h
        cases h
      · rintro ⟨value, hvalue, -⟩
        cases hvalue
  | ok value =>
      constructor
      · intro h
        cases h
        exact ⟨value, rfl, rfl, rfl⟩
      · rintro ⟨_, hvalue, rfl, rfl⟩
        cases hvalue
        rfl

end Transform

namespace PatronCache

/-! ### What a change of the cache keeps -/

theorem contains_stage (cache : PatronCache) (pk other : Digest) (nameK : Option Digest) (typeIll nameIll profile : Bool) :
    (cache.stage pk nameK typeIll nameIll profile).contains other = true ↔ cache.contains other = true ∨ other = pk := by
  rw [stage]
  split
  · next hstaged =>
    rw [Bool.and_eq_true] at hstaged
    constructor
    · exact Or.inl
    · rintro (h | rfl)
      · exact h
      · rw [contains, hstaged.2, Bool.true_or]
  · rw [contains, contains, Dict.get?_set]
    by_cases heq : other = pk
    · rw [if_pos heq]
      exact ⟨fun _ => Or.inr heq, fun _ => rfl⟩
    · rw [if_neg heq]
      exact ⟨Or.inl, fun h => h.resolve_right heq⟩

@[simp] theorem contains_holdPut (cache : PatronCache) (row : HoldRow) (pk : Digest) :
    (cache.holdPut row).contains pk = cache.contains pk := rfl

@[simp] theorem contains_holdDelete (cache : PatronCache) (itemKey : Text) (pk : Digest) :
    (cache.holdDelete itemKey).contains pk = cache.contains pk := rfl

@[simp] theorem lookup_holdPut (cache : PatronCache) (row : HoldRow) (pk : Digest) :
    (cache.holdPut row).lookup pk = cache.lookup pk := rfl

theorem lookup_stage_of_ne (cache : PatronCache) {pk other : Digest} (hne : other ≠ pk) (nameK : Option Digest)
    (typeIll nameIll profile : Bool) : (cache.stage pk nameK typeIll nameIll profile).lookup other = cache.lookup other := by
  rw [stage]
  split
  · rfl
  · rw [lookup, lookup, Dict.get?_set, if_neg hne]

theorem holdGet_stage (cache : PatronCache) (pk : Digest) (nameK : Option Digest) (typeIll nameIll profile : Bool) (itemKey : Text) :
    (cache.stage pk nameK typeIll nameIll profile).holdGet itemKey = cache.holdGet itemKey := by
  rw [stage]
  split <;> rfl

theorem holdGet_holdPut (cache : PatronCache) (row : HoldRow) (itemKey : Text) :
    (cache.holdPut row).holdGet itemKey = if itemKey = row.itemKey then some row else cache.holdGet itemKey := by
  have hstaged : (cache.holdPut row).holdOverlay.get? itemKey
      = if itemKey = row.itemKey then some (some row) else cache.holdOverlay.get? itemKey := Dict.get?_set ..
  by_cases heq : itemKey = row.itemKey
  · rw [if_pos heq] at hstaged ⊢
    rw [holdGet, hstaged]
  · rw [if_neg heq] at hstaged ⊢
    rw [holdGet, hstaged]
    rfl

end PatronCache

namespace Transform

/-! ### Known identifiers -/

/-- The patron identifiers in the records of a chunk that have a usable time. -/
def Chunk.patronIds : Chunk → List Text
  | .acs rows => (acsEntries rows).filterMap fun entry => if entry.patronId = [] then none else some entry.patronId
  | _ => []

/-- The barcodes in the records of a chunk that have a usable time. -/
def Chunk.barcodes : Chunk → List Text
  | .acs rows => (acsEntries rows).map AcsEntry.barcode
  | .checkins rows => rows.map fun row => strip row.barcode
  | .rejects rows => rows.map fun row => strip row.barcode

/-- The cache can be written, and it contains every one of the identifiers. -/
structure Known (keys : SubKeys) (ids : List Text) (cache : PatronCache) : Prop where
  writable : cache.readOnly = false
  contains : ∀ id ∈ ids, cache.contains (patronIdHmac keys id) = true

/-- An event is about none of the items that have one of the identifiers as their barcode. -/
def Clean (keys : SubKeys) (ids : List Text) (event : SafeEvent) : Prop := ∀ id ∈ ids, event.itemKey ≠ some (itemKey keys id).hex

variable {ctx : TransformContext} {ids : List Text}

theorem Known.of_contains {cache after : PatronCache} (h : Known ctx.keys ids cache) (hreadOnly : after.readOnly = cache.readOnly)
    (hkept : ∀ pk, cache.contains pk = true → after.contains pk = true) : Known ctx.keys ids after :=
  ⟨hreadOnly.trans h.writable, fun id hid => hkept _ (h.contains id hid)⟩

theorem Known.stage {cache : PatronCache} (h : Known ctx.keys ids cache) (pk : Digest) (nameK : Option Digest)
    (typeIll nameIll profile : Bool) : Known ctx.keys ids (cache.stage pk nameK typeIll nameIll profile) :=
  h.of_contains (cache.readOnly_step (.stage pk nameK typeIll nameIll profile)) fun other hother =>
    (cache.contains_stage pk other nameK typeIll nameIll profile).2 (Or.inl hother)

/-- A barcode that passes the guard is none of the known identifiers. -/
theorem hex_ne_of_not_guarded {cache : PatronCache} {barcode : Text} (hknown : Known ctx.keys ids cache)
    (hguard : guardedCard ctx barcode cache = false) (hne : barcode ≠ []) {texts : Set Text} (hhmac : Set.InjOn ctx.keys.item texts)
    (hbarcode : strip barcode ∈ texts) (hids : ∀ id ∈ ids, strip id ∈ texts) :
    ∀ id ∈ ids, (itemKey ctx.keys barcode).hex ≠ (itemKey ctx.keys id).hex := by
  intro id hid hhex
  have hdigest : ctx.keys.item (strip barcode) = ctx.keys.item (strip id) := Digest.eq_of_hex hhex
  have hsame := hhmac hbarcode (hids id hid) hdigest
  have hcontains := hknown.contains id hid
  rw [guardedCard, decide_eq_true hne, Bool.true_and, patronIdHmac, hsame] at hguard
  rw [patronIdHmac, hguard] at hcontains
  cases hcontains

/-! ### The records -/

theorem applyHold_ok {entry : AcsEntry} {key : Text} {instant : Instant} {cache after : PatronCache} {emitted : List SafeEvent}
    (h : applyHold ctx entry key instant cache = .ok (emitted, after)) :
    (after.readOnly = cache.readOnly ∧ ∀ pk, after.contains pk = cache.contains pk)
      ∧ ∀ event ∈ emitted, event.itemKey = some key := by
  rw [applyHold] at h
  obtain ⟨value, hbuilt, rfl, rfl⟩ := emit_eq_ok.1 h
  refine ⟨?_, fun event hevent => List.mem_singleton.1 hevent ▸ congrArg some (itemKey_buildAcsItem hbuilt)⟩
  split <;> split <;> exact ⟨rfl, fun _ => rfl⟩

theorem applyNonHold_ok {state : AcsState} {key : Text} {instant : Instant} {cache after : PatronCache} {emitted : List SafeEvent}
    (h : applyNonHold ctx state key instant cache = .ok (emitted, after)) :
    (after.readOnly = cache.readOnly ∧ ∀ pk, after.contains pk = cache.contains pk)
      ∧ ∀ event ∈ emitted, event.itemKey = some key := by
  obtain ⟨value, hbuilt, rfl, rfl⟩ := emit_eq_ok.1 h
  refine ⟨?_, fun event hevent => List.mem_singleton.1 hevent ▸ congrArg some (itemKey_buildAcsItem hbuilt)⟩
  split <;> exact ⟨rfl, fun _ => rfl⟩

section Records

variable {texts : Set Text} (hhmac : Set.InjOn ctx.keys.item texts) (hids : ∀ id ∈ ids, strip id ∈ texts)

include hhmac hids

/-- A guarded record keeps what is known, and its event is about no known identifier. -/
theorem guarded_keeps {barcode : Text} (hbarcode : strip barcode ∈ texts) {naiveLocal : Naive} {step : Instant → CacheStep}
    (hstep : ∀ instant cache emitted after, Known ctx.keys ids cache → step instant cache = .ok (emitted, after) →
      Known ctx.keys ids after ∧ ∀ event ∈ emitted, event.itemKey = itemKey? ctx barcode) :
    Step.Keeps (Known ctx.keys ids) (Clean ctx.keys ids) (Known ctx.keys ids) (guarded ctx barcode (timed ctx naiveLocal step)) := by
  intro cache emitted after hknown hrun
  rw [guarded] at hrun
  split at hrun
  · cases hrun
    exact ⟨List.forall_mem_nil _, hknown.stage _ _ _ _ _⟩
  · next hguard =>
    rw [Bool.not_eq_true] at hguard
    rw [timed] at hrun
    split at hrun
    · cases hrun
    · cases hrun
      exact ⟨List.forall_mem_nil _, hknown⟩
    · next instant _ =>
      obtain ⟨hafter, hitems⟩ := hstep instant cache emitted after hknown hrun
      refine ⟨?_, hafter⟩
      intro event hevent id hid heq
      rw [hitems event hevent, itemKey?] at heq
      split at heq
      · cases heq
      · next hne => exact hex_ne_of_not_guarded hknown hguard hne hhmac hbarcode hids id hid (Option.some.inj heq)

theorem applyCheckin_keeps {row : Checkins.Row} (hbarcode : strip (strip row.barcode) ∈ texts) :
    Step.Keeps (Known ctx.keys ids) (Clean ctx.keys ids) (Known ctx.keys ids) (applyCheckin ctx row) := by
  rw [applyCheckin]
  split
  · exact Step.Keeps.silent fun _ h => h
  · apply guarded_keeps hhmac hids hbarcode
    intro instant cache emitted after hknown hrun
    obtain ⟨value, hbuilt, rfl, rfl⟩ := emit_eq_ok.1 hrun
    exact ⟨hknown, fun event hevent => List.mem_singleton.1 hevent ▸ itemKey_buildCheckin hbuilt⟩

theorem applyReject_keeps {row : Rejects.Row} (hbarcode : strip (strip row.barcode) ∈ texts) :
    Step.Keeps (Known ctx.keys ids) (Clean ctx.keys ids) (Known ctx.keys ids) (applyReject ctx row) := by
  rw [applyReject]
  split
  · exact Step.Keeps.silent fun _ h => h
  · apply guarded_keeps hhmac hids hbarcode
    intro instant cache emitted after hknown hrun
    obtain ⟨value, hbuilt, rfl, rfl⟩ := emit_eq_ok.1 hrun
    exact ⟨hknown, fun event hevent => List.mem_singleton.1 hevent ▸ itemKey_buildReject hbuilt⟩

theorem applyItem_keeps {entry : AcsEntry} (hbarcode : strip entry.barcode ∈ texts) :
    Step.Keeps (Known ctx.keys ids) (Clean ctx.keys ids) (Known ctx.keys ids) (applyItem ctx entry) := by
  rw [applyItem]
  split
  · exact Step.Keeps.silent fun _ h => h
  · next hitem =>
    rw [not_or, not_not] at hitem
    apply guarded_keeps hhmac hids hbarcode
    intro instant cache emitted after hknown hrun
    have hkey : itemKey? ctx entry.barcode = some (itemKey ctx.keys entry.barcode).hex := if_neg hitem.2
    rw [hkey]
    split at hrun
    · obtain ⟨⟨hreadOnly, hcontains⟩, hitems⟩ := applyHold_ok hrun
      exact ⟨hknown.of_contains hreadOnly fun pk h => (hcontains pk).trans h, hitems⟩
    · obtain ⟨⟨hreadOnly, hcontains⟩, hitems⟩ := applyNonHold_ok hrun
      exact ⟨hknown.of_contains hreadOnly fun pk h => (hcontains pk).trans h, hitems⟩

end Records

/-! ### The profiles -/

/-- The holds of the ledger that a chunk corrects: those of a patron whose profile changes what they should say. -/
def Corrected (ctx : TransformContext) (cache : PatronCache) (chunk : Chunk) (row : HoldRow) : Prop :=
  match chunk with
  | .acs rows => ∃ profile ∈ (profiles ctx (acsEntries rows)).entries,
      profileOutcome (cache.lookup profile.1) ctx.rules ≠ profileOutcome (some profile.2) ctx.rules
        ∧ row ∈ cache.holdsForPatron profile.1
        ∧ Classify.combine row.static (profileOutcome (some profile.2) ctx.rules) ≠ row.flags
  | _ => False

/-- What the profiles so far have left: the staged patrons are known, other profiles are as they were, and so are the holds of
patrons that were not touched. -/
structure AfterProfiles (ctx : TransformContext) (ids : List Text) (start : PatronCache) (staged touched : List Digest)
    (cache : PatronCache) : Prop where
  known : Known ctx.keys ids cache
  seen : ∀ pk ∈ staged, cache.contains pk = true
  lookup : ∀ pk, pk ∉ staged → cache.lookup pk = start.lookup pk
  holds : ∀ itemKey row, cache.holdGet itemKey = some row → row.patronPk ∉ touched → start.holdGet itemKey = some row

section Profiles

variable {start : PatronCache} {staged touched : List Digest} {all : List Text}

/-- A correction for a touched patron. -/
theorem correct_keeps {row : HoldRow} (hpatron : row.patronPk ∈ touched) {outcome : HoldFlags}
    (hclean : Classify.combine row.static outcome ≠ row.flags → ∀ id ∈ all, row.itemKey ≠ (itemKey ctx.keys id).hex) :
    Step.Keeps (AfterProfiles ctx ids start staged touched) (Clean ctx.keys all) (AfterProfiles ctx ids start staged touched)
      (correct ctx outcome row) := by
  intro cache emitted after hbefore hrun
  rw [correct] at hrun
  split at hrun
  · cases hrun
    exact ⟨List.forall_mem_nil _, hbefore⟩
  · next hflags =>
    split at hrun
    · cases hrun
    · obtain ⟨value, hbuilt, rfl, rfl⟩ := emit_eq_ok.1 hrun
      refine ⟨?_, ⟨hbefore.known.writable, hbefore.known.contains⟩, hbefore.seen, hbefore.lookup, ?_⟩
      · intro event hevent id hid heq
        rw [List.mem_singleton.1 hevent] at heq
        exact hclean hflags id hid ((itemKey_buildAcsItem hbuilt).symm.trans (Option.some.inj heq))
      · intro key other hother huntouched
        rw [PatronCache.holdGet_holdPut] at hother
        split at hother
        · cases hother
          exact absurd hpatron huntouched
        · exact hbefore.holds key other hother huntouched

/-- The corrections of a patron whose profile was not staged yet. -/
theorem corrections_keeps {pk : Digest} (hpk : pk ∉ touched) {outcome : HoldFlags}
    (hclean : ∀ row ∈ start.holdsForPatron pk, Classify.combine row.static outcome ≠ row.flags →
      ∀ id ∈ all, row.itemKey ≠ (itemKey ctx.keys id).hex) :
    Step.Keeps (AfterProfiles ctx ids start staged touched) (Clean ctx.keys all) (AfterProfiles ctx ids start staged (touched ++ [pk]))
      (corrections ctx pk outcome) := by
  intro cache emitted after hbefore hrun
  have htouched : AfterProfiles ctx ids start staged (touched ++ [pk]) cache :=
    ⟨hbefore.known, hbefore.seen, hbefore.lookup, fun key row hrow huntouched =>
      hbefore.holds key row hrow fun h => huntouched (List.mem_append_left _ h)⟩
  have hloop : Step.Keeps (AfterProfiles ctx ids start staged (touched ++ [pk])) (Clean ctx.keys all)
      (AfterProfiles ctx ids start staged (touched ++ [pk])) (Step.forEach (correct ctx outcome) (cache.holdsForPatron pk)) := by
    apply @Step.Keeps.forEach _ _ _ _ _ fun _ => AfterProfiles ctx ids start staged (touched ++ [pk])
    intro done row rest hrows
    have hrow : row ∈ cache.holdsForPatron pk := hrows ▸ List.mem_append_right _ (List.mem_cons_self ..)
    obtain ⟨hget, hpatron⟩ := cache.mem_holdsForPatron.1 hrow
    have hstart := start.mem_holdsForPatron.2 ⟨hbefore.holds _ row hget (hpatron ▸ hpk), hpatron⟩
    exact correct_keeps (List.mem_append_right _ (List.mem_singleton.2 hpatron)) (hclean row hstart)
  exact hloop cache emitted after htouched hrun

/-- The staging of a profile. -/
theorem AfterProfiles.stage {cache : PatronCache} {pk : Digest} (h : AfterProfiles ctx ids start staged touched cache)
    (info : PatronInfo) : AfterProfiles ctx ids start (staged ++ [pk]) touched (cache.stage pk info.nameK info.typeIll info.nameIll true) := by
  refine ⟨h.known.stage _ _ _ _ _, ?_, ?_, ?_⟩
  · intro other hother
    rw [PatronCache.contains_stage]
    exact (List.mem_append.1 hother).imp (h.seen other) List.mem_singleton.1
  · intro other hother
    rw [List.mem_append, not_or, List.mem_singleton] at hother
    rw [PatronCache.lookup_stage_of_ne _ hother.2]
    exact h.lookup other hother.1
  · intro key row hrow huntouched
    rw [PatronCache.holdGet_stage] at hrow
    exact h.holds key row hrow huntouched

theorem applyProfile_keeps {profile : Digest × PatronInfo} (hstaged : profile.1 ∉ staged)
    (hclean : profileOutcome (start.lookup profile.1) ctx.rules ≠ profileOutcome (some profile.2) ctx.rules →
      ∀ row ∈ start.holdsForPatron profile.1,
      Classify.combine row.static (profileOutcome (some profile.2) ctx.rules) ≠ row.flags →
      ∀ id ∈ all, row.itemKey ≠ (itemKey ctx.keys id).hex) :
    Step.Keeps (AfterProfiles ctx ids start staged staged) (Clean ctx.keys all)
      (AfterProfiles ctx ids start (staged ++ [profile.1]) (staged ++ [profile.1])) (applyProfile ctx profile) := by
  intro cache emitted after hbefore hrun
  rw [applyProfile] at hrun
  split at hrun
  · next hchanged =>
    rw [hbefore.lookup _ hstaged] at hchanged
    have hsilent : Step.Keeps (AfterProfiles ctx ids start staged (staged ++ [profile.1])) (Clean ctx.keys all)
        (AfterProfiles ctx ids start (staged ++ [profile.1]) (staged ++ [profile.1]))
        (Step.silent fun cache : PatronCache => cache.stage profile.1 profile.2.nameK profile.2.typeIll profile.2.nameIll true :
          CacheStep) := Step.Keeps.silent fun cache h => h.stage profile.2
    exact (corrections_keeps hstaged (hclean hchanged)).andThen hsilent cache emitted after hbefore hrun
  · have hstage := (hbefore.stage profile.2 : AfterProfiles ctx ids start (staged ++ [profile.1]) staged _)
    cases hrun
    exact ⟨List.forall_mem_nil _, hstage.known, hstage.seen, hstage.lookup, fun key row hrow huntouched =>
      hstage.holds key row hrow fun h => huntouched (List.mem_append_left _ h)⟩

/-- The profiles of a chunk whose corrections touch no known identifier. -/
theorem applyProfiles_keeps {rows : List Acs.Row}
    (hclean : ∀ row, Corrected ctx start (.acs rows) row → ∀ id ∈ all, row.itemKey ≠ (itemKey ctx.keys id).hex) :
    Step.Keeps (AfterProfiles ctx ids start [] []) (Clean ctx.keys all)
      (AfterProfiles ctx ids start ((profiles ctx (acsEntries rows)).keys) ((profiles ctx (acsEntries rows)).keys))
      (Step.forEach (applyProfile ctx) (profiles ctx (acsEntries rows)).entries) := by
  have hnodup := (profiles ctx (acsEntries rows)).nodup
  apply @Step.Keeps.forEach _ _ _ _ _ fun done => AfterProfiles ctx ids start (done.map Prod.fst) (done.map Prod.fst)
  intro done profile rest hsplit
  have hstaged : profile.1 ∉ done.map Prod.fst := by
    rw [hsplit, List.map_append, List.nodup_append] at hnodup
    exact fun hmem => hnodup.2.2 _ hmem _ (List.mem_cons_self ..) rfl
  rw [List.map_append, List.map_singleton]
  apply applyProfile_keeps hstaged
  intro hchanged row hrow hflags
  exact hclean row ⟨profile, hsplit ▸ List.mem_append_right _ (List.mem_cons_self ..), hchanged, hrow, hflags⟩

end Profiles

/-! ### A chunk -/

/-- The patron of a message-64 record has a profile. -/
theorem mem_profiles {entries : List AcsEntry} {entry : AcsEntry} (hentry : entry ∈ entries) (hcode : entry.messageCode = "64".toList)
    (hid : entry.patronId ≠ []) : patronIdHmac ctx.keys entry.patronId ∈ (profiles ctx entries).keys := by
  apply (Dict.mem_keys_foldl_set _ _ _ _ _).2
  refine Or.inr ⟨entry, ?_, rfl⟩
  rw [List.mem_mergeSort, List.mem_filter, hcode, decide_eq_true hid]
  exact ⟨hentry, rfl⟩

/-- The identifiers of a chunk of ACS rows are known once its patrons are staged. -/
theorem applySightings_keeps {start : PatronCache} {rows : List Acs.Row} {allowed : SafeEvent → Prop} :
    Step.Keeps (AfterProfiles ctx ids start (profiles ctx (acsEntries rows)).keys (profiles ctx (acsEntries rows)).keys) allowed
      (Known ctx.keys (ids ++ (Chunk.acs rows).patronIds)) (Step.forEach (applySighting ctx) (acsEntries rows)) := by
  have hloop := @Step.Keeps.forEach PatronCache TransformError AcsEntry SafeEvent allowed
    (fun done cache => Known ctx.keys ids cache ∧ (∀ pk ∈ (profiles ctx (acsEntries rows)).keys, cache.contains pk = true)
      ∧ ∀ entry ∈ done, entry.messageCode ≠ "64".toList → entry.patronId ≠ [] →
        cache.contains (patronIdHmac ctx.keys entry.patronId) = true) (applySighting ctx) (acsEntries rows) ?_
  · intro cache emitted after hbefore hrun
    obtain ⟨hemitted, hknown, hprofiled, hsighted⟩ := hloop cache emitted after
      ⟨hbefore.known, hbefore.seen, List.forall_mem_nil _⟩ hrun
    refine ⟨hemitted, hknown.writable, ?_⟩
    intro id hid
    rcases List.mem_append.1 hid with hold | hnew
    · exact hknown.contains id hold
    · obtain ⟨entry, hentry, hsome⟩ := List.mem_filterMap.1 hnew
      split at hsome
      · cases hsome
      · next hne =>
        cases hsome
        by_cases hcode : entry.messageCode = "64".toList
        · exact hprofiled _ (mem_profiles hentry hcode hne)
        · exact hsighted entry hentry hcode hne
  · intro done entry rest hsplit
    apply Step.Keeps.silent
    rintro cache ⟨hknown, hprofiled, hsighted⟩
    have hmono : ∀ pk, cache.contains pk = true → (if entry.messageCode ≠ "64".toList ∧ entry.patronId ≠ [] then
        sight (patronIdHmac ctx.keys entry.patronId) cache else cache).contains pk = true := by
      intro pk hpk
      split
      · exact (cache.contains_stage _ pk _ _ _ _).2 (Or.inl hpk)
      · exact hpk
    have hreadOnly : (if entry.messageCode ≠ "64".toList ∧ entry.patronId ≠ [] then
        sight (patronIdHmac ctx.keys entry.patronId) cache else cache).readOnly = cache.readOnly := by
      split
      · exact cache.readOnly_step (.stage _ none false false false)
      · rfl
    refine ⟨hknown.of_contains hreadOnly hmono, fun pk hpk => hmono pk (hprofiled pk hpk), ?_⟩
    intro other hother hcode hid
    rcases List.mem_append.1 hother with hold | hlast
    · exact hmono _ (hsighted other hold hcode hid)
    · rw [List.mem_singleton.1 hlast] at hcode hid ⊢
      rw [if_pos ⟨hcode, hid⟩]
      exact (cache.contains_stage _ _ _ _ _ _).2 (Or.inr rfl)

/-- One chunk: what is known stays known and its own identifiers are added, and no event is about a known identifier unless a
corrected hold is. -/
theorem transformChunk_keeps {start : PatronCache} {chunk : Chunk} {texts : Set Text} (hhmac : Set.InjOn ctx.keys.item texts)
    (hids : ∀ id ∈ ids ++ chunk.patronIds, strip id ∈ texts) (hbarcodes : ∀ barcode ∈ chunk.barcodes, strip barcode ∈ texts)
    (hclean : ∀ row, Corrected ctx start chunk row → ∀ id ∈ ids ++ chunk.patronIds, row.itemKey ≠ (itemKey ctx.keys id).hex)
    (hstart : Known ctx.keys ids start) {events : List SafeEvent} {after : PatronCache}
    (hrun : transformChunk ctx chunk start = .ok (events, after)) :
    (∀ event ∈ events, Clean ctx.keys (ids ++ chunk.patronIds) event) ∧ Known ctx.keys (ids ++ chunk.patronIds) after := by
  cases chunk with
  | acs rows =>
      have hbefore : AfterProfiles ctx ids start [] [] start :=
        ⟨hstart, List.forall_mem_nil _, fun _ _ => rfl, fun _ _ hrow _ => hrow⟩
      have hitems : Step.Keeps (Known ctx.keys (ids ++ (Chunk.acs rows).patronIds)) (Clean ctx.keys (ids ++ (Chunk.acs rows).patronIds))
          (Known ctx.keys (ids ++ (Chunk.acs rows).patronIds)) (Step.forEach (applyItem ctx) (acsEntries rows)) := by
        apply @Step.Keeps.forEach _ _ _ _ _ fun _ => Known ctx.keys (ids ++ (Chunk.acs rows).patronIds)
        intro done entry rest hsplit
        exact applyItem_keeps hhmac hids
          (hbarcodes _ (List.mem_map_of_mem (hsplit ▸ List.mem_append_right _ (List.mem_cons_self ..))))
      exact (applyProfiles_keeps hclean).andThen (applySightings_keeps.andThen hitems) start events after hbefore hrun
  | checkins rows =>
      rw [show (Chunk.checkins rows).patronIds = [] from rfl, List.append_nil] at hids ⊢
      have hloop := @Step.Keeps.forEach _ TransformError _ _ (Clean ctx.keys ids) (fun _ => Known ctx.keys ids) (applyCheckin ctx) rows
        fun done row rest hsplit => applyCheckin_keeps hhmac hids
          (hbarcodes _ (List.mem_map_of_mem (hsplit ▸ List.mem_append_right _ (List.mem_cons_self ..))))
      exact hloop start events after hstart hrun
  | rejects rows =>
      rw [show (Chunk.rejects rows).patronIds = [] from rfl, List.append_nil] at hids ⊢
      have hloop := @Step.Keeps.forEach _ TransformError _ _ (Clean ctx.keys ids) (fun _ => Known ctx.keys ids) (applyReject ctx) rows
        fun done row rest hsplit => applyReject_keeps hhmac hids
          (hbarcodes _ (List.mem_map_of_mem (hsplit ▸ List.mem_append_right _ (List.mem_cons_self ..))))
      exact hloop start events after hstart hrun

end Transform

end SortView
