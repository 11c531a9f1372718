import SortView.Collector.SafeBuilds
import SortView.Collector.Transform

/-!
# A transform builds its events

What stands in the ledger is in the formats of a safe event, and its times are in the range that events may have. So every
event of a transform is built, from the records and from the ledger.
-/

namespace SortView

open PyText Calendar Emitting

namespace Transform

/-- The range that `_instant` accepts. -/
def InRange (now instant : Instant) : Prop := earliest ≤ instant.microseconds ∧ instant.microseconds ≤ now.microseconds + future

theorem InRange.mono {now later instant : Instant} (h : InRange now instant) (hle : now.microseconds ≤ later.microseconds) :
    InRange later instant := ⟨h.1, h.2.trans (Nat.add_le_add_right hle _)⟩

/-- The whole second of an instant in the range is in the range. -/
theorem InRange.wholeSecond {now instant : Instant} (h : InRange now instant) : InRange now instant.wholeSecond := by
  obtain ⟨hlow, hhigh⟩ := h
  have hearliest : earliest = 63082281600 * 1000000 := by decide
  have hwhole : instant.wholeSecond.microseconds = instant.microseconds / 1000000 * 1000000 := rfl
  constructor
  · rw [hwhole, hearliest]
    rw [hearliest] at hlow
    omega
  · rw [hwhole]
    omega

/-- What a transform is configured with: compiled rules and a ruleset id that is a random UUID. -/
structure TransformContext.Configured (ctx : TransformContext) : Prop where
  rules : ∃ document, compileRules ctx.keys document = .ok ctx.rules
  rulesetId : isUuid4 ctx.rulesetId = true

/-- A row of the ledger that an event can be built from. -/
structure Usable (now : Instant) (row : HoldRow) : Prop where
  itemKey : isHexKey row.itemKey = true
  destination : isDestinationSlug row.destination = true
  time : ∃ instant, InRange now instant ∧ row.eventTime = formatTime instant

theorem Usable.mono {now later : Instant} {row : HoldRow} (h : Usable now row) (hle : now.microseconds ≤ later.microseconds) :
    Usable later row := by
  obtain ⟨instant, hrange, hstamp⟩ := h.time
  exact ⟨h.itemKey, h.destination, instant, hrange.mono hle, hstamp⟩

/-- Every row of the ledger, stored or staged, is usable. -/
structure LedgerUsable (now : Instant) (cache : PatronCache) : Prop where
  stored : ∀ itemKey columns, cache.holds.get? itemKey = some columns → Usable now (holdFrom itemKey columns)
  staged : ∀ itemKey row, cache.holdOverlay.get? itemKey = some (some row) → Usable now row

namespace LedgerUsable

variable {now : Instant} {cache : PatronCache}

theorem holdGet (h : LedgerUsable now cache) {itemKey : Text} {row : HoldRow} (hget : cache.holdGet itemKey = some row) :
    Usable now row := by
  rw [PatronCache.holdGet] at hget
  cases hstaged : cache.holdOverlay.get? itemKey with
  | some staged =>
      rw [hstaged] at hget
      subst hget
      exact h.staged itemKey row hstaged
  | none =>
      rw [hstaged] at hget
      obtain ⟨columns, hcolumns, rfl⟩ := Option.map_eq_some_iff.1 hget
      exact h.stored itemKey columns hcolumns

theorem stage (h : LedgerUsable now cache) (pk : Digest) (nameK : Option Digest) (typeIll nameIll profile : Bool) :
    LedgerUsable now (cache.stage pk nameK typeIll nameIll profile) := by
  rw [PatronCache.stage]
  split
  · exact h
  · exact ⟨h.stored, h.staged⟩

theorem holdPut (h : LedgerUsable now cache) {row : HoldRow} (hrow : Usable now row) : LedgerUsable now (cache.holdPut row) := by
  refine ⟨h.stored, ?_⟩
  intro itemKey other hother
  have hset : (cache.holdPut row).holdOverlay.get? itemKey
      = if itemKey = row.itemKey then some (some row) else cache.holdOverlay.get? itemKey := Dict.get?_set ..
  rw [hset] at hother
  split at hother
  · cases hother
    exact hrow
  · exact h.staged itemKey other hother

theorem holdDelete (h : LedgerUsable now cache) (itemKey : Text) : LedgerUsable now (cache.holdDelete itemKey) := by
  refine ⟨h.stored, ?_⟩
  intro other row hrow
  have hset : (cache.holdDelete itemKey).holdOverlay.get? other
      = if other = itemKey then some none else cache.holdOverlay.get? other := Dict.get?_set ..
  rw [hset] at hrow
  split at hrow
  · cases hrow
  · exact h.staged other row hrow

theorem discard (h : LedgerUsable now cache) : LedgerUsable now cache.discard := by
  refine ⟨h.stored, ?_⟩
  intro itemKey row hrow
  cases hrow

theorem commit (h : LedgerUsable now cache) : LedgerUsable now cache.commit := by
  rw [PatronCache.commit]
  split
  · exact h.discard
  · refine ⟨?_, fun itemKey row hrow => by cases hrow⟩
    intro itemKey columns hcolumns
    change (Dict.alterAll _ cache.holdOverlay cache.holds).get? itemKey = some columns at hcolumns
    rw [Dict.get?_alterAll] at hcolumns
    cases hstaged : cache.holdOverlay.get? itemKey with
    | none =>
        rw [hstaged] at hcolumns
        exact h.stored itemKey columns hcolumns
    | some staged =>
        rw [hstaged] at hcolumns
        obtain ⟨row, rfl, rfl⟩ := Option.map_eq_some_iff.1 hcolumns
        have hkey := cache.keyed itemKey row hstaged
        rw [← hkey, holdFrom_columns]
        exact h.staged itemKey row hstaged

theorem mono {later : Instant} (h : LedgerUsable now cache) (hle : now.microseconds ≤ later.microseconds) :
    LedgerUsable later cache :=
  ⟨fun itemKey columns hcolumns => (h.stored itemKey columns hcolumns).mono hle,
    fun itemKey row hrow => (h.staged itemKey row hrow).mono hle⟩

end LedgerUsable

/-! ### Events in the range -/

/-- An event whose second is in the range. -/
def Sendable (now : Instant) (event : SafeEvent) : Prop := InRange now event.eventTime.wholeSecond

variable {keys : SubKeys} {now time : Instant}

theorem sendable_checkin {itemKey : Option Text} {destination bin : Text} {event : CheckinV2}
    (h : buildCheckin keys time itemKey destination bin = .ok event) (htime : InRange now time) : Sendable now (.checkin event) := by
  injection columns_buildCheckin h with hsecond
  have hrange := htime.wholeSecond
  rw [← hsecond] at hrange
  exact hrange

theorem sendable_reject {itemKey : Option Text} {errorClass : ErrorClass} {event : RejectV2}
    (h : buildReject keys time itemKey errorClass = .ok event) (htime : InRange now time) : Sendable now (.reject event) := by
  injection columns_buildReject h with hsecond
  have hrange := htime.wholeSecond
  rw [← hsecond] at hrange
  exact hrange

theorem sendable_acsItem {itemKey : Text} {state : AcsState} {fields : HoldFields} {rulesetId : Option Text} {revision : Int}
    {event : AcsItemV2} (h : buildAcsItem keys time itemKey state fields rulesetId revision = .ok event) (htime : InRange now time) :
    Sendable now (.acsItem event) := by
  injection columns_buildAcsItem h with hsecond
  have hrange := htime.wholeSecond
  rw [← hsecond] at hrange
  exact hrange

/-! ### The records -/

/-- A step that keeps the ledger usable, emits events in the range, and ends in a fault only where it may. -/
abbrev Builds (limit : Instant) (mayFault : Prop) (step : CacheStep) : Prop :=
  Step.Runs mayFault (LedgerUsable limit) (Sendable limit) (LedgerUsable limit) step

/-- The times of the records of a chunk. -/
def Chunk.times : Chunk → List Naive
  | .acs rows => rows.filterMap fun row => row.datetime
  | .checkins rows => rows.filterMap fun row => row.datetime
  | .rejects rows => rows.filterMap fun row => row.datetime

section Records

variable {ctx : TransformContext} {mayFault : Prop} {limit : Instant}

theorem inRange_of_instantOf {naiveLocal : Naive} {instant : Instant} (h : instantOf ctx naiveLocal = .ok (some instant)) :
    InRange ctx.now instant := by
  rw [instantOf] at h
  split at h
  · cases h
  · next found _ =>
    by_cases hrange : earliest ≤ found.microseconds ∧ found.microseconds ≤ ctx.now.microseconds + future
    · rw [if_pos hrange] at h
      cases h
      exact hrange
    · rw [if_neg hrange] at h
      cases h

/-- A guarded record with a time runs where its step runs at every instant in the range. -/
theorem guarded_runs (hlimit : ctx.now.microseconds ≤ limit.microseconds) {barcode : Text} {naiveLocal : Naive}
    {step : Instant → CacheStep} (hfault : ctx.toUtc naiveLocal = none → mayFault)
    (hstep : ∀ instant, InRange limit instant →
      Builds limit mayFault (step instant)) :
    Builds limit mayFault
      (guarded ctx barcode (timed ctx naiveLocal step)) := by
  intro cache hcache
  rw [guarded]
  split
  · exact Or.inr ⟨[], _, rfl, List.forall_mem_nil _, hcache.stage _ _ _ _ _⟩
  · rw [timed]
    cases hinstant : instantOf ctx naiveLocal with
    | error fault =>
        refine Or.inl ⟨hfault ?_, fault, rfl⟩
        rw [instantOf] at hinstant
        split at hinstant
        · assumption
        · cases hinstant
    | ok found =>
        cases found with
        | none => exact Or.inr ⟨[], cache, rfl, List.forall_mem_nil _, hcache⟩
        | some instant => exact hstep instant ((inRange_of_instantOf hinstant).mono hlimit) cache hcache

/-- A built event that changes the cache in a usable way. -/
theorem emit_runs {α : Type} {built : Except BuildError α} {event : α → SafeEvent} {change : PatronCache → PatronCache}
    {cache : PatronCache} (hbuilt : ∃ value, built = .ok value)
    (hsend : ∀ value, built = .ok value → Sendable limit (event value))
    (hchange : LedgerUsable limit (change cache)) :
    (mayFault ∧ ∃ fault, emit built event change cache = .error fault)
      ∨ ∃ emitted next, emit built event change cache = .ok (emitted, next)
        ∧ (∀ item ∈ emitted, Sendable limit item) ∧ LedgerUsable limit next := by
  obtain ⟨value, rfl⟩ := hbuilt
  exact Or.inr ⟨[event value], change cache, rfl, fun item hitem => List.mem_singleton.1 hitem ▸ hsend value rfl, hchange⟩

theorem correct_runs (hctx : ctx.Configured) {row : HoldRow} (hrow : Usable limit row) (outcome : HoldFlags) :
    Builds limit mayFault (correct ctx outcome row) := by
  intro cache hcache
  rw [correct]
  split
  · exact Or.inr ⟨[], cache, rfl, List.forall_mem_nil _, hcache⟩
  · obtain ⟨instant, hrange, hstamp⟩ := hrow.time
    have hparse : parseStamp row.eventTime = .ok instant.wholeSecond := by
      rw [parseStamp, hstamp, parseInstant_formatTime]
    rw [hparse]
    dsimp only
    apply emit_runs
    · exact exists_buildHold ctx.keys _ _ hrow.itemKey hrow.destination hctx.rulesetId
    · exact fun value hvalue => sendable_acsItem hvalue hrange.wholeSecond
    · exact hcache.holdPut ⟨hrow.itemKey, hrow.destination, instant, hrange, hstamp⟩

theorem corrections_runs (hctx : ctx.Configured) (patronPk : Digest) (outcome : HoldFlags) :
    Builds limit mayFault (corrections ctx patronPk outcome) := by
  intro cache hcache
  refine Step.Runs.forEach (fun row hrow => ?_) cache hcache
  exact correct_runs hctx (hcache.holdGet (cache.mem_holdsForPatron.1 hrow).1) outcome

theorem applyProfile_runs (hctx : ctx.Configured) (profile : Digest × PatronInfo) :
    Builds limit mayFault (applyProfile ctx profile) := by
  have hstaged : Builds limit mayFault
      (Step.silent fun cache : PatronCache => cache.stage profile.1 profile.2.nameK profile.2.typeIll profile.2.nameIll true :
        CacheStep) := Step.Runs.silent fun cache h => h.stage _ _ _ _ _
  intro cache hcache
  rw [applyProfile]
  split
  · exact (corrections_runs hctx profile.1 _).andThen hstaged cache hcache
  · exact hstaged cache hcache

theorem applySighting_runs (entry : AcsEntry) :
    Builds limit mayFault (applySighting ctx entry) := by
  apply Step.Runs.silent
  intro cache hcache
  split
  · exact hcache.stage _ _ _ _ _
  · exact hcache

theorem TransformContext.Configured.slug (hctx : ctx.Configured) (raw : Text) :
    isDestinationSlug (Normalize.normalizeDestination raw ctx.rules) = true := by
  obtain ⟨document, hdocument⟩ := hctx.rules
  exact isDestinationSlug_normalizeDestination (isDestinationSlug_of_compileRules ctx.keys hdocument) raw

theorem applyHold_runs (hctx : ctx.Configured) (entry : AcsEntry) {key : Text} (hkey : isHexKey key = true) {instant : Instant}
    (hrange : InRange limit instant) :
    Builds limit mayFault (applyHold ctx entry key instant) := by
  intro cache hcache
  rw [applyHold]
  apply emit_runs
  · exact exists_buildHold ctx.keys _ _ hkey (hctx.slug _) hctx.rulesetId
  · exact fun value hvalue => sendable_acsItem hvalue hrange
  · split
    · split
      · exact hcache.holdPut ⟨hkey, hctx.slug _, instant, hrange, rfl⟩
      · exact hcache
    · split
      · exact hcache.holdDelete key
      · exact hcache

theorem applyNonHold_runs {state : AcsState} (hstate : state ≠ .hold) {key : Text} (hkey : isHexKey key = true) {instant : Instant}
    (hrange : InRange limit instant) :
    Builds limit mayFault (applyNonHold ctx state key instant) := by
  intro cache hcache
  apply emit_runs
  · exact exists_buildNonHold ctx.keys _ hkey hstate
  · exact fun value hvalue => sendable_acsItem hvalue hrange
  · split
    · exact hcache.holdDelete key
    · exact hcache

theorem applyItem_runs (hctx : ctx.Configured) (hlimit : ctx.now.microseconds ≤ limit.microseconds) {entry : AcsEntry}
    (hfault : ctx.toUtc entry.time = none → mayFault) : Builds limit mayFault (applyItem ctx entry) := by
  rw [applyItem]
  split
  · exact Step.Runs.silent fun _ h => h
  · apply guarded_runs hlimit hfault
    intro instant hrange
    dsimp only
    split
    · exact applyHold_runs hctx entry (Digest.valid _) hrange
    · next hstate => exact applyNonHold_runs hstate (Digest.valid _) hrange

theorem all_itemKey? (barcode : Text) : (itemKey? ctx barcode).all isHexKey = true := by
  rw [itemKey?]
  split
  · rfl
  · exact Digest.valid _

theorem applyCheckin_runs (hctx : ctx.Configured) (hlimit : ctx.now.microseconds ≤ limit.microseconds) {row : Checkins.Row}
    (hfault : ∀ time, row.datetime = some time → ctx.toUtc time = none → mayFault) :
    Builds limit mayFault (applyCheckin ctx row) := by
  rw [applyCheckin]
  split
  · exact Step.Runs.silent fun _ h => h
  · next time htime =>
    apply guarded_runs hlimit (hfault time htime)
    intro instant hrange cache hcache
    apply emit_runs
    · exact exists_buildCheckin ctx.keys _ (all_itemKey? _) (hctx.slug _) (isBin_normalizeBin _)
    · exact fun value hvalue => sendable_checkin hvalue hrange
    · exact hcache

theorem applyReject_runs (hlimit : ctx.now.microseconds ≤ limit.microseconds) {row : Rejects.Row}
    (hfault : ∀ time, row.datetime = some time → ctx.toUtc time = none → mayFault) : Builds limit mayFault (applyReject ctx row) := by
  rw [applyReject]
  split
  · exact Step.Runs.silent fun _ h => h
  · next time htime =>
    apply guarded_runs hlimit (hfault time htime)
    intro instant hrange cache hcache
    apply emit_runs
    · exact exists_buildReject ctx.keys _ (all_itemKey? _) _
    · exact fun value hvalue => sendable_reject hvalue hrange
    · exact hcache

/-- A chunk is transformed, unless a time of it has no conversion: its events are in the range, and the ledger stays usable. -/
theorem transformChunk_runs (hctx : ctx.Configured) (hlimit : ctx.now.microseconds ≤ limit.microseconds) (chunk : Chunk) :
    Builds limit (∃ time ∈ chunk.times, ctx.toUtc time = none) (transformChunk ctx chunk) := by
  cases chunk with
  | acs rows =>
      refine (Step.Runs.forEach fun profile _ => applyProfile_runs hctx profile).andThen
        ((Step.Runs.forEach fun entry _ => applySighting_runs entry).andThen (Step.Runs.forEach fun entry hentry => ?_))
      apply applyItem_runs hctx hlimit
      intro hnone
      obtain ⟨row, hrow, hmap⟩ := List.mem_filterMap.1 hentry
      obtain ⟨time, htime, rfl⟩ := Option.map_eq_some_iff.1 hmap
      exact ⟨time, List.mem_filterMap.2 ⟨row, hrow, htime⟩, hnone⟩
  | checkins rows =>
      refine Step.Runs.forEach fun row hrow => applyCheckin_runs hctx hlimit ?_
      intro time htime hnone
      exact ⟨time, List.mem_filterMap.2 ⟨row, hrow, htime⟩, hnone⟩
  | rejects rows =>
      refine Step.Runs.forEach fun row hrow => applyReject_runs hlimit ?_
      intro time htime hnone
      exact ⟨time, List.mem_filterMap.2 ⟨row, hrow, htime⟩, hnone⟩

end Records

end Transform

end SortView
