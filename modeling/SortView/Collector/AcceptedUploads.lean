import SortView.Collector.LedgerRows
import SortView.Collector.UploadBatch
import SortView.Services.UploadModels

/-!
# What the collector builds is accepted

The body of every batch of built events is accepted by the request model of the server, and every event is parsed to what was
sent.
-/

namespace SortView

open PyText Calendar Emitting UploadModels

namespace Transform

/-! ### What is sent -/

def sentCheckin (event : CheckinV2) : CheckinEvent :=
  ⟨event.eventKey, event.eventTime.wholeSecond, event.itemKey, event.destination, event.bin⟩

def sentReject (event : RejectV2) : RejectEvent := ⟨event.eventKey, event.eventTime.wholeSecond, event.errorClass, event.itemKey⟩

/-- The same second, item, state and, of a hold, destination and flags. -/
def sentAcsItem (event : AcsItemV2) : AcsItemEvent :=
  match event.state with
  | .hold => .hold event.eventKey event.eventTime.wholeSecond event.itemKey (event.fields.destination.getD [])
      (event.fields.isIll.getD false) (event.fields.isBranchServices.getD false) (event.fields.isCollectionServices.getD false)
      event.rulesetId
  | .nonHold101 => .nonHold .nonHold101 event.eventKey event.eventTime.wholeSecond event.itemKey
  | .otherCode10 => .nonHold .otherCode10 event.eventKey event.eventTime.wholeSecond event.itemKey

/-- The request that a batch of events is parsed to: each list in its order. -/
def sentRequest (keyId : Text) (events : List SafeEvent) : UploadV2Request where
  keyId := keyId
  checkins := events.filterMap fun event => match event with
    | .checkin event => some (sentCheckin event)
    | _ => none
  rejects := events.filterMap fun event => match event with
    | .reject event => some (sentReject event)
    | _ => none
  acsItems := events.filterMap fun event => match event with
    | .acsItem event => some (sentAcsItem event)
    | _ => none

/-! ### One event -/

section Events

variable {limit now : Instant}

theorem awareTimestamp_formatTime {time : Instant} (htime : InRange limit time.wholeSecond)
    (hnow : limit.microseconds ≤ now.microseconds) : awareTimestamp now (.text (formatTime time)) = some time.wholeSecond := by
  rw [awareTimestamp, Json.text?, Option.bind_some, parseOffsetTimestamp, parseInstant_formatTime, Option.filter_some, if_pos]
  rw [acceptedInstant, decide_eq_true (show earliestMicroseconds ≤ time.wholeSecond.microseconds from htime.1), Bool.true_and]
  exact decide_eq_true (htime.2.trans (Nat.add_le_add_right hnow _))

theorem patterned_text {pattern : Text → Bool} {text : Text} (h : pattern text = true) :
    patterned pattern (.text text) = some text := by
  rw [patterned, Json.text?, Option.filter_some, if_pos h]

/-- The members of an object, each name once. -/
structure HasNames (items : List (Text × Json)) (names : List Text) : Prop where
  keys : items.map Prod.fst = names
  nodup : names.Nodup

namespace HasNames

variable {items : List (Text × Json)} {names : List Text} (h : HasNames items names)

include h

theorem allowed {allowed : List Text} (hallowed : names.all allowed.contains = true) : onlyFields allowed items = true := by
  rw [onlyFields, ← hallowed, ← h.keys, List.all_map]
  rfl

theorem allowed_given {allowed : List Text} {name : Text} (hallowed : (name :: names).all allowed.contains = true)
    (value : Option Text) : onlyFields allowed (items ++ givenText name value) = true := by
  rw [List.all_cons, Bool.and_eq_true] at hallowed
  have hgiven : (givenText name value).all (fun item => allowed.contains item.1) = true := by
    cases value with
    | none => rfl
    | some value => exact (Bool.and_true _).trans hallowed.1
  rw [onlyFields, List.all_append, hgiven, Bool.and_true]
  exact h.allowed hallowed.2

theorem lookup {name : Text} {value : Json} (hmem : (name, value) ∈ items) : items.lookup name = some value := by
  have hnodup : (items.map Prod.fst).Nodup := h.keys ▸ h.nodup
  clear h
  induction items with
  | nil => cases hmem
  | cons item items ih =>
      rw [List.map_cons, List.nodup_cons] at hnodup
      rcases List.mem_cons.1 hmem with rfl | hmem
      · exact List.lookup_cons_self
      · have hne : name ≠ item.1 := fun heq => hnodup.1 (heq ▸ List.mem_map_of_mem hmem)
        rw [List.lookup_cons, beq_eq_false_iff_ne.2 hne]
        exact ih hmem hnodup.2

/-- A member is read, whatever follows. -/
theorem reads {α : Type} {name : Text} {value : Json} (hmem : (name, value) ∈ items) (read : Json → Option α)
    (more : List (Text × Json)) : required (items ++ more) name read = read value := by
  rw [required, List.lookup_append, h.lookup hmem, Option.some_or, Option.bind_some]

/-- A text that is given where there is one. -/
theorem reads_given {name : Text} (hname : name ∉ names) {value : Option Text} {pattern : Text → Bool}
    (hvalue : value.all pattern = true) : UploadModels.optional (items ++ givenText name value) name (patterned pattern) = some value := by
  have hnone : items.lookup name = none := by
    refine List.lookup_eq_none_iff.2 fun item hitem => bne_iff_ne.2 fun heq => hname ?_
    rw [← h.keys, heq]
    exact List.mem_map_of_mem hitem
  rw [UploadModels.optional, List.lookup_append, hnone, Option.none_or]
  cases value with
  | none => rfl
  | some value =>
      rw [givenText, List.lookup_cons_self]
      exact congrArg (Option.map some) (patterned_text hvalue)

end HasNames

theorem checkinEvent_payload {event : CheckinV2} (htime : Sendable limit (.checkin event))
    (hnow : limit.microseconds ≤ now.microseconds) : checkinEvent now event.payload = some (sentCheckin event) := by
  have hchecks := firstUnsafe_eq_none.1 event.safe
  simp only [checkinChecks, List.forall_mem_cons] at hchecks
  obtain ⟨hkey, hitem, hdestination, hbin, -⟩ := hchecks
  have hstamp : awareTimestamp now (.text (formatTime event.eventTime)) = some event.eventTime.wholeSecond :=
    awareTimestamp_formatTime htime hnow
  have hnames : HasNames [("event_key".toList, .text event.eventKey), ("event_time".toList, .text (formatTime event.eventTime)),
      ("destination".toList, .text event.destination), ("bin".toList, .text event.bin)]
      ["event_key".toList, "event_time".toList, "destination".toList, "bin".toList] := ⟨rfl, by decide +kernel⟩
  have hitemName : "item_key".toList ∉ ["event_key".toList, "event_time".toList, "destination".toList, "bin".toList] := by
    decide +kernel
  rw [CheckinV2.payload, checkinEvent, Json.items?, Option.filter_some, if_pos (hnames.allowed_given (by decide +kernel) _)]
  simp only [Option.bind_eq_bind, Option.bind_some, hnames.reads (.head _), hnames.reads (.tail _ (.head _)),
    hnames.reads (.tail _ (.tail _ (.head _))), hnames.reads (.tail _ (.tail _ (.tail _ (.head _)))),
    hnames.reads_given hitemName hitem, patterned_text hkey, hstamp, patterned_text hdestination, patterned_text hbin]
  rfl

theorem rejectEvent_payload {event : RejectV2} (htime : Sendable limit (.reject event))
    (hnow : limit.microseconds ≤ now.microseconds) : rejectEvent now event.payload = some (sentReject event) := by
  have hchecks := firstUnsafe_eq_none.1 event.safe
  simp only [rejectChecks, List.forall_mem_cons] at hchecks
  obtain ⟨hkey, hitem, -⟩ := hchecks
  have hstamp : awareTimestamp now (.text (formatTime event.eventTime)) = some event.eventTime.wholeSecond :=
    awareTimestamp_formatTime htime hnow
  have hclass : errorClass (.text event.errorClass.text) = some event.errorClass := by
    cases event.errorClass <;> rfl
  have hnames : HasNames [("event_key".toList, .text event.eventKey), ("event_time".toList, .text (formatTime event.eventTime)),
      ("error_class".toList, .text event.errorClass.text)] ["event_key".toList, "event_time".toList, "error_class".toList] :=
    ⟨rfl, by decide +kernel⟩
  have hitemName : "item_key".toList ∉ ["event_key".toList, "event_time".toList, "error_class".toList] := by decide +kernel
  rw [RejectV2.payload, rejectEvent, Json.items?, Option.filter_some, if_pos (hnames.allowed_given (by decide +kernel) _)]
  simp only [Option.bind_eq_bind, Option.bind_some, hnames.reads (.head _), hnames.reads (.tail _ (.head _)),
    hnames.reads (.tail _ (.tail _ (.head _))), hnames.reads_given hitemName hitem, patterned_text hkey, hstamp, hclass]
  rfl

/-- The members of a hold that are always there. -/
def holdMembers (eventKey : Text) (eventTime : Instant) (itemKey slug : Text) (ill branch collection : Bool) : List (Text × Json) :=
  [("state".toList, .text AcsState.hold.text), ("event_key".toList, .text eventKey), ("event_time".toList, .text (formatTime eventTime)),
    ("item_key".toList, .text itemKey), ("destination".toList, .text slug), ("is_ill".toList, .bool ill),
    ("is_branch_services".toList, .bool branch), ("is_collection_services".toList, .bool collection)]

def holdNames : List Text :=
  ["state".toList, "event_key".toList, "event_time".toList, "item_key".toList, "destination".toList, "is_ill".toList,
    "is_branch_services".toList, "is_collection_services".toList]

theorem acsItemEvent_payload {event : AcsItemV2} (htime : Sendable limit (.acsItem event))
    (hnow : limit.microseconds ≤ now.microseconds) : acsItemEvent now event.payload = some (sentAcsItem event) := by
  obtain ⟨eventKey, eventTime, itemKey, state, fields, rulesetId, hsafe⟩ := event
  obtain ⟨destination, isIll, isBranchServices, isCollectionServices⟩ := fields
  have hchecks := firstUnsafe_eq_none.1 hsafe
  have hstamp : awareTimestamp now (.text (formatTime eventTime)) = some eventTime.wholeSecond := awareTimestamp_formatTime htime hnow
  have hkey : isHexKey eventKey = true := hchecks ("event_key".toList, isHexKey eventKey) (List.mem_cons_self ..)
  have hitem : isHexKey itemKey = true :=
    hchecks ("item_key".toList, isHexKey itemKey) (List.mem_cons_of_mem _ (List.mem_cons_self ..))
  have hnonHold : ∀ state : NonHoldState, acsNonHoldEvent now state [("state".toList, .text state.state.text),
      ("event_key".toList, .text eventKey), ("event_time".toList, .text (formatTime eventTime)), ("item_key".toList, .text itemKey)]
        = some (.nonHold state eventKey eventTime.wholeSecond itemKey) := by
    intro state
    have hnames : HasNames [("state".toList, .text state.state.text), ("event_key".toList, .text eventKey),
        ("event_time".toList, .text (formatTime eventTime)), ("item_key".toList, .text itemKey)]
        ["state".toList, "event_key".toList, "event_time".toList, "item_key".toList] := ⟨rfl, by decide +kernel⟩
    have hread := fun {α : Type} {name : Text} {value : Json} (hmem : (name, value) ∈ _) (read : Json → Option α) =>
      hnames.reads hmem read []
    simp only [List.append_nil] at hread
    rw [acsNonHoldEvent, Option.filter_some, if_pos (hnames.allowed (by decide +kernel))]
    simp only [Option.bind_eq_bind, Option.bind_some, hread (.tail _ (.head _)), hread (.tail _ (.tail _ (.head _))),
      hread (.tail _ (.tail _ (.tail _ (.head _)))), patterned_text hkey, hstamp, patterned_text hitem]
    rfl
  cases state with
  | nonHold101 => exact hnonHold .nonHold101
  | otherCode10 => exact hnonHold .otherCode10
  | hold =>
      have hdestination : destination.any isDestinationSlug = true :=
        hchecks ("destination".toList, destination.any isDestinationSlug) (by simp [acsItemChecks])
      have hflags : (isIll.isSome && isBranchServices.isSome && isCollectionServices.isSome) = true :=
        hchecks ("flags".toList, isIll.isSome && isBranchServices.isSome && isCollectionServices.isSome) (by simp [acsItemChecks])
      have hruleset : rulesetId.all isUuid4 = true :=
        hchecks ("ruleset_id".toList, rulesetId.all isUuid4) (by simp [acsItemChecks])
      rw [Bool.and_eq_true, Bool.and_eq_true, Option.isSome_iff_exists, Option.isSome_iff_exists, Option.isSome_iff_exists] at hflags
      obtain ⟨⟨⟨ill, rfl⟩, ⟨branch, rfl⟩⟩, ⟨collection, rfl⟩⟩ := hflags
      cases destination with
      | none => cases hdestination
      | some slug =>
          have hslug : isDestinationSlug slug = true := hdestination
          have hnames : HasNames (holdMembers eventKey eventTime itemKey slug ill branch collection) holdNames := ⟨rfl, by decide +kernel⟩
          have hrulesetName : "ruleset_id".toList ∉ holdNames := by decide +kernel
          have hread := fun {α : Type} {name : Text} {value : Json} (hmem : (name, value) ∈ _) (read : Json → Option α) =>
            hnames.reads hmem read (givenText "ruleset_id".toList rulesetId)
          have hhold : acsHoldEvent now
              (holdMembers eventKey eventTime itemKey slug ill branch collection ++ givenText "ruleset_id".toList rulesetId)
                = some (.hold eventKey eventTime.wholeSecond itemKey slug ill branch collection rulesetId) := by
            rw [acsHoldEvent, Option.filter_some, if_pos (hnames.allowed_given (by decide +kernel) rulesetId)]
            simp only [Option.bind_eq_bind, Option.bind_some, hread (.tail _ (.head _)), hread (.tail _ (.tail _ (.head _))),
              hread (.tail _ (.tail _ (.tail _ (.head _)))), hread (.tail _ (.tail _ (.tail _ (.tail _ (.head _))))),
              hread (.tail _ (.tail _ (.tail _ (.tail _ (.tail _ (.head _)))))),
              hread (.tail _ (.tail _ (.tail _ (.tail _ (.tail _ (.tail _ (.head _))))))),
              hread (.tail _ (.tail _ (.tail _ (.tail _ (.tail _ (.tail _ (.tail _ (.head _)))))))),
              hnames.reads_given hrulesetName hruleset, patterned_text hkey, hstamp, patterned_text hitem, patterned_text hslug,
              Json.bool?]
            rfl
          exact hhold

end Events

/-! ### A batch -/

theorem mapM_payload {α : Type} {read : Json → Option α} {sent : SafeEvent → Option α} {kind : Kind} {events : List SafeEvent}
    (hread : ∀ event ∈ events, event.kind = kind → ∃ value, sent event = some value ∧ read event.payload = some value)
    (hother : ∀ event ∈ events, event.kind ≠ kind → sent event = none) :
    ((events.filter fun event => event.kind = kind).map SafeEvent.payload).mapM read = some (events.filterMap sent) := by
  induction events with
  | nil => rfl
  | cons event events ih =>
      have hrest := ih (fun other h => hread other (List.mem_cons_of_mem _ h)) fun other h => hother other (List.mem_cons_of_mem _ h)
      by_cases hkind : event.kind = kind
      · obtain ⟨value, hsent, hvalue⟩ := hread event (List.mem_cons_self ..) hkind
        rw [List.filter_cons, if_pos (decide_eq_true hkind), List.map_cons, List.mapM_cons, hvalue, hrest, List.filterMap_cons,
          hsent]
        rfl
      · rw [List.filter_cons, if_neg (by rw [decide_eq_true_eq]; exact hkind), hrest, List.filterMap_cons,
          hother event (List.mem_cons_self ..) hkind]

/-- A list of the body is read as the events of its kind. -/
theorem boundedList_members {α : Type} {read : Json → Option α} {values : List α} {batch : UploadBatch} (kind : Kind)
    (hlength : (batch.order kind).length ≤ 1000) (hread : ((batch.order kind).map SafeEvent.payload).mapM read = some values) :
    boundedList batch.members kind.text read = some values := by
  rw [boundedList, batch.lookup_members]
  by_cases hempty : (batch.order kind).isEmpty
  · rw [if_pos hempty]
    rw [List.isEmpty_iff.1 hempty] at hread
    exact hread
  · rw [if_neg hempty]
    show ((some ((batch.order kind).map SafeEvent.payload)).filter _).bind _ = _
    rw [Option.filter_some, if_pos (decide_eq_true (by rw [List.length_map]; exact hlength)), Option.bind_some, hread]

theorem onlyFields_members (batch : UploadBatch) :
    onlyFields ["contract_version".toList, "key_id".toList, "checkins".toList, "rejects".toList, "acs_items".toList] batch.members
      = true := by
  rw [onlyFields, UploadBatch.members, List.all_append, List.all_map, Bool.and_eq_true]
  refine ⟨rfl, ?_⟩
  rw [List.all_eq_true]
  intro kind _
  cases kind <;> rfl

theorem length_sentRequest (keyId : Text) (events : List SafeEvent) :
    (sentRequest keyId events).checkins.length + (sentRequest keyId events).rejects.length
      + (sentRequest keyId events).acsItems.length = events.length := by
  induction events with
  | nil => rfl
  | cons event events ih =>
      simp only [sentRequest] at ih ⊢
      cases event <;> simp only [List.filterMap_cons, List.length_cons] <;> omega

/-- The body of a batch of events in the range is accepted, and parsed to what was sent. -/
theorem uploadV2Request_payload {limit now : Instant} {keyId : Text} {events : List SafeEvent} (hkeyId : isUuid4 keyId = true)
    (hevents : ∀ event ∈ events, Sendable limit event) (hlength : events.length ≤ 1000)
    (hnow : limit.microseconds ≤ now.microseconds) :
    uploadV2Request now (UploadBatch.of keyId events).payload = some (sentRequest keyId events) := by
  have hshort : ∀ kind, ((UploadBatch.of keyId events).order kind).length ≤ 1000 := fun kind =>
    (List.length_filter_le _ _).trans hlength
  have hcheckins : boundedList (UploadBatch.of keyId events).members "checkins".toList (checkinEvent now)
      = some (sentRequest keyId events).checkins := by
    apply boundedList_members .checkins (hshort .checkins)
    apply mapM_payload
    · intro event hevent hkind
      cases event with
      | checkin event => exact ⟨_, rfl, checkinEvent_payload (hevents _ hevent) hnow⟩
      | reject event => cases hkind
      | acsItem event => cases hkind
    · intro event hevent hkind
      cases event with
      | checkin event => exact absurd rfl hkind
      | reject event => rfl
      | acsItem event => rfl
  have hrejects : boundedList (UploadBatch.of keyId events).members "rejects".toList (rejectEvent now)
      = some (sentRequest keyId events).rejects := by
    apply boundedList_members .rejects (hshort .rejects)
    apply mapM_payload
    · intro event hevent hkind
      cases event with
      | checkin event => cases hkind
      | reject event => exact ⟨_, rfl, rejectEvent_payload (hevents _ hevent) hnow⟩
      | acsItem event => cases hkind
    · intro event hevent hkind
      cases event with
      | checkin event => rfl
      | reject event => exact absurd rfl hkind
      | acsItem event => rfl
  have hitems : boundedList (UploadBatch.of keyId events).members "acs_items".toList (acsItemEvent now)
      = some (sentRequest keyId events).acsItems := by
    apply boundedList_members .acsItems (hshort .acsItems)
    apply mapM_payload
    · intro event hevent hkind
      cases event with
      | checkin event => cases hkind
      | reject event => cases hkind
      | acsItem event => exact ⟨_, rfl, acsItemEvent_payload (hevents _ hevent) hnow⟩
    · intro event hevent hkind
      cases event with
      | checkin event => rfl
      | reject event => rfl
      | acsItem event => exact absurd rfl hkind
  have hkey : required (UploadBatch.of keyId events).members "key_id".toList (patterned isUuid4) = some keyId := patterned_text hkeyId
  have hversion : required (UploadBatch.of keyId events).members "contract_version".toList contractVersion = some () := rfl
  rw [uploadV2Request, UploadBatch.payload, Json.items?, Option.filter_some, if_pos (onlyFields_members _)]
  simp only [Option.bind_eq_bind, Option.bind_some, hversion, hkey, hcheckins, hrejects, hitems]
  rw [if_pos (by rw [length_sentRequest]; exact hlength)]
  rfl

/-! ### The caches a collector can hold -/

/-- The caches that the collector produces by a time: an empty one, and what chunks transformed no later, commits, discarded
chunks, purges of either table and reopenings make of it. -/
inductive Produced (now : Instant) : PatronCache → Prop
  | opened (readOnly : Bool) (today : Text) : Produced now (.open readOnly today Dict.empty Dict.empty)
  | transformed {cache after : PatronCache} {events : List SafeEvent} (h : Produced now cache) (ctx : TransformContext)
      (hctx : ctx.Configured) (hnow : ctx.now.microseconds ≤ now.microseconds) (chunk : Chunk)
      (hrun : transformChunk ctx chunk cache = .ok (events, after)) : Produced now after
  | committed {cache : PatronCache} (h : Produced now cache) : Produced now cache.commit
  | discarded {cache : PatronCache} (h : Produced now cache) : Produced now cache.discard
  | purged {cache : PatronCache} (h : Produced now cache) (keepPatron : Digest × PatronColumns → Bool)
      (keepHold : Text × HoldColumns → Bool) :
      Produced now { cache with patrons := cache.patrons.filter keepPatron, holds := cache.holds.filter keepHold }
  | reopened {cache : PatronCache} (h : Produced now cache) (readOnly : Bool) (today : Text) :
      Produced now { cache.discard with readOnly := readOnly, today := today }

/-- Every row of a ledger that the collector produces is usable. -/
theorem Produced.ledgerUsable {now : Instant} {cache : PatronCache} (h : Produced now cache) : LedgerUsable now cache := by
  induction h with
  | opened readOnly today =>
      constructor
      · intro itemKey columns hcolumns
        cases hcolumns
      · intro itemKey row hrow
        cases hrow
  | transformed h ctx hctx hnow chunk hrun ih => exact ((transformChunk_runs hctx hnow chunk).keeps _ _ _ ih hrun).2
  | committed h ih => exact ih.commit
  | discarded h ih => exact ih.discard
  | @purged cache h keepPatron keepHold ih =>
      refine ⟨?_, ih.staged⟩
      intro itemKey columns hcolumns
      change (cache.holds.filter keepHold).get? itemKey = some columns at hcolumns
      rw [Dict.get?_filter, Option.filter_eq_some_iff] at hcolumns
      exact ih.stored itemKey columns hcolumns.1
  | reopened h readOnly today ih => exact ⟨ih.discard.stored, ih.discard.staged⟩

/-- Where every time has a conversion, a chunk is transformed without a fault, and the body of every batch of its events is
accepted by the server at any later time and parsed to what was sent. -/
theorem built_batches_are_accepted (ctx : TransformContext) (hctx : ctx.Configured) (cache : PatronCache)
    (hcache : Produced ctx.now cache) (chunk : Chunk) (htimes : ∀ time ∈ chunk.times, ctx.toUtc time ≠ none) :
    ∃ events after, transformChunk ctx chunk cache = .ok (events, after)
      ∧ ∀ keyId, isUuid4 keyId = true → ∀ maxEvents ≤ 1000, ∀ batch ⊆ events, batch.length ≤ maxEvents →
        ∀ serverNow : Instant, ctx.now.microseconds ≤ serverNow.microseconds →
          uploadV2Request serverNow (UploadBatch.of keyId batch).payload = some (sentRequest keyId batch) := by
  obtain ⟨events, after, hrun, hevents⟩ := (transformChunk_runs hctx (Nat.le_refl _) chunk).ok
    (fun hnone => by
      obtain ⟨time, htime, hnone⟩ := hnone
      exact htimes time htime hnone) hcache.ledgerUsable
  refine ⟨events, after, hrun, ?_⟩
  intro keyId hkeyId maxEvents hmax batch hbatch hlength serverNow hnow
  exact uploadV2Request_payload hkeyId (fun event hevent => hevents event (hbatch hevent)) (hlength.trans hmax) hnow

def sampleHex : Text := List.replicate 64 'a'

theorem sampleHex_valid : isHexKey sampleHex = true := rfl

theorem patronHex_valid : isHexKey (List.replicate 64 'b') = true := rfl

/-- A digest that tells 42 from every other text. -/
def sampleDigest (text : Text) : Digest :=
  if text = "42".toList then ⟨List.replicate 64 'b', patronHex_valid⟩ else ⟨sampleHex, sampleHex_valid⟩

def sampleKeys : SubKeys := ⟨sampleDigest, sampleDigest, sampleDigest, sampleDigest, sampleDigest⟩

theorem sampleInstant_inRange : 63840000000000000 < maxMicroseconds := by decide

/-- An instant of the year 2024. -/
def sampleInstant : Instant := ⟨63840000000000000, sampleInstant_inRange⟩

def sampleUuid : Text := "00000000-0000-4000-8000-000000000000".toList

def sampleContext : TransformContext where
  keys := sampleKeys
  rules := RulesDocument.compile sampleKeys ⟨[], [], [], [], []⟩
  rulesetId := sampleUuid
  isWord := Char.isAlphanum
  toUtc _ := some sampleInstant
  now := sampleInstant

theorem sampleContext_configured : sampleContext.Configured := ⟨⟨.object [("schema_version".toList, .int 1)], rfl⟩, by decide⟩

/-- A hold of item 7 for patron 42. -/
def holdChunk : Chunk := .acs [⟨some 0, "10".toList, some "7".toList, none, some "42".toList, none, "101YNY".toList⟩]

/-- The profile that makes patron 42 an interlibrary one. -/
def profileChunk : Chunk := .acs [⟨some 0, "64".toList, none, none, some "42".toList, none, "|PTILL".toList⟩]

/-- What a committed chunk leaves of an empty cache. -/
def cacheAfter (chunk : Chunk) : PatronCache :=
  match transformChunk sampleContext chunk (.open false [] Dict.empty Dict.empty) with
  | .ok (_, cache) => cache.commit
  | .error _ => .open false [] Dict.empty Dict.empty

theorem cacheAfter_produced (chunk : Chunk) : Produced sampleContext.now (cacheAfter chunk) := by
  rw [cacheAfter]
  split
  · next events cache hrun => exact .committed (.transformed (.opened false []) sampleContext sampleContext_configured (Nat.le_refl _) chunk hrun)
  · exact .opened false []

/-- The hold is corrected by one event, which is accepted and read back. -/
theorem built_batches_are_accepted_sample : ∃ events after,
    transformChunk sampleContext profileChunk (cacheAfter holdChunk) = .ok (events, after)
      ∧ events.length = 1
      ∧ uploadV2Request sampleInstant (UploadBatch.of sampleUuid events).payload = some (sentRequest sampleUuid events) := by
  obtain ⟨events, after, hrun, haccepted⟩ := built_batches_are_accepted sampleContext sampleContext_configured _
    (cacheAfter_produced holdChunk) profileChunk fun _ _ hnone => by cases hnone
  have hcount : ((transformChunk sampleContext profileChunk (cacheAfter holdChunk)).toOption.map fun result => result.1.length) = some 1 := by
    decide +kernel
  rw [hrun] at hcount
  have hlength : events.length = 1 := Option.some.inj hcount
  exact ⟨events, after, hrun, hlength, haccepted sampleUuid sampleContext_configured.rulesetId 1 (by decide) events
    (List.Subset.refl _) (Nat.le_of_eq hlength) sampleInstant (Nat.le_refl _)⟩

end Transform

end SortView
