import SortView.Agent.Parser
import SortView.Collector.Classify
import SortView.Collector.Normalize
import SortView.Lib.Emitting

/-!
# The transformation layer (`collector/v2_transform.py`)

The parsed rows of one chunk become safe events, and the patron cache is changed on the way. The counters are left out.
-/

namespace SortView

open PyText Calendar Emitting

namespace Transform

/-- Why a chunk is not transformed: a time that no zone conversion or stamp gives, or an event that is not safe. -/
inductive TransformError where
  | unusableTime
  | unsafeEvent (error : BuildError)

/-- What a chunk is transformed with, the cache apart. `toUtc` is the conversion of the configured zone, none where it
overflows. -/
structure TransformContext where
  keys : SubKeys
  rules : Rules
  rulesetId : Text
  isWord : Char → Bool
  toUtc : Naive → Option Instant
  now : Instant

/-- A step of a transform: it may change the cache and emit events. -/
abbrev CacheStep := Step PatronCache TransformError SafeEvent

variable (ctx : TransformContext)

/-! ### Times and cards -/

/-- The start of the year 2000. -/
def earliest : Nat := daysBefore 1999 * 86400 * 1000000

/-- One day. The clock is read before the last day of the calendar. -/
def future : Nat := 86400 * 1000000

/-- `_instant`: none for a time outside the range. -/
def instantOf (naiveLocal : Naive) : Except TransformError (Option Instant) :=
  match ctx.toUtc naiveLocal with
  | none => .error .unusableTime
  | some instant =>
      .ok (if earliest ≤ instant.microseconds ∧ instant.microseconds ≤ ctx.now.microseconds + future then some instant else none)

/-- `_parse_stamp`, of the stamps that `format_time` writes. -/
def parseStamp (stamp : Text) : Except TransformError Instant :=
  match parseInstant stamp with
  | none => .error .unusableTime
  | some instant => .ok instant

/-- `cache.stage(pk)`. -/
def sight (pk : Digest) (cache : PatronCache) : PatronCache := cache.stage pk none false false false

/-- `_guarded_card`. -/
def guardedCard (barcode : Text) (cache : PatronCache) : Bool := barcode ≠ [] && cache.contains (patronIdHmac ctx.keys barcode)

/-- A record whose barcode passes the guard, the card of a known patron being only sighted. -/
def guarded (barcode : Text) (step : CacheStep) : CacheStep := fun cache =>
  if guardedCard ctx barcode cache then .ok ([], sight (patronIdHmac ctx.keys barcode) cache) else step cache

/-- A record whose time is in the range. -/
def timed (naiveLocal : Naive) (step : Instant → CacheStep) : CacheStep := fun cache =>
  match instantOf ctx naiveLocal with
  | .error fault => .error fault
  | .ok none => .ok ([], cache)
  | .ok (some instant) => step instant cache

/-- A built event, and what its record does to the cache. -/
def emit {α : Type} (built : Except BuildError α) (event : α → SafeEvent) (change : PatronCache → PatronCache)
    (cache : PatronCache) : Except TransformError (List SafeEvent × PatronCache) :=
  match built with
  | .error error => .error (.unsafeEvent error)
  | .ok value => .ok ([event value], change cache)

/-! ### ACS -/

/-- A row with a usable time. -/
structure AcsEntry where
  time : Naive
  messageCode : Text
  barcode : Text
  patronId : Text
  destination : Option Text
  rawMessage : Text

def acsEntry (row : Acs.Row) : Option AcsEntry :=
  row.datetime.map fun time =>
    ⟨time, strip row.messageCode, strip (row.barcode.getD []), strip (row.patronId.getD []), row.destination, row.rawMessage⟩

def acsEntries (rows : List Acs.Row) : List AcsEntry := rows.filterMap acsEntry

/-- The fields of a hold event. -/
def holdFields (destination : Text) (flags : HoldFlags) : HoldFields :=
  ⟨some destination, some flags.isIll, some flags.isBranchServices, some flags.isCollectionServices⟩

/-- The correction of one hold of the ledger, where its flags change. -/
def correct (outcome : HoldFlags) (row : HoldRow) : CacheStep := fun cache =>
  let flags := Classify.combine row.static outcome
  if flags = row.flags then .ok ([], cache)
  else match parseStamp row.eventTime with
    | .error fault => .error fault
    | .ok time =>
        emit (buildAcsItem ctx.keys time row.itemKey .hold (holdFields row.destination flags) (some ctx.rulesetId) (row.revision + 1))
          .acsItem (fun cache => cache.holdPut { row with flags := flags, revision := row.revision + 1 }) cache

/-- `_corrections`. -/
def corrections (patronPk : Digest) (outcome : HoldFlags) : CacheStep := fun cache =>
  Step.forEach (correct ctx outcome) (cache.holdsForPatron patronPk) cache

/-- The profile of one message-64 record. -/
def profileOf (entry : AcsEntry) : PatronInfo :=
  let profile := Classify.patronProfile entry.rawMessage
  { nameK := if profile.1 = [] then none else some (nameHmac ctx.keys profile.1)
    typeIll := Classify.typeIsIll profile.2
    nameIll := Classify.nameIsIllLike ctx.isWord profile.1 }

/-- `profiles`: the latest message-64 record of each patron, by time. -/
def profiles (entries : List AcsEntry) : Dict Digest PatronInfo :=
  ((entries.filter fun entry => entry.messageCode = "64".toList && entry.patronId ≠ []).mergeSort fun first second =>
    decide (first.time ≤ second.time)).foldl
    (fun profiles entry => profiles.set (patronIdHmac ctx.keys entry.patronId) (profileOf ctx entry)) Dict.empty

/-- One profile: the corrections it makes, and its staging. -/
def applyProfile (profile : Digest × PatronInfo) : CacheStep := fun cache =>
  let after := profileOutcome (some profile.2) ctx.rules
  let staged := Step.silent fun cache : PatronCache => cache.stage profile.1 profile.2.nameK profile.2.typeIll profile.2.nameIll true
  if profileOutcome (cache.lookup profile.1) ctx.rules ≠ after then (Step.andThen (corrections ctx profile.1 after) staged) cache
  else staged cache

/-- The sighting of a patron in a record that is no profile. -/
def applySighting (entry : AcsEntry) : CacheStep :=
  Step.silent fun cache =>
    if entry.messageCode ≠ "64".toList ∧ entry.patronId ≠ [] then sight (patronIdHmac ctx.keys entry.patronId) cache else cache

/-- The revision of a hold: an earlier one of its second is kept, or moved on if its flags did. -/
def revisionOf (stamp : Text) (flags : HoldFlags) : Option HoldRow → Nat
  | none => 0
  | some existing =>
      if existing.eventTime = stamp then if existing.flags = flags then existing.revision else existing.revision + 1 else 0

/-- A hold, and what the ledger keeps of it. -/
def applyHold (entry : AcsEntry) (itemKey : Text) (instant : Instant) : CacheStep := fun cache =>
  let stamp := formatTime instant
  let existing := cache.holdGet itemKey
  let patronPk := if entry.patronId = [] then none else some (patronIdHmac ctx.keys entry.patronId)
  let static := Classify.staticFlags ctx.isWord entry.rawMessage entry.destination ctx.rules
  let flags := Classify.combine static (profileOutcome (patronPk.bind cache.lookup) ctx.rules)
  let slug := Normalize.normalizeDestination (entry.destination.getD []) ctx.rules
  let revision := revisionOf stamp flags existing
  let newest := existing.all fun row => textLe row.eventTime stamp
  emit (buildAcsItem ctx.keys instant itemKey .hold (holdFields slug flags) (some ctx.rulesetId) revision) .acsItem
    (fun cache =>
      match patronPk with
      | some patronPk => if newest then cache.holdPut ⟨itemKey, stamp, patronPk, slug, static, flags, revision⟩ else cache
      | none => if existing.isSome && newest then cache.holdDelete itemKey else cache) cache

/-- Whether a record that is no hold takes the item's hold out of the ledger. -/
def retracts (state : AcsState) (stamp : Text) (existing : HoldRow) : Bool :=
  (state = .nonHold101 && textLe existing.eventTime stamp) || (state = .otherCode10 && stamp = existing.eventTime)

def applyNonHold (state : AcsState) (itemKey : Text) (instant : Instant) : CacheStep := fun cache =>
  emit (buildAcsItem ctx.keys instant itemKey state .none none 0) .acsItem
    (fun cache =>
      if (cache.holdGet itemKey).any (retracts state (formatTime instant)) then cache.holdDelete itemKey else cache) cache

/-- Pass 2 for one record. -/
def applyItem (entry : AcsEntry) : CacheStep :=
  if entry.messageCode ≠ "10".toList ∨ entry.barcode = [] then Step.silent id
  else guarded ctx entry.barcode (timed ctx entry.time fun instant =>
    let itemKey := (itemKey ctx.keys entry.barcode).hex
    let state := Classify.itemState entry.rawMessage
    if state = .hold then applyHold ctx entry itemKey instant else applyNonHold ctx state itemKey instant)

/-- `_transform_acs`. -/
def transformAcs (rows : List Acs.Row) : CacheStep :=
  (Step.forEach (applyProfile ctx) (profiles ctx (acsEntries rows)).entries).andThen
    ((Step.forEach (applySighting ctx) (acsEntries rows)).andThen (Step.forEach (applyItem ctx) (acsEntries rows)))

/-! ### Check-ins and rejects -/

/-- `item_key(keys, barcode) if barcode else None`. -/
def itemKey? (barcode : Text) : Option Text := if barcode = [] then none else some (itemKey ctx.keys barcode).hex

def applyCheckin (row : Checkins.Row) : CacheStep :=
  match row.datetime with
  | none => Step.silent id
  | some time =>
      guarded ctx (strip row.barcode) (timed ctx time fun instant =>
        emit (buildCheckin ctx.keys instant (itemKey? ctx (strip row.barcode))
          (Normalize.normalizeDestination row.destination ctx.rules) (Normalize.normalizeBin row.bin)) .checkin id)

/-- `_transform_checkins`. -/
def transformCheckins (rows : List Checkins.Row) : CacheStep := Step.forEach (applyCheckin ctx) rows

def applyReject (row : Rejects.Row) : CacheStep :=
  match row.datetime with
  | none => Step.silent id
  | some time =>
      guarded ctx (strip row.barcode) (timed ctx time fun instant =>
        emit (buildReject ctx.keys instant (itemKey? ctx (strip row.barcode)) (Normalize.classifyReject row.errorMessage)) .reject id)

/-- `_transform_rejects`. -/
def transformRejects (rows : List Rejects.Row) : CacheStep := Step.forEach (applyReject ctx) rows

/-- The parsed rows of a chunk of one source. -/
inductive Chunk where
  | acs (rows : List Acs.Row)
  | checkins (rows : List Checkins.Row)
  | rejects (rows : List Rejects.Row)

/-- `transform_lines`, of what was parsed. -/
def transformChunk : Chunk → CacheStep
  | .acs rows => transformAcs ctx rows
  | .checkins rows => transformCheckins ctx rows
  | .rejects rows => transformRejects ctx rows

end Transform

end SortView
