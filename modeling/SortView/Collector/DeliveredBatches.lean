import SortView.Collector.Deliver
import SortView.Services.ConflictRounds

/-!
# Conflicts between the collector and the server

The batches of a chunk against a server that stores them: what is stored and what is handed to the quarantine in the end.
-/

namespace SortView

open PyText Calendar Removal Slices Transform FirstWriter

/-- The positions of one list. -/
def ConflictPositions.of (conflicts : ConflictPositions) : Kind → List Nat
  | .checkins => conflicts.checkins
  | .rejects => conflicts.rejects
  | .acsItems => conflicts.acsItems

def StoreCounts.of (counts : StoreCounts) : Kind → KindCounts
  | .checkins => counts.checkins
  | .rejects => counts.rejects
  | .acsItems => counts.acsItems

/-- The three lists of a request. -/
def UploadModels.UploadV2Request.lists (request : UploadModels.UploadV2Request) : EventLists := ⟨request.checkins, request.rejects, request.acsItems⟩

namespace Delivery

/-! ### The server -/

/-- The members of `conflicts`: a list without any is left out. -/
def conflictItems (conflicts : ConflictPositions) : List (Text × Json) :=
  (kinds.filter fun kind => conflicts.of kind ≠ []).map fun kind =>
    (kind.text, .array ((conflicts.of kind).map fun position : Nat => Json.int position))

/-- The body of a 409. -/
def conflictBody (conflicts : ConflictPositions) : Json :=
  .object [("code".toList, .text "event_conflict".toList),
    ("detail".toList, .text "An event identity arrived with different content; nothing was stored".toList),
    ("conflicts".toList, .object (conflictItems conflicts))]

/-- The body of a 200. -/
def successBody (counts : StoreCounts) : Json :=
  .object ([("status".toList, .text "success".toList), ("contract_version".toList, .int 2)] ++ kinds.flatMap fun kind =>
    [(kind.text ++ "_received".toList, .int (counts.of kind).received), (kind.text ++ "_inserted".toList, .int (counts.of kind).inserted),
      (kind.text ++ "_duplicates".toList, .int (counts.of kind).duplicates)])

/-- The lists of a batch as the server has them. -/
def received (batch : UploadBatch) : EventLists := (sentRequest batch.keyId (events batch)).lists

/-- `upload_v2`, for a token of the tenant and a key of its own. -/
def upload (customerId branchId : Int) (tables : EventTables) (batch : UploadBatch) : EventTables × Answer :=
  match uploadEvents tables ⟨customerId, branchId, batch.keyId⟩ (received batch) with
  | (after, .ok counts) => (after, .response 200 (some (successBody counts)))
  | (after, .error (.eventConflict conflicts)) => (after, .response 409 (some (conflictBody conflicts)))
  | (after, .error .unreadable) => (after, .response 500 (some (.object [("detail".toList, .text "Internal server error".toList)])))

/-! ### What is expected of one batch -/

/-- The rows of one table keep every stored row, and every other key has the first row of the list. -/
structure KindSettled {ρ γ : Type} (kind : RowKind ρ γ) (before rows after : List (ScopedRow ρ)) : Prop where
  kept : ∀ key row, stored (scopedKey kind) before key = some row → stored (scopedKey kind) after key = some row
  first : ∀ key, stored (scopedKey kind) before key = none → stored (scopedKey kind) after key = stored (scopedKey kind) rows key

/-- The content of an event differs from the row that its key has in the end. -/
def differsFromFinal (tenant : Tenant) (tables : EventTables) (lists : EventLists) : SafeEvent → Bool
  | .checkin event => differs (scopedKey checkinKind) (scopedContent checkinKind) tables.checkins (lists.checkinRows tenant)
      ⟨tenant, checkinRow (sentCheckin event)⟩
  | .reject event => differs (scopedKey rejectKind) (scopedContent rejectKind) tables.rejects (lists.rejectRows tenant)
      ⟨tenant, rejectRow (sentReject event)⟩
  | .acsItem event => differs (scopedKey acsItemKind) (scopedContent acsItemKind) tables.acsItems (lists.acsItemRows tenant)
      ⟨tenant, acsItemRow (sentAcsItem event)⟩

/-- What is stored and what is quarantined of a batch. -/
structure Settled (tenant : Tenant) (before : EventTables) (slice : List SafeEvent) (after : EventTables)
    (quarantined : List SafeEvent) : Prop where
  checkins : KindSettled checkinKind before.checkins ((sentRequest tenant.keyId slice).lists.checkinRows tenant) after.checkins
  rejects : KindSettled rejectKind before.rejects ((sentRequest tenant.keyId slice).lists.rejectRows tenant) after.rejects
  acsItems : KindSettled acsItemKind before.acsItems ((sentRequest tenant.keyId slice).lists.acsItemRows tenant) after.acsItems
  quarantined : quarantined.Perm (slice.filter (differsFromFinal tenant before (sentRequest tenant.keyId slice).lists))

/-- In each list of a batch the first event of a key decides: an event that differs from it differs from the stored row, and an
event like it that differs from the stored row is there 39 times at most. -/
structure Orderly (tenant : Tenant) (tables : EventTables) (lists : EventLists) : Prop where
  checkins : FirstDecides (scopedKey checkinKind) (scopedContent checkinKind) tables.checkins (lists.checkinRows tenant)
    ∧ CopiesAtMost (scopedKey checkinKind) (scopedContent checkinKind) tables.checkins (lists.checkinRows tenant) 39
  rejects : FirstDecides (scopedKey rejectKind) (scopedContent rejectKind) tables.rejects (lists.rejectRows tenant)
    ∧ CopiesAtMost (scopedKey rejectKind) (scopedContent rejectKind) tables.rejects (lists.rejectRows tenant) 39
  acsItems : FirstDecides (scopedKey acsItemKind) (scopedContent acsItemKind) tables.acsItems (lists.acsItemRows tenant)
    ∧ CopiesAtMost (scopedKey acsItemKind) (scopedContent acsItemKind) tables.acsItems (lists.acsItemRows tenant) 39

/-- The events of a batch as three lists. -/
structure Lists where
  checkins : List CheckinV2
  rejects : List RejectV2
  acsItems : List AcsItemV2

namespace Lists

def events (lists : Lists) : List SafeEvent :=
  lists.checkins.map .checkin ++ (lists.rejects.map .reject ++ lists.acsItems.map .acsItem)

def batch (lists : Lists) (keyId : Text) : UploadBatch where
  keyId := keyId
  order
    | .checkins => lists.checkins.map .checkin
    | .rejects => lists.rejects.map .reject
    | .acsItems => lists.acsItems.map .acsItem

/-- The lists as the server parses them. -/
def sent (lists : Lists) : EventLists :=
  ⟨lists.checkins.map sentCheckin, lists.rejects.map sentReject, lists.acsItems.map sentAcsItem⟩

/-- The lists of a slice. -/
def ofEvents (slice : List SafeEvent) : Lists where
  checkins := slice.filterMap fun event => match event with
    | .checkin event => some event
    | _ => none
  rejects := slice.filterMap fun event => match event with
    | .reject event => some event
    | _ => none
  acsItems := slice.filterMap fun event => match event with
    | .acsItem event => some event
    | _ => none

theorem batch_ofEvents (keyId : Text) (slice : List SafeEvent) : (ofEvents slice).batch keyId = .of keyId slice := by
  rw [batch, UploadBatch.of]
  congr 1
  funext kind
  induction slice with
  | nil => cases kind <;> rfl
  | cons event slice ih =>
      cases event <;> cases kind <;>
        simpa [ofEvents, List.filterMap_cons, List.filter_cons, SafeEvent.kind] using ih

theorem sent_ofEvents (keyId : Text) (slice : List SafeEvent) : (ofEvents slice).sent = (sentRequest keyId slice).lists := by
  rw [sent, UploadModels.UploadV2Request.lists, sentRequest, ofEvents]
  congr 1 <;>
  · rw [List.map_filterMap]
    congr 1
    funext event
    cases event <;> rfl

theorem events_batch (lists : Lists) (keyId : Text) : Delivery.events (lists.batch keyId) = lists.events := by
  simp [Delivery.events, kinds, batch, events]

/-- The lists without the items at some positions. -/
def kept (lists : Lists) (conflicts : ConflictPositions) : Lists :=
  ⟨keptAt lists.checkins conflicts.checkins, keptAt lists.rejects conflicts.rejects, keptAt lists.acsItems conflicts.acsItems⟩

/-- The items at them. -/
def removed (lists : Lists) (conflicts : ConflictPositions) : Lists :=
  ⟨removedAt lists.checkins conflicts.checkins, removedAt lists.rejects conflicts.rejects,
    removedAt lists.acsItems conflicts.acsItems⟩

end Lists

/-! ### One round -/

section Rounds

variable {tenant : Tenant} {tables : EventTables} {lists : Lists}

/-- Each list is refused in at most so many rounds, and its first events decide. -/
structure Ready (tenant : Tenant) (tables : EventTables) (lists : EventLists) (rounds : Nat) : Prop where
  checkins : FirstDecides (scopedKey checkinKind) (scopedContent checkinKind) tables.checkins (lists.checkinRows tenant)
    ∧ Within (scopedKey checkinKind) (scopedContent checkinKind) tables.checkins (lists.checkinRows tenant) rounds
  rejects : FirstDecides (scopedKey rejectKind) (scopedContent rejectKind) tables.rejects (lists.rejectRows tenant)
    ∧ Within (scopedKey rejectKind) (scopedContent rejectKind) tables.rejects (lists.rejectRows tenant) rounds
  acsItems : FirstDecides (scopedKey acsItemKind) (scopedContent acsItemKind) tables.acsItems (lists.acsItemRows tenant)
    ∧ Within (scopedKey acsItemKind) (scopedContent acsItemKind) tables.acsItems (lists.acsItemRows tenant) rounds

theorem kept_checkinRows : (lists.kept (lists.sent.refused tenant tables)).sent.checkinRows tenant
    = nextRows (scopedKey checkinKind) (scopedContent checkinKind) tables.checkins (lists.sent.checkinRows tenant) := by
  rw [nextRows, EventLists.checkinRows, EventLists.checkinRows, Lists.sent, Lists.sent, keptAt_map, keptAt_map, keptAt_map]
  rfl

theorem kept_rejectRows : (lists.kept (lists.sent.refused tenant tables)).sent.rejectRows tenant
    = nextRows (scopedKey rejectKind) (scopedContent rejectKind) tables.rejects (lists.sent.rejectRows tenant) := by
  rw [nextRows, EventLists.rejectRows, EventLists.rejectRows, Lists.sent, Lists.sent, keptAt_map, keptAt_map, keptAt_map]
  rfl

theorem kept_acsItemRows : (lists.kept (lists.sent.refused tenant tables)).sent.acsItemRows tenant
    = nextRows (scopedKey acsItemKind) (scopedContent acsItemKind) tables.acsItems (lists.sent.acsItemRows tenant) := by
  rw [nextRows, EventLists.acsItemRows, EventLists.acsItemRows, Lists.sent, Lists.sent, keptAt_map, keptAt_map, keptAt_map]
  rfl

theorem Ready.next {rounds : Nat} (h : Ready tenant tables lists.sent (rounds + 1)) :
    Ready tenant tables (lists.kept (lists.sent.refused tenant tables)).sent rounds := by
  constructor
  · rw [kept_checkinRows]
    exact ⟨h.checkins.1.next, h.checkins.2.next⟩
  · rw [kept_rejectRows]
    exact ⟨h.rejects.1.next, h.rejects.2.next⟩
  · rw [kept_acsItemRows]
    exact ⟨h.acsItems.1.next, h.acsItems.2.next⟩

end Rounds

/-! ### A batch -/

section Batches

variable {customerId branchId : Int} {keyId today : Text}

/-- How a delivery of one batch ends. -/
structure BatchSettled (tenant : Tenant) (lists : Lists) (run : Run EventTables) (result : Option Failure × Run EventTables)
    (quarantined : List SafeEvent) : Prop where
  delivered : result.1 = none
  session : result.2.session = lists.sent.added tenant run.session
  handed : result.2.quarantined = run.quarantined ++ quarantined.map fun event => (event, .eventConflict)
  quarantined : quarantined.Perm (lists.events.filter (differsFromFinal tenant run.session lists.sent))

theorem Orderly.ready {tenant : Tenant} {tables : EventTables} {slice : List SafeEvent} (hlength : slice.length ≤ 1000)
    (h : Orderly tenant tables (sentRequest tenant.keyId slice).lists) :
    Ready tenant tables (Lists.ofEvents slice).sent 59 := by
  rw [Lists.sent_ofEvents tenant.keyId]
  have hrows : ((sentRequest tenant.keyId slice).lists.checkinRows tenant).length ≤ 1000
      ∧ ((sentRequest tenant.keyId slice).lists.rejectRows tenant).length ≤ 1000
      ∧ ((sentRequest tenant.keyId slice).lists.acsItemRows tenant).length ≤ 1000 := by
    rw [EventLists.checkinRows, EventLists.rejectRows, EventLists.acsItemRows]
    simp only [List.length_map]
    exact ⟨(List.length_filterMap_le ..).trans hlength, (List.length_filterMap_le ..).trans hlength,
      (List.length_filterMap_le ..).trans hlength⟩
  exact ⟨⟨h.checkins.1, within_of_copies hrows.1 h.checkins.2⟩, ⟨h.rejects.1, within_of_copies hrows.2.1 h.rejects.2⟩,
    ⟨h.acsItems.1, within_of_copies hrows.2.2 h.acsItems.2⟩⟩

theorem kindSettled_added {ρ γ : Type} {kind : RowKind ρ γ} (before rows : List (ScopedRow ρ)) :
    KindSettled kind before rows (before ++ newRows (scopedKey kind) before rows) := by
  rw [← insertAll_eq_append_newRows]
  constructor
  · intro key row hrow
    rw [stored_insertAll, hrow, Option.some_or]
  · intro key hnone
    rw [stored_insertAll, hnone, Option.none_or]

theorem BatchSettled.settled {slice : List SafeEvent} {run : Run EventTables} {result : Option Failure × Run EventTables}
    {quarantined : List SafeEvent}
    (h : BatchSettled ⟨customerId, branchId, keyId⟩ (Lists.ofEvents slice) run result quarantined) :
    Settled ⟨customerId, branchId, keyId⟩ run.session slice result.2.session quarantined := by
  have hsession := h.session
  have hquarantined := h.quarantined
  rw [Lists.sent_ofEvents keyId] at hsession hquarantined
  rw [hsession]
  refine ⟨kindSettled_added _ _, kindSettled_added _ _, kindSettled_added _ _, hquarantined.trans ?_⟩
  rw [← Lists.events_batch _ keyId, Lists.batch_ofEvents]
  exact (events_of_perm keyId slice).filter _

end Batches

/-! ### A conflict with a stored row -/

end Delivery

end SortView
