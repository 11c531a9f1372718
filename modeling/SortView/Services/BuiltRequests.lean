import Mathlib.Data.Set.Function
import SortView.Services.IngestRequests

/-!
# A collector never conflicts with itself

An event key names the canonical form of its event, and the form determines what the server compares. Requests made of
events that were built under one key set are stored, in any order and however often they are sent.
-/

namespace SortView

open PyText Calendar FirstWriter

/-! ### One key, one event -/

/-- The canonical forms of the events that calls build. -/
def formsOf (calls : Set BuildCall) : Set Text := {text | ∃ call ∈ calls, call.canonical = some text}

section Built

variable (keys : SubKeys) (calls : Set BuildCall)

/-- An event that one of the calls built. -/
def BuiltBy (event : SafeEvent) : Prop := ∃ call ∈ calls, call.build keys = .ok event

variable {keys calls} (hhmac : Set.InjOn keys.event (formsOf calls))

include hhmac

/-- Two built events with one key agree on everything the server compares. -/
theorem BuiltBy.compareColumns_eq {event other : SafeEvent} (hevent : BuiltBy keys calls event) (hother : BuiltBy keys calls other)
    (hkey : event.eventKey = other.eventKey) : event.compareColumns = other.compareColumns := by
  obtain ⟨call, hcall, hbuild⟩ := hevent
  obtain ⟨call', hcall', hbuild'⟩ := hother
  obtain ⟨text, hform, heventKey, hcolumns, haccepted⟩ := build_ok hbuild
  obtain ⟨text', hform', heventKey', hcolumns', haccepted'⟩ := build_ok hbuild'
  have hdigest : keys.event text = keys.event text' := by
    have hhex : (keys.event text).hex = (keys.event text').hex := heventKey.symm.trans (hkey.trans heventKey')
    cases hleft : keys.event text
    cases hright : keys.event text'
    rw [hleft, hright] at hhex
    cases hhex
    rfl
  obtain rfl := hhmac ⟨call, hcall, hform⟩ ⟨call', hcall', hform'⟩ hdigest
  rw [hcolumns, hcolumns']
  exact compareColumns_of_canonical hform hform' haccepted haccepted'

end Built

theorem kind_of_compareColumns {event other : SafeEvent} (h : event.compareColumns = other.compareColumns) : event.kind = other.kind := by
  cases event <;> cases other <;> first | rfl | cases h

/-! ### Rows of built events -/

/-- The columns of a row of the list, from what is compared of its event. -/
def CompareColumns.checkinContent : CompareColumns → Option (Instant × Option Text × Text × Text)
  | .checkin eventTime itemKey destination bin => some (eventTime, itemKey, destination, bin)
  | _ => none

def CompareColumns.rejectContent : CompareColumns → Option (Instant × Text × Option Text)
  | .reject eventTime errorClass itemKey => some (eventTime, errorClass.text, itemKey)
  | _ => none

def CompareColumns.acsItemContent :
    CompareColumns → Option (Instant × Text × Text × Option Text × Option Bool × Option Bool × Option Bool)
  | .acsItem eventTime state itemKey fields =>
      some (eventTime, state.text, itemKey, fields.destination, fields.isIll, fields.isBranchServices, fields.isCollectionServices)
  | _ => none

section Rows

variable {ρ γ : Type} (keys : SubKeys) (calls : Set BuildCall) (kind : RowKind ρ γ) (content : CompareColumns → Option γ)

/-- A row of an event that one of the calls built. -/
def RowBuilt (row : ρ) : Prop :=
  ∃ event, BuiltBy keys calls event ∧ event.eventKey = kind.eventKey row ∧ content event.compareColumns = some (kind.typed row)

/-- The rows that a tenant has in a table are of events that the calls built. -/
def TableBuilt (tenant : Tenant) (table : List (ScopedRow ρ)) : Prop :=
  ∀ stored ∈ table, stored.tenant = tenant → RowBuilt keys calls kind content stored.row

variable {keys calls kind content}

/-- A request adds rows of its own tenant only, and those that it brings. -/
theorem TableBuilt.append_newRows {tenant sender : Tenant} {table : List (ScopedRow ρ)} {rows : List ρ}
    (htable : TableBuilt keys calls kind content tenant table)
    (hrows : sender = tenant → ∀ row ∈ rows, RowBuilt keys calls kind content row) :
    TableBuilt keys calls kind content tenant
      (table ++ newRows (scopedKey kind) table (rows.map (ScopedRow.mk sender))) := by
  intro stored hstored htenant
  rw [← insertAll_eq_append_newRows] at hstored
  rcases mem_insertAll hstored with hold | hnew
  · exact htable stored hold htenant
  · obtain ⟨row, hrow, rfl⟩ := List.mem_map.1 hnew
    exact hrows htenant row hrow

/-- Rows of built events do not differ from a table of built events. -/
theorem not_differs_of_built [DecidableEq γ] (hhmac : Set.InjOn keys.event (formsOf calls)) {tenant : Tenant}
    {table : List (ScopedRow ρ)} {rows : List ρ} (htable : TableBuilt keys calls kind content tenant table)
    (hrows : ∀ row ∈ rows, RowBuilt keys calls kind content row) :
    ¬ EventLists.Differs kind table (rows.map (ScopedRow.mk tenant)) := by
  have hagree : ∀ first : ScopedRow ρ, (first.tenant = tenant → RowBuilt keys calls kind content first.row) →
      ∀ row ∈ rows, scopedKey kind first = (tenant, kind.eventKey row) → kind.typed first.row = kind.typed row := by
    intro first hfirst row hrow hkey
    obtain ⟨htenant, heventKey⟩ := Prod.mk.inj hkey
    obtain ⟨event, hevent, hkeyEvent, hcontent⟩ := hfirst htenant
    obtain ⟨other, hother, hkeyOther, hcontent'⟩ := hrows row hrow
    have hcolumns := hevent.compareColumns_eq hhmac hother (hkeyEvent.trans (heventKey.trans hkeyOther.symm))
    rw [hcolumns, hcontent'] at hcontent
    exact (Option.some.inj hcontent).symm
  have hsame : ∀ (others : List (ScopedRow ρ)), TableBuilt keys calls kind content tenant others → ∀ row ∈ rows,
      disagrees (scopedKey kind) (scopedContent kind) others ⟨tenant, row⟩ = false := by
    intro others hothers row hrow
    apply not_disagrees_of_unique
    intro first hfirst hkey
    exact hagree first (hothers first hfirst) row hrow hkey
  have hbrought : TableBuilt keys calls kind content tenant (rows.map (ScopedRow.mk tenant)) := by
    intro stored hstored _
    obtain ⟨row, hrow, rfl⟩ := List.mem_map.1 hstored
    exact hrows row hrow
  rintro ⟨stored, hstored, hdiffers⟩
  obtain ⟨row, hrow, rfl⟩ := List.mem_map.1 hstored
  rcases hdiffers with htable' | hrows'
  · rw [hsame table htable row hrow] at htable'
    cases htable'
  · rw [hsame _ hbrought row hrow] at hrows'
    cases hrows'

end Rows

/-! ### Requests of built events -/

/-- A request: the scope it is stored under, when it is read, and its lists. -/
structure UploadRequest where
  tenant : Tenant
  now : Instant
  lists : EventLists

section Requests

variable (keys : SubKeys) (calls : Set BuildCall)

/-- Every event of the request is one of the calls' events, as the server read it. -/
structure UploadRequest.OfBuilt (request : UploadRequest) : Prop where
  checkins : ∀ event ∈ request.lists.checkins, ∃ built : CheckinV2,
    BuiltBy keys calls (.checkin built) ∧ built.received request.now = some event
  rejects : ∀ event ∈ request.lists.rejects, ∃ built : RejectV2,
    BuiltBy keys calls (.reject built) ∧ built.received request.now = some event
  acsItems : ∀ event ∈ request.lists.acsItems, ∃ built : AcsItemV2,
    BuiltBy keys calls (.acsItem built) ∧ built.received request.now = some event

/-- The tables after a request. -/
def serve (tables : EventTables) (request : UploadRequest) : EventTables := (uploadEvents tables request.tenant request.lists).1

/-- The rows of a tenant are of events that the calls built. -/
structure EventTables.OfBuilt (tenant : Tenant) (tables : EventTables) : Prop where
  unique : tables.Unique
  checkins : TableBuilt keys calls checkinKind CompareColumns.checkinContent tenant tables.checkins
  rejects : TableBuilt keys calls rejectKind CompareColumns.rejectContent tenant tables.rejects
  acsItems : TableBuilt keys calls acsItemKind CompareColumns.acsItemContent tenant tables.acsItems

variable {keys calls} {request : UploadRequest}

theorem UploadRequest.OfBuilt.checkinRows (h : request.OfBuilt keys calls) :
    ∀ row ∈ request.lists.checkins.map checkinRow, RowBuilt keys calls checkinKind CompareColumns.checkinContent row := by
  intro row hrow
  obtain ⟨event, hevent, rfl⟩ := List.mem_map.1 hrow
  obtain ⟨built, hbuilt, hreceived⟩ := h.checkins event hevent
  obtain ⟨hkey, hcontent⟩ := CheckinV2.content_received hreceived
  exact ⟨.checkin built, hbuilt, hkey.symm, congrArg some hcontent.symm⟩

theorem UploadRequest.OfBuilt.rejectRows (h : request.OfBuilt keys calls) :
    ∀ row ∈ request.lists.rejects.map rejectRow, RowBuilt keys calls rejectKind CompareColumns.rejectContent row := by
  intro row hrow
  obtain ⟨event, hevent, rfl⟩ := List.mem_map.1 hrow
  obtain ⟨built, hbuilt, hreceived⟩ := h.rejects event hevent
  obtain ⟨hkey, hcontent⟩ := RejectV2.content_received hreceived
  exact ⟨.reject built, hbuilt, hkey.symm, congrArg some hcontent.symm⟩

theorem UploadRequest.OfBuilt.acsItemRows (h : request.OfBuilt keys calls) :
    ∀ row ∈ request.lists.acsItems.map acsItemRow, RowBuilt keys calls acsItemKind CompareColumns.acsItemContent row := by
  intro row hrow
  obtain ⟨event, hevent, rfl⟩ := List.mem_map.1 hrow
  obtain ⟨built, hbuilt, hreceived⟩ := h.acsItems event hevent
  obtain ⟨hkey, hcontent⟩ := AcsItemV2.content_received hreceived
  exact ⟨.acsItem built, hbuilt, hkey.symm, congrArg some hcontent.symm⟩

variable {tables : EventTables} {tenant : Tenant}

/-- One request keeps the tables: a tenant's rows stay rows of built events. -/
theorem EventTables.OfBuilt.serve (htables : tables.OfBuilt keys calls tenant)
    (hrequest : request.tenant = tenant → request.OfBuilt keys calls) : (serve tables request).OfBuilt keys calls tenant := by
  obtain ⟨hrefused, hstored⟩ := uploadEvents_eq request.tenant request.lists htables.unique
  rw [SortView.serve]
  by_cases hconflicting : request.lists.Conflicting request.tenant tables
  · rw [hrefused hconflicting]
    exact htables
  · rw [hstored hconflicting]
    exact ⟨htables.unique.added request.tenant request.lists,
      htables.checkins.append_newRows fun h => (hrequest h).checkinRows,
      htables.rejects.append_newRows fun h => (hrequest h).rejectRows,
      htables.acsItems.append_newRows fun h => (hrequest h).acsItemRows⟩

theorem EventTables.OfBuilt.serveAll (htables : tables.OfBuilt keys calls tenant) {requests : List UploadRequest}
    (hrequests : ∀ request ∈ requests, request.tenant = tenant → request.OfBuilt keys calls) :
    (requests.foldl SortView.serve tables).OfBuilt keys calls tenant := by
  induction requests generalizing tables with
  | nil => exact htables
  | cons request requests ih =>
      exact ih (htables.serve (hrequests request (List.mem_cons_self ..))) fun other hother =>
        hrequests other (List.mem_cons_of_mem _ hother)

/-- A request of built events is stored. -/
theorem EventTables.OfBuilt.stores (hhmac : Set.InjOn keys.event (formsOf calls)) (htables : tables.OfBuilt keys calls request.tenant)
    (hrequest : request.OfBuilt keys calls) :
    (uploadEvents tables request.tenant request.lists).2 = .ok (request.lists.counts request.tenant tables) := by
  have hnot : ¬ request.lists.Conflicting request.tenant tables := by
    simp only [EventLists.Conflicting, not_or]
    exact ⟨not_differs_of_built hhmac htables.checkins hrequest.checkinRows,
      not_differs_of_built hhmac htables.rejects hrequest.rejectRows,
      not_differs_of_built hhmac htables.acsItems hrequest.acsItemRows⟩
  rw [(uploadEvents_eq request.tenant request.lists htables.unique).2 hnot]

end Requests

/-- One key set and its events: two events with one key are of one kind and agree on what the server compares, and whatever
requests other tenants send in between, the requests of a tenant that hold only such events are stored. -/
structure NeverConflict (keys : SubKeys) (calls : Set BuildCall) : Prop where
  identity : ∀ event other, BuiltBy keys calls event → BuiltBy keys calls other → event.eventKey = other.eventKey →
    event.kind = other.kind ∧ event.compareColumns = other.compareColumns
  stored : ∀ (tenant : Tenant) (tables : EventTables), tables.OfBuilt keys calls tenant → ∀ requests : List UploadRequest,
    (∀ request ∈ requests, request.tenant = tenant → request.OfBuilt keys calls) →
    ∀ before request after, requests = before ++ request :: after → request.tenant = tenant →
      ∃ counts, (uploadEvents (before.foldl serve tables) tenant request.lists).2 = .ok counts

/-- Event identity is injective on content, so a collector never conflicts with itself. -/
theorem built_events_never_conflict (keys : SubKeys) (calls : Set BuildCall) (hhmac : Set.InjOn keys.event (formsOf calls)) :
    NeverConflict keys calls := by
  refine ⟨?_, ?_⟩
  · intro event other hevent hother hkey
    have hcolumns := hevent.compareColumns_eq hhmac hother hkey
    exact ⟨kind_of_compareColumns hcolumns, hcolumns⟩
  · rintro tenant tables htables requests hrequests before request after rfl rfl
    have hbefore := htables.serveAll fun other hother => hrequests other (List.mem_append_left _ hother)
    exact ⟨_, hbefore.stores hhmac (hrequests request (List.mem_append_right _ (List.mem_cons_self ..)) rfl)⟩

/-- A digest that tells texts of even length from those of odd length. -/
def parityDigest (text : Text) : Digest :=
  ⟨List.replicate 64 (if text.length % 2 = 0 then '0' else '1'), by split <;> decide⟩

def parityKeys : SubKeys := ⟨parityDigest, parityDigest, parityDigest, parityDigest, parityDigest⟩

theorem firstSecond_inRange : 63082281600000000 < maxMicroseconds := by decide

/-- A check-in of the first second of 2000, in bin 1 and in bin 12. -/
def binCall (bin : Text) : BuildCall := .checkin ⟨63082281600000000, firstSecond_inRange⟩ none "main".toList bin

theorem length_of_parityDigest {left right : Text} (h : parityDigest left = parityDigest right) :
    left.length % 2 = right.length % 2 := by
  have hdigit : (if left.length % 2 = 0 then '0' else '1') = if right.length % 2 = 0 then '0' else '1' :=
    Option.some.inj (congrArg (fun digest => digest.hex.head?) h)
  by_cases hleft : left.length % 2 = 0
  · by_cases hright : right.length % 2 = 0
    · rw [hleft, hright]
    · rw [if_pos hleft, if_neg hright] at hdigit
      cases hdigit
  · by_cases hright : right.length % 2 = 0
    · rw [if_neg hleft, if_pos hright] at hdigit
      cases hdigit
    · omega

theorem built_events_never_conflict_bins : NeverConflict parityKeys {binCall "1".toList, binCall "12".toList} := by
  apply built_events_never_conflict
  have hparity : ∀ bin ∈ ["1".toList, "12".toList],
      ((binCall bin).canonical.map fun text => text.length % 2) = some (bin.length % 2) := by decide
  have hforms : ∀ text ∈ formsOf {binCall "1".toList, binCall "12".toList},
      ∃ bin ∈ ["1".toList, "12".toList], (binCall bin).canonical = some text := by
    rintro text ⟨call, hcall | hcall, hform⟩
    · exact ⟨"1".toList, List.mem_cons_self .., hcall ▸ hform⟩
    · exact ⟨"12".toList, List.mem_cons_of_mem _ (List.mem_cons_self ..), hcall ▸ hform⟩
  have hbins : ∀ bin ∈ ["1".toList, "12".toList], ∀ other ∈ ["1".toList, "12".toList],
      bin.length % 2 = other.length % 2 → bin = other := by decide
  intro left hleft right hright hdigest
  obtain ⟨bin, hbin, hform⟩ := hforms left hleft
  obtain ⟨other, hother, hform'⟩ := hforms right hright
  have hleftParity := hparity bin hbin
  have hrightParity := hparity other hother
  rw [hform] at hleftParity
  rw [hform'] at hrightParity
  have hlengths := length_of_parityDigest hdigest
  have hsame := hbins bin hbin other hother
    ((Option.some.inj hleftParity).symm.trans (hlengths.trans (Option.some.inj hrightParity)))
  rw [hsame, hform'] at hform
  exact (Option.some.inj hform).symm

end SortView
