import SortView.Lib.Dict
import SortView.Lib.Removal
import SortView.Lib.Slices
import SortView.Collector.AcceptedUploads
import SortView.Collector.Quarantine
import SortView.Services.IngestRequests

/-!
# Sending the events of a chunk

`Batch.without` and `post_batch` of `collector/v2_uploader.py` and `_deliver` of `collector/v2_run.py`: batches go out in order, and
the events that an answer names are taken out of their batch and handed to the quarantine.
-/

namespace SortView

open PyText Calendar Removal Slices Transform

namespace Delivery

/-! ### Batches -/

/-- The events of a batch, list by list. -/
def events (batch : UploadBatch) : List SafeEvent := kinds.flatMap batch.order

/-- `len(batch)`. -/
def size (batch : UploadBatch) : Nat := (kinds.map fun kind => (batch.order kind).length).sum

/-- The positions that an answer names, by list. -/
abbrev Positions := Dict Kind (List Nat)

/-- `Batch.without`: the batch minus the events at these positions, and the removed events. -/
def without (batch : UploadBatch) (positions : Positions) : UploadBatch × List SafeEvent :=
  (⟨batch.keyId, fun kind => keptAt (batch.order kind) ((positions.get? kind).getD [])⟩,
    kinds.flatMap fun kind => removedAt (batch.order kind) ((positions.get? kind).getD []))

/-! ### Answers -/

/-- `FAILURE_CATEGORIES`. -/
inductive Failure where
  | auth
  | config
  | permanent
  | retryable
  | other
  deriving DecidableEq

/-- What `session.post` gives: an exception, or an answer whose body may not be JSON. -/
inductive Answer where
  | requestException
  | exception
  | response (statusCode : Nat) (body : Option Json)

inductive BatchResult where
  | ok
  | conflict
  | invalid
  | failed
  deriving DecidableEq

structure BatchOutcome where
  result : BatchResult
  failure : Option Failure
  statusCode : Option Nat
  positions : Positions
  inserted : Int
  duplicates : Int

def BatchOutcome.fail (failure : Failure) (statusCode : Option Nat) : BatchOutcome := ⟨.failed, some failure, statusCode, Dict.empty, 0, 0⟩

/-- `_failure_for`. -/
def failureFor (statusCode : Nat) : Failure :=
  if statusCode ∈ [401, 403] then .auth
  else if statusCode ∈ [404, 405] then .config
  else if statusCode ∈ [400, 413] then .permanent
  else if statusCode = 429 ∨ (500 ≤ statusCode ∧ statusCode ≤ 599) then .retryable
  else .other

/-- `kind in KINDS`, as the kind it names. -/
def kindOf? (name : Text) : Option Kind := kinds.find? fun kind => kind.text = name

/-- A position within a list: an integer that is no truth value. -/
def position? (length : Nat) : Json → Option Nat
  | .int value => if 0 ≤ value ∧ value < length then some value.toNat else none
  | _ => none

/-- `tuple(sorted(set(values)))`. -/
def sortedSet (values : List Nat) : List Nat := values.dedup.mergeSort fun a b => decide (a ≤ b)

/-- One member of a `conflicts` object. -/
def conflictsOf (batch : UploadBatch) (found : Positions) (item : Text × Json) : Option Positions :=
  match kindOf? item.1, item.2 with
  | some kind, .array values =>
      if values = [] then none
      else (values.mapM (position? (batch.order kind).length)).map fun positions => found.set kind (sortedSet positions)
  | _, _ => none

/-- `_positions`: none where anything is out of range or malformed. -/
def positions (raw : Option Json) (batch : UploadBatch) : Option Positions :=
  match raw with
  | some (.object items) => if items = [] then none else items.foldlM (conflictsOf batch) Dict.empty
  | _ => none

/-- The event that one error of a 422 is pinned to. -/
def errorPosition? (batch : UploadBatch) (error : Json) : Option (Kind × Nat) := do
  let items ← error.items?
  match items.lookup "loc".toList with
  | some (.array (place :: name :: index :: _)) =>
      if place.text? = some "body".toList then
        let kind ← name.text?.bind kindOf?
        (position? (batch.order kind).length index).map fun position => (kind, position)
      else none
  | _ => none

/-- `found.setdefault(kind, set()).add(position)`, sorted. -/
def addPosition (found : Positions) (entry : Kind × Nat) : Positions :=
  found.set entry.1 (sortedSet ((found.get? entry.1).getD [] ++ [entry.2]))

/-- `_invalid_positions`: none where any error is not one of an event. -/
def invalidPositions (body : Option (List (Text × Json))) (batch : UploadBatch) : Option Positions :=
  match body.bind fun items => items.lookup "detail".toList with
  | some (.array detail) =>
      if detail = [] then none
      else (detail.mapM (errorPosition? batch)).map fun entries => entries.foldl addPosition Dict.empty
  | _ => none

/-- The sum of the counts with a suffix. -/
def total (items : List (Text × Json)) (suffix : Text) : Int :=
  (kinds.map fun kind => match items.lookup (kind.text ++ suffix) with
    | some (.int value) => value
    | _ => 0).sum

/-- `post_batch`: the classification of an answer. -/
def postBatch (answer : Answer) (batch : UploadBatch) : BatchOutcome :=
  match answer with
  | .requestException => .fail .retryable none
  | .exception => .fail .other none
  | .response code body =>
      let items := body.bind Json.items?
      if code = 200 then
        match items.filter fun items => (items.lookup "status".toList).bind Json.text? = some "success".toList with
        | none => .fail .retryable (some code)
        | some items => ⟨.ok, none, some code, Dict.empty, total items "_inserted".toList, total items "_duplicates".toList⟩
      else if code = 409 then
        let conflict := items.filter fun items => (items.lookup "code".toList).bind Json.text? = some "event_conflict".toList
        match positions (conflict.bind fun items => items.lookup "conflicts".toList) batch with
        | none => .fail .permanent (some code)
        | some positions => ⟨.conflict, none, some code, positions, 0, 0⟩
      else if code = 422 then
        match invalidPositions items batch with
        | none => .fail .config (some code)
        | some positions => ⟨.invalid, none, some code, positions, 0, 0⟩
      else .fail (failureFor code) (some code)

/-! ### The loop -/

/-- What `_deliver` counts. -/
structure Totals where
  batches : Nat
  inserted : Int
  duplicates : Int
  quarantinedConflict : Nat
  quarantinedInvalid : Nat

/-- A delivery so far: the other side of the session, the batches answered 200, the events that were removed with the reason of their
entry, the quarantine, the counts, and what a crash would have found after each request and each save. -/
structure Run (σ : Type) where
  session : σ
  accepted : List UploadBatch
  quarantined : List (SafeEvent × QuarantineReason)
  quarantine : Quarantine
  totals : Totals
  moments : List (Quarantine × σ)

/-- `_MAX_ROUNDS`. -/
def maxRounds : Nat := 60

variable {σ : Type} (post : σ → UploadBatch → σ × Answer) (today : Text)

/-- A request that was answered. -/
def Run.answered (run : Run σ) (session : σ) : Run σ := { run with session, moments := run.moments ++ [(run.quarantine, session)] }

/-- A batch that is answered 200. -/
def Run.accept (run : Run σ) (batch : UploadBatch) (outcome : BatchOutcome) : Run σ :=
  { run with
    accepted := run.accepted ++ [batch]
    totals := { run.totals with
      batches := run.totals.batches + 1
      inserted := run.totals.inserted + outcome.inserted
      duplicates := run.totals.duplicates + outcome.duplicates } }

/-- Events that are taken out of a batch and handed to the quarantine. -/
def Run.remove (run : Run σ) (removed : List SafeEvent) (reason : QuarantineReason) : Run σ :=
  let quarantine := run.quarantine.add (removed.map (.of reason today))
  { run with
    quarantined := run.quarantined ++ removed.map fun event => (event, reason)
    quarantine
    moments := run.moments ++ [(quarantine, run.session)]
    totals := match reason with
      | .eventConflict => { run.totals with quarantinedConflict := run.totals.quarantinedConflict + removed.length }
      | .invalidEvent => { run.totals with quarantinedInvalid := run.totals.quarantinedInvalid + removed.length } }

/-- One batch, with the number of rounds that are left. -/
def deliverBatch : Nat → UploadBatch → Run σ → Option Failure × Run σ
  | 0, batch, run => if size batch = 0 then (none, run) else (some .permanent, run)
  | rounds + 1, batch, run =>
      if size batch = 0 then (none, run)
      else
        let (session, answer) := post run.session batch
        let run := run.answered session
        let outcome := postBatch answer batch
        match outcome.result with
        | .ok => (none, run.accept batch outcome)
        | .conflict =>
            let (rest, removed) := without batch outcome.positions
            if removed = [] then (some .permanent, run) else deliverBatch rounds rest (run.remove today removed .eventConflict)
        | .invalid =>
            let (rest, removed) := without batch outcome.positions
            if removed = [] then (some .permanent, run) else deliverBatch rounds rest (run.remove today removed .invalidEvent)
        | .failed => (some (outcome.failure.getD .other), run)

/-- The batches in order, until one fails. -/
def deliverBatches (keyId : Text) : List (List SafeEvent) → Run σ → Option Failure × Run σ
  | [], run => (none, run)
  | slice :: slices, run =>
      match deliverBatch post today maxRounds (.of keyId slice) run with
      | (none, run) => deliverBatches keyId slices run
      | (some failure, run) => (some failure, run)

/-- `_deliver`: none when every event was delivered or quarantined, else a failure category. -/
def deliver (keyId : Text) (maxEventsPerRequest : Nat) (events : List SafeEvent) (run : Run σ) : Option Failure × Run σ :=
  deliverBatches post today keyId (slices events maxEventsPerRequest) run

/-! ### Every answer -/

section AnySession

theorem size_eq (batch : UploadBatch) : size batch = (events batch).length := by
  rw [size, events, List.length_flatMap]

/-- Nothing but the named positions goes. -/
theorem without_perm (batch : UploadBatch) (positions : Positions) :
    ((without batch positions).2 ++ events (without batch positions).1).Perm (events batch) := by
  have hlists : ∀ kind, (removedAt (batch.order kind) ((positions.get? kind).getD [])
      ++ keptAt (batch.order kind) ((positions.get? kind).getD [])).Perm (batch.order kind) :=
    fun kind => removedAt_append_keptAt ..
  rw [List.perm_iff_count]
  intro event
  have hcheckins := (hlists .checkins).count_eq event
  have hrejects := (hlists .rejects).count_eq event
  have hitems := (hlists .acsItems).count_eq event
  simp only [events, without, kinds, List.flatMap_cons, List.flatMap_nil, List.append_nil, List.count_append] at hcheckins hrejects hitems ⊢
  omega

theorem events_of_perm (keyId : Text) (slice : List SafeEvent) : (events (.of keyId slice)).Perm slice := by
  rw [List.perm_iff_count]
  intro event
  simp only [events, UploadBatch.of, kinds, List.flatMap_cons, List.flatMap_nil, List.append_nil, List.count_append]
  induction slice with
  | nil => rfl
  | cons first slice ih =>
      cases hkind : first.kind <;>
        simp only [List.filter_cons, hkind, decide_true, reduceCtorEq, decide_false, if_true, Bool.false_eq_true, if_false,
          List.count_cons] <;>
        omega

/-- Every event of a list is one that was accepted or one that was handed to the quarantine. -/
def Run.handled (run : Run σ) : List SafeEvent := run.accepted.flatMap events ++ run.quarantined.map Prod.fst

theorem handled_accept (run : Run σ) (batch : UploadBatch) (outcome : BatchOutcome) :
    (run.accept batch outcome).handled.Perm (run.handled ++ events batch) := by
  rw [List.perm_iff_count]
  intro event
  simp only [Run.handled, Run.accept, List.flatMap_append, List.flatMap_singleton, List.count_append]
  omega

theorem handled_remove (run : Run σ) (removed : List SafeEvent) (reason : QuarantineReason) :
    (run.remove today removed reason).handled.Perm (run.handled ++ removed) := by
  rw [List.perm_iff_count]
  intro event
  have hmap : (removed.map fun event => (event, reason)).map Prod.fst = removed := by
    rw [List.map_map]
    exact List.map_id _
  simp only [Run.handled, Run.remove, List.map_append, hmap, List.count_append]
  omega

/-- What is left of a batch after a refused round, with what is handled by then. -/
theorem handled_round (run : Run σ) (batch : UploadBatch) (positions : Positions) (reason : QuarantineReason) :
    ((run.remove today (without batch positions).2 reason).handled ++ events (without batch positions).1).Perm (run.handled ++ events batch) := by
  refine ((handled_remove today run _ reason).append_right _).trans ?_
  rw [List.append_assoc]
  exact (without_perm batch positions).append_left _

/-- A batch is handled as a whole, or in part when it fails. -/
theorem handled_deliverBatch (rounds : Nat) (batch : UploadBatch) (run : Run σ) :
    ∃ left, ((deliverBatch post today rounds batch run).2.handled ++ left).Perm (run.handled ++ events batch)
      ∧ ((deliverBatch post today rounds batch run).1 = none → left = []) := by
  induction rounds generalizing batch run with
  | zero =>
      rw [deliverBatch]
      split
      · next hempty =>
        rw [size_eq, List.length_eq_zero_iff] at hempty
        exact ⟨[], by rw [hempty], fun _ => rfl⟩
      · exact ⟨events batch, List.Perm.refl _, nofun⟩
  | succ rounds ih =>
      rw [deliverBatch]
      split
      · next hempty =>
        rw [size_eq, List.length_eq_zero_iff] at hempty
        exact ⟨[], by rw [hempty], fun _ => rfl⟩
      · dsimp only
        split
        · exact ⟨[], by rw [List.append_nil]; exact handled_accept .., fun _ => rfl⟩
        · split
          · exact ⟨events batch, List.Perm.refl _, nofun⟩
          · obtain ⟨left, hperm, hleft⟩ := ih (without batch _).1 (Run.remove today _ (without batch _).2 .eventConflict)
            exact ⟨left, hperm.trans (handled_round ..), hleft⟩
        · split
          · exact ⟨events batch, List.Perm.refl _, nofun⟩
          · obtain ⟨left, hperm, hleft⟩ := ih (without batch _).1 (Run.remove today _ (without batch _).2 .invalidEvent)
            exact ⟨left, hperm.trans (handled_round ..), hleft⟩
        · exact ⟨events batch, List.Perm.refl _, nofun⟩

theorem handled_deliverBatches (keyId : Text) (slices : List (List SafeEvent)) (run : Run σ) :
    ∃ left, ((deliverBatches post today keyId slices run).2.handled ++ left).Perm (run.handled ++ slices.flatten)
      ∧ ((deliverBatches post today keyId slices run).1 = none → left = []) := by
  induction slices generalizing run with
  | nil => exact ⟨[], List.Perm.refl _, fun _ => rfl⟩
  | cons slice slices ih =>
      obtain ⟨left, hperm, hleft⟩ := handled_deliverBatch post today maxRounds (.of keyId slice) run
      have hslice : (run.handled ++ events (.of keyId slice)).Perm (run.handled ++ slice) := (events_of_perm keyId slice).append_left _
      rw [List.flatten_cons, deliverBatches]
      split
      · next after hrun =>
        rw [hrun] at hperm hleft
        rw [hleft rfl, List.append_nil] at hperm
        obtain ⟨rest, hrest, hnone⟩ := ih after
        refine ⟨rest, hrest.trans ?_, hnone⟩
        rw [← List.append_assoc]
        exact (hperm.trans hslice).append_right _
      · next failure after hrun =>
        rw [hrun] at hperm
        refine ⟨left ++ slices.flatten, ?_, nofun⟩
        rw [← List.append_assoc, ← List.append_assoc]
        exact (hperm.trans hslice).append_right _

/-- A property of a run that every round with a batch of the key keeps: an answered request, an accepted batch and a removal. -/
structure Keeps (keyId : Text) (I : Run σ → Prop) : Prop where
  answered : ∀ run batch, batch.keyId = keyId → I run → I (run.answered (post run.session batch).1)
  accept : ∀ run batch, batch.keyId = keyId → I run → (postBatch (post run.session batch).2 batch).result = .ok →
    I ((run.answered (post run.session batch).1).accept batch (postBatch (post run.session batch).2 batch))
  remove : ∀ run removed reason, I run → I (run.remove today removed reason)

theorem Keeps.deliverBatch {keyId : Text} {I : Run σ → Prop} (h : Keeps post today keyId I) (rounds : Nat) (batch : UploadBatch)
    (hkey : batch.keyId = keyId) {run : Run σ} (hrun : I run) : I (deliverBatch post today rounds batch run).2 := by
  induction rounds generalizing batch run with
  | zero =>
      rw [Delivery.deliverBatch]
      split <;> exact hrun
  | succ rounds ih =>
      rw [Delivery.deliverBatch]
      split
      · exact hrun
      · dsimp only
        split
        · next hresult => exact h.accept run batch hkey hrun hresult
        · split
          · exact h.answered run batch hkey hrun
          · exact ih (without batch _).1 hkey (h.remove _ _ _ (h.answered run batch hkey hrun))
        · split
          · exact h.answered run batch hkey hrun
          · exact ih (without batch _).1 hkey (h.remove _ _ _ (h.answered run batch hkey hrun))
        · exact h.answered run batch hkey hrun

theorem Keeps.deliverBatches {keyId : Text} {I : Run σ → Prop} (h : Keeps post today keyId I) (slices : List (List SafeEvent)) {run : Run σ}
    (hrun : I run) : I (deliverBatches post today keyId slices run).2 := by
  induction slices generalizing run with
  | nil => exact hrun
  | cons slice slices ih =>
      have hkey : (UploadBatch.of keyId slice).keyId = keyId := rfl
      have hbatch := h.deliverBatch post today maxRounds _ hkey hrun
      rw [Delivery.deliverBatches]
      split
      · next after hafter =>
        rw [hafter] at hbatch
        exact ih hbatch
      · next failure after hafter =>
        rw [hafter] at hbatch
        exact hbatch

/-- A property of the other side and a batch that a request keeps, and that holds of a batch of the key after it is answered 200. -/
structure Lasting (keyId : Text) (P : σ → UploadBatch → Prop) : Prop where
  ok : ∀ session batch, batch.keyId = keyId → (postBatch (post session batch).2 batch).result = .ok → P (post session batch).1 batch
  stable : ∀ session batch sent, P session sent → P (post session batch).1 sent

theorem Lasting.accepted {keyId : Text} {P : σ → UploadBatch → Prop} (h : Lasting post keyId P) :
    Keeps post today keyId fun run => ∀ sent ∈ run.accepted, P run.session sent where
  answered run batch _ hrun sent hsent := h.stable _ _ _ (hrun sent hsent)
  accept run batch hkey hrun hok sent hsent := by
    rcases List.mem_append.1 hsent with hbefore | hnow
    · exact h.stable _ _ _ (hrun sent hbefore)
    · rw [List.mem_singleton.1 hnow]
      exact h.ok _ _ hkey hok
  remove run removed reason hrun := hrun

/-- What a request keeps of the other side holds at the end, and whenever a crash could come. -/
theorem keeps_session (keyId : Text) {Q : σ → Prop} (hstable : ∀ session batch, Q session → Q (post session batch).1) :
    Keeps post today keyId fun run => Q run.session ∧ ∀ moment ∈ run.moments, Q moment.2 where
  answered _ _ _ hrun :=
    ⟨hstable _ _ hrun.1, List.forall_mem_append.2 ⟨hrun.2, List.forall_mem_singleton.2 (hstable _ _ hrun.1)⟩⟩
  accept _ _ _ hrun _ :=
    ⟨hstable _ _ hrun.1, List.forall_mem_append.2 ⟨hrun.2, List.forall_mem_singleton.2 (hstable _ _ hrun.1)⟩⟩
  remove _ _ _ hrun := ⟨hrun.1, List.forall_mem_append.2 ⟨hrun.2, List.forall_mem_singleton.2 hrun.1⟩⟩

/-! ### The answers that were given -/

/-- Batches that were sent, each with its answer. -/
abbrev Exchanges := List (UploadBatch × Answer)

/-- An answer 200 whose body is an object of the status success. -/
def Answer.isSuccess : Answer → Bool
  | .response code body => code = 200 &&
      (body.bind Json.items?).any fun items => (items.lookup "status".toList).bind Json.text? = some "success".toList
  | _ => false

/-- The batches that were answered so, in order. -/
def succeeded (exchanges : Exchanges) : List UploadBatch := (exchanges.filter fun exchange => exchange.2.isSuccess).map Prod.fst

/-- The events that an answer names, with the reason of their entry. -/
def refused (exchange : UploadBatch × Answer) : List (SafeEvent × QuarantineReason) :=
  let outcome := postBatch exchange.2 exchange.1
  match outcome.result with
  | .conflict => (without exchange.1 outcome.positions).2.map fun event => (event, .eventConflict)
  | .invalid => (without exchange.1 outcome.positions).2.map fun event => (event, .invalidEvent)
  | .ok | .failed => []

/-- What a run makes of the answers that it was given since an earlier run. -/
structure Follows (before after : Run (σ × Exchanges)) (exchanges : Exchanges) : Prop where
  log : after.session.2 = before.session.2 ++ exchanges
  accepted : after.accepted = before.accepted ++ succeeded exchanges
  quarantined : after.quarantined = before.quarantined ++ exchanges.flatMap refused

theorem Follows.refl (run : Run (σ × Exchanges)) : Follows run run [] :=
  ⟨(List.append_nil _).symm, (List.append_nil _).symm, (List.append_nil _).symm⟩

theorem Follows.trans {first second third : Run (σ × Exchanges)} {earlier later : Exchanges} (hfirst : Follows first second earlier)
    (hsecond : Follows second third later) : Follows first third (earlier ++ later) := by
  refine ⟨?_, ?_, ?_⟩
  · rw [hsecond.log, hfirst.log, List.append_assoc]
  · rw [hsecond.accepted, hfirst.accepted, List.append_assoc, succeeded, succeeded, succeeded, List.filter_append, List.map_append]
  · rw [hsecond.quarantined, hfirst.quarantined, List.append_assoc, List.flatMap_append]

/-- An empty quarantine. -/
def sampleQuarantine : Quarantine := ⟨10, [], false, []⟩

/-- A delivery from its start. -/
def sampleRun (session : σ) : Run σ := ⟨session, [], [], sampleQuarantine, ⟨0, 0, 0, 0, 0⟩, []⟩

end AnySession

end Delivery

end SortView
