import Mathlib.Data.List.Sort
import SortView.Agent.BatchFile
import SortView.Agent.PoisonIsolation
import SortView.Agent.SourceRuns

/-!
# The agent from the file to the server

The collector of a source and the upload thread beside it. A call of the collector makes one durable write after another, a cycle of the
upload thread takes the oldest batch, sends its requests and closes it step by step, and the process may crash between any two of them. A
batch is read as it was written (`BatchFile.lean`).
-/

namespace SortView

open PyText ByteLines Reader Slices SpoolNames SpoolUploader

/-! ### A new file of the spool -/

namespace SpoolUploader

variable {ρ : Type}

theorem nodup_installed {pending : List (Text × Except Text (List ρ))} (hdistinct : (pending.map Prod.fst).Nodup) {name : Text}
    (hnew : name ∉ pending.map Prod.fst) (records : List ρ) :
    ((pending.orderedInsert (fun left right => textLe left.1 right.1 = true) (name, .ok records)).map Prod.fst).Nodup := by
  have hperm := (List.perm_orderedInsert (fun left right => textLe left.1 right.1 = true) (name, Except.ok records) pending).map Prod.fst
  rw [hperm.nodup_iff, List.map_cons, List.nodup_cons]
  exact ⟨hnew, hdistinct⟩

/-- `write_batch` under a name that is not there yet: the listing of the files is sorted. -/
def Spool.install (spool : Spool ρ) (name : Text) (records : List ρ) (hnew : name ∉ spool.pending.map Prod.fst) : Spool ρ :=
  { spool with
    pending := spool.pending.orderedInsert (fun left right => textLe left.1 right.1 = true) (name, .ok records)
    distinct := nodup_installed spool.distinct hnew records }

theorem Spool.mem_install {spool : Spool ρ} {name : Text} {records : List ρ} (hnew : name ∉ spool.pending.map Prod.fst)
    {file : Text × Except Text (List ρ)} :
    file ∈ (spool.install name records hnew).pending ↔ file = (name, .ok records) ∨ file ∈ spool.pending :=
  List.mem_orderedInsert _

theorem Spool.mem_remove {spool : Spool ρ} {path : Text} {file : Text × Except Text (List ρ)} :
    file ∈ (spool.remove path).pending ↔ file ∈ spool.pending ∧ file.1 ≠ path := by
  simp [Spool.remove]

/-- There is one file of a name. -/
theorem Spool.eq_of_mem {spool : Spool ρ} {path : Text} {first second : Except Text (List ρ)} (hfirst : (path, first) ∈ spool.pending)
    (hsecond : (path, second) ∈ spool.pending) : first = second :=
  congrArg Prod.snd (List.inj_on_of_nodup_map spool.distinct hfirst hsecond rfl)

end SpoolUploader

namespace Agent

variable {δ : Type}

/-! ### The process -/

/-- The rest of a call of the collector: the writes it has yet to make, and the memory it leaves. -/
structure Call (δ : Type) where
  writes : List (Write δ)
  memory : Memory δ

/-- The file and what the collector made of it, the call it is in, the directory of the batches, what the upload thread has yet to do of
its cycle, and every request that was sent. -/
structure Process (δ : Type) where
  world : World δ
  call : Option (Call δ)
  spool : Spool (Event δ)
  closing : List (DiskStep (Event δ))
  requests : List (Request (Event δ))

def Process.start : Process δ := ⟨.start, none, ⟨[], [], [], [], List.nodup_nil⟩, [], []⟩

/-- What can happen to it: a call of the collector begins, makes its next write or ends; a cycle of the upload thread sends its requests
or makes its next change of the spool; or all of it crashes, also after some of the requests of a cycle. -/
inductive Happening (δ : Type) where
  | poll (input : PollInput)
  | flush
  | write (stamp : NameStamp)
  | done
  | cycle (server : Nat → Batch (Event δ) → Response)
  | close (now : Text)
  | crash
  | crashInCycle (server : Nat → Batch (Event δ) → Response) (sent : Nat)

/-- The process without its memory. -/
def Process.restart (process : Process δ) : Process δ :=
  { process with world := { process.world with memory := .fresh }, call := none, closing := [] }

instance (world : World δ) (input : PollInput) : Decidable (world.Admits input) :=
  match hcontent : input.view.content with
  | none => isTrue fun seen hseen => by rw [hcontent] at hseen; cases hseen
  | some found => decidable_of_iff (world.content <+: found) (by simp [World.Admits, hcontent])

variable (cfg : Config δ) (repr : Json → Text) (byteSize : Batch (Event δ) → Nat) (runtime : RuntimeConfig)

/-- The name of the file of a batch. -/
def fileName (batch : SpoolBatch δ) (stamp : NameStamp) : Text :=
  newBatchFilename batch.sourceGeneration batch.startOffset batch.endOffset stamp

/-- The next durable write of the call. No file of the name is there: a name has the clock, a counter of the process and random digits. -/
def Process.write (process : Process δ) (stamp : NameStamp) : Option (Process δ) :=
  match process.call with
  | some ⟨.batch batch :: writes, memory⟩ =>
      if hnew : fileName batch stamp ∉ process.spool.pending.map Prod.fst then
        some { process with
          world := { process.world with durable := process.world.durable.apply (.batch batch) }
          call := some ⟨writes, memory⟩
          spool := process.spool.install (fileName batch stamp) batch.records hnew }
      else none
  | some ⟨.state state :: writes, memory⟩ =>
      some { process with
        world := { process.world with durable := process.world.durable.apply (.state state) }
        call := some ⟨writes, memory⟩ }
  | _ => none

/-- A call of the collector begins, over the file as it finds it. -/
def Process.begin {α : Type} (process : Process δ) (content : Bytes) (outcome : Outcome δ α) : Process δ :=
  { process with world := { process.world with content }, call := some ⟨outcome.writes, outcome.memory⟩ }

/-- What becomes of the process, if that can happen to it. -/
def Process.next (process : Process δ) : Happening δ → Option (Process δ)
  | .poll input =>
      if process.call.isNone ∧ process.world.Admits input then
        some (process.begin (process.world.seen input) (pollOnce cfg process.world.durable.state input process.world.memory))
      else none
  | .flush =>
      if process.call.isNone then some (process.begin process.world.content (forceFlush cfg process.world.memory)) else none
  | .write stamp => process.write stamp
  | .done =>
      match process.call with
      | some ⟨[], memory⟩ => some { process with world := { process.world with memory }, call := none }
      | _ => none
  | .cycle server =>
      if process.closing.isEmpty then
        (uploadOnePendingBatch repr byteSize runtime cfg.source server process.spool).map fun cycle =>
          { process with closing := cycle.steps, requests := process.requests ++ cycle.attempt.requests }
      else none
  | .close now =>
      match process.closing with
      | [] => none
      | step :: closing => some { process with spool := process.spool.step now step, closing }
  | .crash => some process.restart
  | .crashInCycle server sent =>
      if process.closing.isEmpty then
        (uploadOnePendingBatch repr byteSize runtime cfg.source server process.spool).map fun cycle =>
          { process.restart with requests := process.requests ++ cycle.attempt.requests.take sent }
      else none

def Process.run : Process δ → List (Happening δ) → Option (Process δ)
  | process, [] => some process
  | process, happening :: happenings => (process.next cfg repr byteSize runtime happening).bind fun next => Process.run next happenings

/-! ### Where an event is -/

def Delivered (requests : List (Request (Event δ))) (event : Event δ) : Prop :=
  ∃ request ∈ requests, request.outcome.success = true ∧ event ∈ request.records

/-- It was sent alone and rejected for good. -/
def RejectedAlone (requests : List (Request (Event δ))) (event : Event δ) : Prop :=
  ∃ request ∈ requests, request.rejectedAlone = true ∧ event ∈ request.records

def Pending (spool : Spool (Event δ)) (event : Event δ) : Prop := ∃ path records, (path, .ok records) ∈ spool.pending ∧ event ∈ records

def Isolated (spool : Spool (Event δ)) (event : Event δ) : Prop := ∃ entry ∈ spool.isolated, event ∈ entry.1

def Process.Holds (process : Process δ) (event : Event δ) : Prop :=
  Pending process.spool event ∨ Delivered process.requests event ∨ Isolated process.spool event

/-- The event of a batch that was written. -/
def Captured (durable : Durable δ) (event : Event δ) : Prop := ∃ batch ∈ durable.spool, event ∈ batch.records

/-! ### The invariant -/

/-- What the rest of a cycle is, and what it relies on. -/
inductive Closing (spool : Spool (Event δ)) (requests : List (Request (Event δ))) : List (DiskStep (Event δ)) → Prop
  | nothing : Closing spool requests []
  | failed (path error : Text) (category : FailureCategory) : Closing spool requests [.recordAttemptFailure path error category]
  | acknowledge (path : Text) (records : List (Event δ)) (hfile : (path, .ok records) ∈ spool.pending)
      (hdone : ∀ event ∈ records, Delivered requests event ∨ Isolated spool event) : Closing spool requests [.acknowledge path]
  | quarantine (path : Text) (records rejected : List (Event δ)) (reason : Text) (hfile : (path, .ok records) ∈ spool.pending)
      (hrejected : ∀ event ∈ rejected, event ∈ records ∧ RejectedAlone requests event)
      (hdone : ∀ event ∈ records, Delivered requests event ∨ event ∈ rejected) :
      Closing spool requests [.quarantineRecords rejected reason, .acknowledge path]

/-- What holds of the process at every moment. -/
structure Process.Sound (process : Process δ) : Prop where
  durable : process.world.durable.Sound cfg process.world.content
  memory : process.call = none → process.world.memory.Sound cfg process.world.content process.world.durable.spool
  call : ∀ call, process.call = some call →
    Safe cfg process.world.content process.world.durable (⟨call.writes, call.memory, .ok ()⟩ : Outcome δ Unit)
  holds : ∀ event, Captured process.world.durable event → process.Holds event
  pending : ∀ file ∈ process.spool.pending, ∃ records, file.2 = .ok records ∧ ∀ event ∈ records, Captured process.world.durable event
  delivered : ∀ event, Delivered process.requests event → Captured process.world.durable event
  isolated : ∀ event, Isolated process.spool event → RejectedAlone process.requests event ∧ Captured process.world.durable event
  closing : Closing process.spool process.requests process.closing

variable {cfg repr byteSize runtime}

theorem Delivered.mono {requests more : List (Request (Event δ))} {event : Event δ} (h : Delivered requests event) :
    Delivered (requests ++ more) event := by
  obtain ⟨request, hrequest, hsuccess⟩ := h
  exact ⟨request, List.mem_append_left _ hrequest, hsuccess⟩

theorem RejectedAlone.mono {requests more : List (Request (Event δ))} {event : Event δ} (h : RejectedAlone requests event) :
    RejectedAlone (requests ++ more) event := by
  obtain ⟨request, hrequest, hrejected⟩ := h
  exact ⟨request, List.mem_append_left _ hrequest, hrejected⟩

theorem Captured.apply {durable : Durable δ} {event : Event δ} (h : Captured durable event) (write : Write δ) :
    Captured (durable.apply write) event := by
  obtain ⟨batch, hbatch, hevent⟩ := h
  cases write with
  | batch written => exact ⟨batch, List.mem_append_left _ hbatch, hevent⟩
  | state state => exact ⟨batch, hbatch, hevent⟩

/-- A cycle relies on files that stay. -/
theorem Closing.mono {spool later : Spool (Event δ)} {requests : List (Request (Event δ))} {steps : List (DiskStep (Event δ))}
    (h : Closing spool requests steps) (hpending : ∀ file ∈ spool.pending, file ∈ later.pending) (hisolated : later.isolated = spool.isolated) :
    Closing later requests steps := by
  cases h with
  | nothing => exact .nothing
  | failed path error category => exact .failed path error category
  | acknowledge path records hfile hdone =>
      refine .acknowledge path records (hpending _ hfile) fun event hevent => ?_
      rw [Isolated, hisolated]
      exact hdone event hevent
  | quarantine path records rejected reason hfile hrejected hdone =>
      exact .quarantine path records rejected reason (hpending _ hfile) hrejected hdone

/-! ### A call of the collector -/

/-- The rest of a safe call is safe after its next write. -/
theorem Safe.wrote {content : Bytes} {durable : Durable δ} {write : Write δ} {writes : List (Write δ)} {memory : Memory δ}
    (h : Safe cfg content durable (⟨write :: writes, memory, .ok ()⟩ : Outcome δ Unit)) :
    (durable.apply write).Sound cfg content
      ∧ Safe cfg content (durable.apply write) (⟨writes, memory, .ok ()⟩ : Outcome δ Unit) := by
  refine ⟨h.writes [write] (List.prefix_append [write] writes), ?_, h.memory⟩
  intro made hmade
  exact h.writes (write :: made) (List.cons_prefix_cons.2 ⟨rfl, hmade⟩)

theorem Process.Sound.write {process next : Process δ} (h : process.Sound cfg) {stamp : NameStamp} (hnext : process.write stamp = some next) :
    next.Sound cfg := by
  rw [Process.write] at hnext
  split at hnext
  · next batch writes memory hcall =>
    split at hnext
    · next hnew =>
      cases hnext
      obtain ⟨hdurable, hsafe⟩ := (h.call _ hcall).wrote
      have hstay : ∀ file ∈ process.spool.pending, file ∈ (process.spool.install (fileName batch stamp) batch.records hnew).pending :=
        fun file hfile => (Spool.mem_install hnew).2 (Or.inr hfile)
      refine ⟨hdurable, fun hcall => absurd hcall (Option.some_ne_none _), ?_, ?_, ?_, ?_, ?_, h.closing.mono hstay rfl⟩
      · rintro _ ⟨⟩
        exact hsafe
      · rintro event ⟨written, hwritten, hevent⟩
        rcases List.mem_append.1 hwritten with hbefore | hnow
        · rcases h.holds event ⟨written, hbefore, hevent⟩ with ⟨path, records, hfile, hrecord⟩ | hdone
          · exact Or.inl ⟨path, records, hstay _ hfile, hrecord⟩
          · exact Or.inr hdone
        · rw [List.mem_singleton.1 hnow] at hevent
          exact Or.inl ⟨_, _, (Spool.mem_install hnew).2 (Or.inl rfl), hevent⟩
      · intro file hfile
        rcases (Spool.mem_install hnew).1 hfile with rfl | hbefore
        · exact ⟨batch.records, rfl, fun event hevent => ⟨batch, List.mem_append_right _ (List.mem_singleton_self _), hevent⟩⟩
        · obtain ⟨records, hcontent, hcaptured⟩ := h.pending file hbefore
          exact ⟨records, hcontent, fun event hevent => (hcaptured event hevent).apply _⟩
      · exact fun event hdelivered => (h.delivered event hdelivered).apply _
      · exact fun event hisolated => ⟨(h.isolated event hisolated).1, (h.isolated event hisolated).2.apply _⟩
    · cases hnext
  · next state writes memory hcall =>
    cases hnext
    obtain ⟨hdurable, hsafe⟩ := (h.call _ hcall).wrote
    refine ⟨hdurable, fun hcall => absurd hcall (Option.some_ne_none _), ?_, h.holds, h.pending, h.delivered, h.isolated, h.closing⟩
    rintro _ ⟨⟩
    exact hsafe
  · cases hnext

/-- A safe call begins, over a file that has grown. -/
theorem Process.Sound.begin {α : Type} {process : Process δ} (h : process.Sound cfg) {content : Bytes} (hgrow : process.world.content <+: content)
    {outcome : Outcome δ α} (hsafe : Safe cfg content process.world.durable outcome) : (process.begin content outcome).Sound cfg := by
  refine ⟨h.durable.grow hgrow, fun hcall => absurd hcall (Option.some_ne_none _), ?_, h.holds, h.pending, h.delivered, h.isolated, h.closing⟩
  rintro _ ⟨⟩
  exact ⟨hsafe.writes, hsafe.memory⟩

theorem safe_poll (hreplay : cfg.bootstrapMode = .replay) (hmax : 1 ≤ cfg.batchMaxEvents) {process : Process δ} (h : process.Sound cfg)
    (hidle : process.call = none) {input : PollInput} (hadmits : process.world.Admits input) :
    Safe cfg (process.world.seen input) process.world.durable
      (pollOnce cfg process.world.durable.state input process.world.memory) := by
  have hgrow := process.world.prefix_seen hadmits
  have hview : ∀ seen, input.view.content = some seen → seen = process.world.seen input := by
    intro seen hseen
    rw [World.seen, hseen]
    rfl
  exact pollOnce_safe hreplay hmax (h.durable.grow hgrow) ((h.memory hidle).grow hgrow) hview

theorem Process.Sound.restart {process : Process δ} (h : process.Sound cfg) : process.restart.Sound cfg :=
  ⟨h.durable, fun _ => Memory.fresh_sound _ _ _, fun _ hcall => absurd hcall (Option.some_ne_none _).symm, h.holds, h.pending, h.delivered,
    h.isolated, .nothing⟩

/-! ### A cycle of the upload thread -/

/-- More requests, of which those that were answered success are of captured events. -/
theorem Process.Sound.sent {process : Process δ} (h : process.Sound cfg) {sent : List (Request (Event δ))}
    {closing : List (DiskStep (Event δ))} (hdelivered : ∀ event, Delivered sent event → Captured process.world.durable event)
    (hclosing : Closing process.spool (process.requests ++ sent) closing) :
    Process.Sound cfg { process with closing, requests := process.requests ++ sent } := by
  refine ⟨h.durable, h.memory, h.call, ?_, h.pending, ?_, ?_, hclosing⟩
  · intro event hcaptured
    exact (h.holds event hcaptured).imp_right (Or.imp_left Delivered.mono)
  · rintro event ⟨request, hrequest, hsuccess⟩
    rcases List.mem_append.1 hrequest with hbefore | hnow
    · exact h.delivered event ⟨request, hbefore, hsuccess⟩
    · exact hdelivered event ⟨request, hnow, hsuccess⟩
  · exact fun event hisolated => ⟨(h.isolated event hisolated).1.mono, (h.isolated event hisolated).2⟩

/-- A cycle sends events of its file, and closes by what became of each of them. -/
theorem closing_of_cycle {process : Process δ} (h : process.Sound cfg) {server : Nat → Batch (Event δ) → Response}
    {cycle : SpoolUploader.Cycle (Event δ)}
    (hcycle : uploadOnePendingBatch repr byteSize runtime cfg.source server process.spool = some cycle) :
    (∀ event, Delivered cycle.attempt.requests event → Captured process.world.durable event)
      ∧ Closing process.spool (process.requests ++ cycle.attempt.requests) cycle.steps := by
  obtain ⟨path, records, rest, hpending, hcaptured⟩ : ∃ path records rest, process.spool.pending = (path, .ok records) :: rest
      ∧ ∀ event ∈ records, Captured process.world.durable event := by
    cases hfiles : process.spool.pending with
    | nil =>
        rw [uploadOnePendingBatch, hfiles] at hcycle
        cases hcycle
    | cons file rest =>
        obtain ⟨records, hcontent, hcaptured⟩ := h.pending file (hfiles ▸ List.mem_cons_self ..)
        exact ⟨file.1, records, rest, by rw [← hcontent], hcaptured⟩
  have hfile : (path, .ok records) ∈ process.spool.pending := hpending ▸ List.mem_cons_self ..
  have haccounts := attemptFile_accounts repr byteSize runtime cfg.source server records
  obtain ⟨hattempt, hsteps⟩ := uploadOnePendingBatch_ok repr byteSize runtime cfg.source hpending hcycle
  rw [← hattempt] at haccounts hsteps
  have hsent : ∀ event, Delivered cycle.attempt.requests event ↔ event ∈ cycle.attempt.outcome.delivered := by
    intro event
    rw [haccounts.fromSuccess]
    simp only [Delivered, List.mem_flatMap, List.mem_filter, and_assoc]
  refine ⟨fun event hdelivered => hcaptured event (haccounts.delivered.subset ((hsent event).1 hdelivered)), ?_⟩
  rw [hsteps]
  by_cases hdone : cycle.attempt.outcome.pending = []
  · have hevery : ∀ event ∈ records, Delivered (process.requests ++ cycle.attempt.requests) event
        ∨ event ∈ cycle.attempt.outcome.quarantined := by
      intro event hevent
      have hmem := haccounts.every.mem_iff.2 hevent
      rw [hdone, List.append_nil, List.mem_append] at hmem
      refine hmem.imp_left fun hdelivered => ?_
      obtain ⟨request, hrequest, hsuccess⟩ := (hsent event).2 hdelivered
      exact ⟨request, List.mem_append_right _ hrequest, hsuccess⟩
    obtain ⟨reason, hclosing⟩ := closingSteps_of_pending_nil path hdone haccounts.exhausted
    rw [hclosing]
    split
    · next hnone =>
      rw [hnone] at hevery
      exact .acknowledge path records hfile fun event hevent => Or.inl ((hevery event hevent).resolve_right List.not_mem_nil)
    · refine .quarantine path records _ reason hfile (fun event hevent => ⟨haccounts.quarantined.subset hevent, ?_⟩) hevery
      rw [haccounts.fromRejected] at hevent
      obtain ⟨request, hrequest, hin⟩ := List.mem_flatMap.1 hevent
      obtain ⟨hsentRequest, hrejected⟩ := List.mem_filter.1 hrequest
      exact ⟨request, List.mem_append_right _ hsentRequest, hrejected, hin⟩
  · obtain ⟨error, category, hclosing⟩ := closingSteps_of_pending path hdone
    rw [hclosing]
    exact .failed path error category

/-- The next step of a cycle that is being closed. -/
theorem Process.Sound.close {process : Process δ} (h : process.Sound cfg) {step : DiskStep (Event δ)} {closing : List (DiskStep (Event δ))}
    (hclosing : process.closing = step :: closing) (now : Text) :
    Process.Sound cfg { process with spool := process.spool.step now step, closing } := by
  have hrest := h.closing
  rw [hclosing] at hrest
  cases hrest with
  | failed path error category => exact ⟨h.durable, h.memory, h.call, h.holds, h.pending, h.delivered, h.isolated, .nothing⟩
  | acknowledge path records hfile hdone =>
      refine ⟨h.durable, h.memory, h.call, ?_, ?_, h.delivered, h.isolated, .nothing⟩
      · intro event hcaptured
        rcases h.holds event hcaptured with ⟨other, content, hother, hevent⟩ | helsewhere
        · by_cases hsame : other = path
          · subst hsame
            cases Spool.eq_of_mem hother hfile
            exact Or.inr (hdone event hevent)
          · exact Or.inl ⟨other, content, Spool.mem_remove.2 ⟨hother, hsame⟩, hevent⟩
        · exact Or.inr helsewhere
      · intro file hremaining
        exact h.pending file (Spool.mem_remove.1 hremaining).1
  | quarantine path records rejected reason hfile hrejected hdone =>
      have hadded : ∀ event, Isolated (process.spool.step now (.quarantineRecords rejected reason)) event
          ↔ Isolated process.spool event ∨ event ∈ rejected := by
        intro event
        simp [Isolated, Spool.step, or_and_right, exists_or]
      refine ⟨h.durable, h.memory, h.call, ?_, h.pending, h.delivered, ?_, ?_⟩
      · intro event hcaptured
        exact (h.holds event hcaptured).imp_right (Or.imp_right fun hisolated => (hadded event).2 (Or.inl hisolated))
      · intro event hisolated
        rcases (hadded event).1 hisolated with hbefore | hnow
        · exact h.isolated event hbefore
        · obtain ⟨hrecord, hsent⟩ := hrejected event hnow
          obtain ⟨content, hcontent, hcaptured⟩ := h.pending _ hfile
          cases hcontent
          exact ⟨hsent, hcaptured event hrecord⟩
      · refine .acknowledge path records hfile fun event hevent => ?_
        exact (hdone event hevent).imp_right fun hmem => (hadded event).2 (Or.inr hmem)

/-! ### Runs -/

theorem Process.Sound.next (hreplay : cfg.bootstrapMode = .replay) (hmax : 1 ≤ cfg.batchMaxEvents) {process next : Process δ}
    (h : process.Sound cfg) {happening : Happening δ} (hnext : process.next cfg repr byteSize runtime happening = some next) :
    next.Sound cfg := by
  cases happening with
  | poll input =>
      rw [Process.next] at hnext
      split at hnext
      · next hmay =>
        cases hnext
        exact h.begin (process.world.prefix_seen hmay.2) (safe_poll hreplay hmax h (Option.isNone_iff_eq_none.1 hmay.1) hmay.2)
      · cases hnext
  | flush =>
      rw [Process.next] at hnext
      split at hnext
      · next hidle =>
        cases hnext
        exact h.begin List.prefix_rfl (flush_safe hmax h.durable (h.memory (Option.isNone_iff_eq_none.1 hidle))).1
      · cases hnext
  | write stamp => exact h.write hnext
  | done =>
      rw [Process.next] at hnext
      split at hnext
      · next memory hcall =>
        cases hnext
        exact ⟨h.durable, fun _ => (h.call _ hcall).memory, fun _ hcall => absurd hcall (Option.some_ne_none _).symm, h.holds, h.pending,
          h.delivered, h.isolated, h.closing⟩
      · cases hnext
  | cycle server =>
      rw [Process.next] at hnext
      split at hnext
      · obtain ⟨cycle, hcycle, rfl⟩ := Option.map_eq_some_iff.1 hnext
        obtain ⟨hdelivered, hclosing⟩ := closing_of_cycle h hcycle
        exact h.sent hdelivered hclosing
      · cases hnext
  | close now =>
      rw [Process.next] at hnext
      split at hnext
      · cases hnext
      · next step closing hclosing =>
        cases hnext
        exact h.close hclosing now
  | crash =>
      cases hnext
      exact h.restart
  | crashInCycle server sent =>
      rw [Process.next] at hnext
      split at hnext
      · obtain ⟨cycle, hcycle, rfl⟩ := Option.map_eq_some_iff.1 hnext
        refine h.restart.sent ?_ .nothing
        rintro event ⟨request, hrequest, hsuccess⟩
        exact (closing_of_cycle h hcycle).1 event ⟨request, List.mem_of_mem_take hrequest, hsuccess⟩
      · cases hnext

theorem Process.start_sound : (Process.start : Process δ).Sound cfg := by
  refine ⟨⟨fun batch hbatch => absurd hbatch List.not_mem_nil, ?_, ?_, ?_⟩, fun _ => Memory.fresh_sound _ _ _, ?_, ?_,
    fun file hfile => absurd hfile List.not_mem_nil, ?_, ?_, .nothing⟩
  · rintro saved ⟨⟩
  · rintro saved ⟨⟩
  · rintro saved ⟨⟩
  · rintro call ⟨⟩
  · rintro event ⟨batch, hbatch, -⟩
    cases hbatch
  · rintro event ⟨request, hrequest, -⟩
    cases hrequest
  · rintro event ⟨entry, hentry, -⟩
    cases hentry

theorem Process.Sound.run (hreplay : cfg.bootstrapMode = .replay) (hmax : 1 ≤ cfg.batchMaxEvents) {process last : Process δ}
    (h : process.Sound cfg) {happenings : List (Happening δ)} (hrun : process.run cfg repr byteSize runtime happenings = some last) :
    last.Sound cfg := by
  induction happenings generalizing process with
  | nil =>
      cases hrun
      exact h
  | cons happening happenings ih =>
      obtain ⟨next, hnext, hrest⟩ := Option.bind_eq_some_iff.1 hrun
      exact ih (h.next hreplay hmax hnext) hrest

/-- The event of a complete line of the file, in some generation. -/
def OfLine (cfg : Config δ) (content : Bytes) (event : Event δ) : Prop :=
  ∃ generation offset line row, (offset, line) ∈ numberedLines content
    ∧ parseLine cfg.toDatetime cfg.source (decodeLine line) = some row ∧ eventOf cfg generation offset row = some event

theorem BatchExact.ofLine {content : Bytes} {batch : SpoolBatch δ} (h : BatchExact cfg content batch) {event : Event δ}
    (hevent : event ∈ batch.records) : OfLine cfg content event := by
  rw [h.records, between_events] at hevent
  obtain ⟨⟨offset, found⟩, hfound, rfl⟩ := List.mem_map.1 hevent
  obtain ⟨⟨start, row⟩, hrow, hat⟩ := List.mem_filterMap.1 hfound
  obtain ⟨event, heventOf, heq⟩ := Option.map_eq_some_iff.1 hat
  cases heq
  obtain ⟨⟨offset, line⟩, hline, hparse⟩ := List.mem_filterMap.1 (mem_between.1 hrow).1
  obtain ⟨parsed, hparsed, heq⟩ := Option.map_eq_some_iff.1 hparse
  cases heq
  exact ⟨_, _, line, _, hline, hparsed, heventOf⟩

/-- The agent loses no event and makes none up. Whatever the reads, the answers of the server and the crashes between any two writes and
requests, every line below the saved position that parses has its event in a pending batch, in a request that was answered success or in
quarantine, and so has every event of a batch that was ever written; what is in quarantine was sent alone and rejected for good; and every
event in one of these places is the event of a complete line of the file. -/
theorem agent_loses_no_event (hreplay : cfg.bootstrapMode = .replay) (hmax : 1 ≤ cfg.batchMaxEvents) {happenings : List (Happening δ)}
    {process : Process δ} (hrun : Process.start.run cfg repr byteSize runtime happenings = some process) :
    (∀ saved, process.world.durable.state = some saved → ∀ offset line row, (offset, line) ∈ numberedLines process.world.content →
        offset < saved.cursor.offset → parseLine cfg.toDatetime cfg.source (decodeLine line) = some row →
        ∃ generation event, eventOf cfg generation offset row = some event ∧ process.Holds event)
      ∧ (∀ batch ∈ process.world.durable.spool, ∀ event ∈ batch.records, process.Holds event)
      ∧ (∀ event, Isolated process.spool event → RejectedAlone process.requests event)
      ∧ ∀ event, process.Holds event → OfLine cfg process.world.content event := by
  have h := Process.start_sound.run hreplay hmax hrun
  refine ⟨?_, fun batch hbatch event hevent => h.holds event ⟨batch, hbatch, hevent⟩, fun event hisolated => (h.isolated event hisolated).1, ?_⟩
  · intro saved hsaved offset line row hline hbelow hrow
    have hentry : (offset, row) ∈ rows cfg process.world.content := List.mem_filterMap.2 ⟨(offset, line), hline, by rw [hrow]; rfl⟩
    obtain ⟨batch, hbatch, hrange⟩ := h.durable.covered saved hsaved (offset, row) hentry hbelow
    have hexact := h.durable.batch batch hbatch
    have hinside := mem_between.2 ⟨hentry, hrange⟩
    obtain ⟨event, hevent⟩ := Option.ne_none_iff_exists'.1 (hexact.total _ hinside)
    obtain ⟨found, hfound, rfl⟩ := Option.map_eq_some_iff.1 hevent
    refine ⟨_, found, hfound, h.holds found ⟨batch, hbatch, ?_⟩⟩
    rw [hexact.records, between_events]
    exact List.mem_map.2 ⟨_, List.mem_filterMap.2 ⟨_, hinside, hevent⟩, rfl⟩
  · intro event hholds
    obtain ⟨batch, hbatch, hevent⟩ : Captured process.world.durable event := by
      rcases hholds with ⟨path, records, hfile, hevent⟩ | hdelivered | hisolated
      · obtain ⟨content, hcontent, hcaptured⟩ := h.pending _ hfile
        cases hcontent
        exact hcaptured event hevent
      · exact h.delivered event hdelivered
      · exact (h.isolated event hisolated).2
    exact (h.durable.batch batch hbatch).ofLine hevent

/-- A server that accepts everything. -/
def acceptingServer (_ : Nat) (_ : Batch (Event Text)) : Response :=
  .answer 200 [] (some [("status".toList, .text "success".toList)])

/-- A poll that finds two records writes them and its position, a crash comes in the cycle after it, and the next cycle closes the batch. -/
def sampleHappenings : List (Happening Text) :=
  [.poll samplePoll, .write BatchFile.sampleStamp, .write BatchFile.sampleStamp, .done, .crashInCycle acceptingServer 1,
    .cycle acceptingServer, .close "2026-01-01".toList]

theorem agent_loses_no_event_sample : ∃ process : Process Text,
    Process.start.run sampleCfg (fun _ => []) (fun _ => 0) {} sampleHappenings = some process
      ∧ (process.spool.pending.isEmpty && !process.world.durable.spool.isEmpty) = true
      ∧ ∀ batch ∈ process.world.durable.spool, ∀ event ∈ batch.records, process.Holds event := by
  have hrun : ((Process.start.run sampleCfg (fun _ => []) (fun _ => 0) {} sampleHappenings).any fun process =>
      process.spool.pending.isEmpty && !process.world.durable.spool.isEmpty) = true := by decide +kernel
  obtain ⟨process, hprocess, hempty⟩ := Option.any_eq_true _ _ |>.1 hrun
  exact ⟨process, hprocess, hempty, (agent_loses_no_event rfl (by decide) hprocess).2.1⟩

end Agent

end SortView
