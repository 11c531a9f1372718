import Mathlib.Algebra.Order.Group.Multiset
import Mathlib.Tactic.Abel
import SortView.Collector.Uploader
import SortView.Lib.Json

/-!
# Poison isolation (`agent/runtime/uploader.py`, `agent/runtime/http_client.py`)

One cycle uploads the oldest pending batch of a source. A batch that the server rejects is halved until single
records are rejected; all requests of the cycle share one budget. Only a batch of which every record is
delivered or quarantined leaves the spool.
-/

namespace SortView

open PyText

namespace SpoolUploader

/-! ### Requests -/

/-- `agent.spool.FailureCategory`. -/
inductive FailureCategory where
  | retryableInfra
  | authFailure
  | permanentRejection
  deriving DecidableEq

/-- What `session.post` gives: an exception with its text, or an answer with its text and its JSON object, if it has one. -/
inductive Response where
  | timeout (exc : Text)
  | connectionError (exc : Text)
  | requestException (exc : Text)
  | answer (statusCode : Nat) (text : Text) (body : Option (List (Text × Json)))

structure HttpOutcome where
  success : Bool
  category : Option FailureCategory
  statusCode : Option Nat
  error : Option Text
  deriving DecidableEq

def retryableStatusCodes : List Nat := [429, 500, 502, 503, 504]
def authStatusCodes : List Nat := [401, 403]
def permanentRejectionStatusCodes : List Nat := [400, 413]

/-- `_preview`. -/
def preview (text : Text) : Text := if text.length ≤ 300 then text else text.take 300 ++ "...<truncated>".toList

section PostJson

variable (repr : Json → Text)

/-- An answer of status 200. `repr` is the spelling of a JSON value. -/
def okOutcome (body : Option (List (Text × Json))) : HttpOutcome :=
  match body with
  | none => ⟨false, some .retryableInfra, some 200, some "200 response was not valid JSON".toList⟩
  | some body =>
      let status := Json.get body "status".toList
      if status.text? ≠ some "success".toList then
        ⟨false, some .retryableInfra, some 200, some ("200 response had unexpected status field: ".toList ++ repr status)⟩
      else ⟨true, none, some 200, none⟩

/-- `post_json`, after the request. -/
def postJson : Response → HttpOutcome
  | .timeout exc => ⟨false, some .retryableInfra, none, some ("timeout: ".toList ++ exc)⟩
  | .connectionError exc => ⟨false, some .retryableInfra, none, some ("connection error: ".toList ++ exc)⟩
  | .requestException exc => ⟨false, some .retryableInfra, none, some ("request failed: ".toList ++ exc)⟩
  | .answer statusCode text body =>
      let failed (category : FailureCategory) (reason : Text) : HttpOutcome :=
        ⟨false, some category, some statusCode, some (reason ++ decimal statusCode ++ ": ".toList ++ preview text)⟩
      if statusCode = 200 then okOutcome repr body
      else if statusCode ∈ authStatusCodes then failed .authFailure "authentication/authorization failure ".toList
      else if statusCode ∈ permanentRejectionStatusCodes then failed .permanentRejection "deterministic rejection ".toList
      else if statusCode ∈ retryableStatusCodes then failed .retryableInfra "retryable server error ".toList
      else failed .retryableInfra "unexpected status ".toList

end PostJson

variable {ρ : Type}

/-- `_build_payload`. -/
def buildPayload (source : SourceName) (records : List ρ) : Batch ρ :=
  match source with
  | .checkins => ⟨records, [], []⟩
  | .rejects => ⟨[], records, []⟩
  | .acs => ⟨[], [], records⟩

/-- `_fit_to_byte_budget`, where `byteSize` is the size of a payload as JSON text. -/
def fitToByteBudget (byteSize : Batch ρ → Nat) (source : SourceName) (maxBytes : Nat) (records : List ρ) : List (List ρ) :=
  if records = [] then []
  else if records.length = 1 ∨ byteSize (buildPayload source records) ≤ maxBytes then [records]
  else
    let mid := records.length / 2
    fitToByteBudget byteSize source maxBytes (records.take mid) ++ fitToByteBudget byteSize source maxBytes (records.drop mid)
termination_by records.length
decreasing_by
  · have hpos := List.length_pos_iff.2 ‹records ≠ []›
    rw [List.length_take]
    omega
  · have hpos := List.length_pos_iff.2 ‹records ≠ []›
    rw [List.length_drop]
    omega

/-! ### Isolation -/

structure IsolationBudget where
  maxRequests : Nat
  used : Nat
  deriving DecidableEq

def IsolationBudget.exhausted (budget : IsolationBudget) : Prop := budget.maxRequests ≤ budget.used

instance (budget : IsolationBudget) : Decidable budget.exhausted := inferInstanceAs (Decidable (_ ≤ _))

def IsolationBudget.consume (budget : IsolationBudget) : IsolationBudget := { budget with used := budget.used + 1 }

structure IsolationOutcome (ρ : Type) where
  delivered : List ρ := []
  quarantined : List ρ := []
  pending : List ρ := []
  lastCategory : Option FailureCategory := none
  lastError : Option Text := none
  budgetExhausted : Bool := false

/-- `first or second` of two texts or `None`. -/
def textOr (first second : Option Text) : Option Text :=
  match first with
  | none | some [] => second
  | some text => some text

/-- The outcome of two parts, the left one first. -/
def IsolationOutcome.join (left right : IsolationOutcome ρ) : IsolationOutcome ρ where
  delivered := left.delivered ++ right.delivered
  quarantined := left.quarantined ++ right.quarantined
  pending := left.pending ++ right.pending
  lastCategory := right.lastCategory.or left.lastCategory
  lastError := textOr right.lastError left.lastError
  budgetExhausted := left.budgetExhausted || right.budgetExhausted

/-- A request that was sent, and how it was answered. -/
structure Request (ρ : Type) where
  records : List ρ
  outcome : HttpOutcome

/-- An attempt: its outcome, the budget after it, and the requests it sent. -/
structure Attempt (ρ : Type) where
  outcome : IsolationOutcome ρ
  budget : IsolationBudget
  requests : List (Request ρ)

def Attempt.join (left right : Attempt ρ) : Attempt ρ :=
  ⟨left.outcome.join right.outcome, right.budget, left.requests ++ right.requests⟩

/-- `_attempt_and_isolate`, where `post` answers the request of a number in the cycle. No list it is called with is empty. -/
def attemptAndIsolate (post : Nat → List ρ → HttpOutcome) (records : List ρ) (budget : IsolationBudget) : Attempt ρ :=
  if budget.exhausted then ⟨{ pending := records, budgetExhausted := true }, budget, []⟩
  else
    let outcome := post budget.used records
    let spent := budget.consume
    if outcome.success then ⟨{ delivered := records }, spent, [⟨records, outcome⟩]⟩
    else if outcome.category = some .retryableInfra ∨ outcome.category = some .authFailure then
      ⟨{ pending := records, lastCategory := outcome.category, lastError := outcome.error }, spent, [⟨records, outcome⟩]⟩
    else if records.length ≤ 1 then
      ⟨{ quarantined := records, lastCategory := outcome.category, lastError := outcome.error }, spent, [⟨records, outcome⟩]⟩
    else
      let mid := records.length / 2
      let left := attemptAndIsolate post (records.take mid) spent
      let right := attemptAndIsolate post (records.drop mid) left.budget
      let halves := left.join right
      { halves with requests := ⟨records, outcome⟩ :: halves.requests }
termination_by records.length
decreasing_by
  · rw [List.length_take]
    omega
  · rw [List.length_drop]
    omega

/-- The loop over the chunks. -/
def attemptChunks (post : Nat → List ρ → HttpOutcome) : List (List ρ) → Attempt ρ → Attempt ρ
  | [], attempt => attempt
  | chunk :: chunks, attempt => attemptChunks post chunks (attempt.join (attemptAndIsolate post chunk attempt.budget))

/-! ### The spool -/

structure AttemptRecord where
  attempts : Nat
  category : Option FailureCategory
  lastError : Option Text
  lastAttemptAt : Option Text
  deriving DecidableEq

/-- The spool of one source: its pending files in listing order, each with its records or why it cannot be read, the
attempt records beside them, and what is in quarantine. -/
structure Spool (ρ : Type) where
  pending : List (Text × Except Text (List ρ))
  attempts : List (Text × AttemptRecord)
  isolated : List (List ρ × Text)
  corrupt : List (Text × Text)
  distinct : (pending.map Prod.fst).Nodup

/-- One change of the spool. -/
inductive DiskStep (ρ : Type) where
  | quarantineBatch (path reason : Text)
  | quarantineRecords (records : List ρ) (reason : Text)
  | acknowledge (path : Text)
  | recordAttemptFailure (path error : Text) (category : FailureCategory)

/-- `_sanitize_error`. -/
def sanitizeError (error : Text) : Text := if error.length ≤ 500 then error else error.take 500 ++ "...<truncated>".toList

/-- `_load_attempts`. -/
def Spool.loadAttempts (spool : Spool ρ) (path : Text) : AttemptRecord := (spool.attempts.lookup path).getD ⟨0, none, none, none⟩

/-- The spool without a file and the attempt record beside it. -/
def Spool.remove (spool : Spool ρ) (path : Text) : Spool ρ :=
  { spool with
    pending := spool.pending.filter fun file => file.1 ≠ path
    attempts := spool.attempts.filter fun sidecar => sidecar.1 ≠ path
    distinct := spool.distinct.sublist (List.filter_sublist.map _) }

def Spool.step (now : Text) (spool : Spool ρ) : DiskStep ρ → Spool ρ
  | .quarantineBatch path reason => { spool.remove path with corrupt := spool.corrupt ++ [(path, reason)] }
  | .quarantineRecords records reason => { spool with isolated := spool.isolated ++ [(records, reason)] }
  | .acknowledge path => spool.remove path
  | .recordAttemptFailure path error category =>
      let updated : AttemptRecord := ⟨(spool.loadAttempts path).attempts + 1, some category, some (sanitizeError error), some now⟩
      { spool with attempts := (path, updated) :: spool.attempts.filter fun sidecar => sidecar.1 ≠ path }

def Spool.run (now : Text) (spool : Spool ρ) (steps : List (DiskStep ρ)) : Spool ρ := steps.foldl (Spool.step now) spool

/-! ### One cycle -/

/-- The settings of the agent that an upload reads. -/
structure RuntimeConfig where
  uploaderMaxIsolationRequests : Nat := 20
  uploaderMaxUploadBodyBytes : Nat := 2 * 1024 * 1024

structure UploadCycleResult where
  source : SourceName
  attempted : Bool
  deliveredRecords : Nat := 0
  quarantinedRecords : Nat := 0
  pendingRecords : Nat := 0
  category : Option FailureCategory := none
  isolationBudgetExhausted : Bool := false
  corruptBatchQuarantined : Bool := false
  lastError : Option Text := none
  deriving DecidableEq

/-- A cycle: its result, the attempt behind it, and what it does to the spool, in order. -/
structure Cycle (ρ : Type) where
  result : UploadCycleResult
  attempt : Attempt ρ
  steps : List (DiskStep ρ)

/-- The steps at the end of an attempt on the records of a file. -/
def closingSteps (path : Text) (outcome : IsolationOutcome ρ) : List (DiskStep ρ) :=
  if outcome.pending = [] ∧ outcome.budgetExhausted = false then
    (if outcome.quarantined = [] then []
      else [.quarantineRecords outcome.quarantined ((textOr outcome.lastError none).getD "permanent rejection, isolated".toList)])
      ++ [.acknowledge path]
  else [.recordAttemptFailure path ((textOr outcome.lastError none).getD "unknown error".toList)
    (outcome.lastCategory.getD .retryableInfra)]

section Cycle

variable (repr : Json → Text) (byteSize : Batch ρ → Nat) (cfg : RuntimeConfig) (source : SourceName)

/-- The attempt on the records of a file. `server` answers the request of a number in the cycle. -/
def attemptFile (server : Nat → Batch ρ → Response) (records : List ρ) : Attempt ρ :=
  attemptChunks (fun number chunk => postJson repr (server number (buildPayload source chunk)))
    (fitToByteBudget byteSize source cfg.uploaderMaxUploadBodyBytes records)
    ⟨{}, ⟨cfg.uploaderMaxIsolationRequests, 0⟩, []⟩

/-- `upload_one_pending_batch`. -/
def uploadOnePendingBatch (server : Nat → Batch ρ → Response) (spool : Spool ρ) : Option (Cycle ρ) :=
  match spool.pending with
  | [] => none
  | (path, .error reason) :: _ =>
      some ⟨{ source, attempted := false, corruptBatchQuarantined := true }, ⟨{}, ⟨cfg.uploaderMaxIsolationRequests, 0⟩, []⟩,
        [.quarantineBatch path reason]⟩
  | (path, .ok records) :: _ =>
      let attempt := attemptFile repr byteSize cfg source server records
      some
        { result :=
            { source
              attempted := true
              deliveredRecords := attempt.outcome.delivered.length
              quarantinedRecords := attempt.outcome.quarantined.length
              pendingRecords := attempt.outcome.pending.length
              category := attempt.outcome.lastCategory
              isolationBudgetExhausted := attempt.outcome.budgetExhausted
              lastError := attempt.outcome.lastError }
          attempt
          steps := closingSteps path attempt.outcome }

end Cycle

/-! ### The chunks -/

/-- The chunks hold the records of the file, in order. -/
theorem flatten_fitToByteBudget (byteSize : Batch ρ → Nat) (source : SourceName) (maxBytes : Nat) (records : List ρ) :
    (fitToByteBudget byteSize source maxBytes records).flatten = records := by
  induction records using fitToByteBudget.induct byteSize source maxBytes with
  | case1 => rw [fitToByteBudget, if_pos rfl, List.flatten_nil]
  | case2 records hne hsmall => rw [fitToByteBudget, if_neg hne, if_pos hsmall, List.flatten_singleton]
  | case3 records hne hlarge mid ihleft ihright =>
      rw [fitToByteBudget, if_neg hne, if_neg hlarge, List.flatten_append]
      exact (congrArg₂ _ ihleft ihright).trans (List.take_append_drop _ _)

theorem ne_nil_of_mem_fitToByteBudget {byteSize : Batch ρ → Nat} {source : SourceName} {maxBytes : Nat} {records chunk : List ρ}
    (hchunk : chunk ∈ fitToByteBudget byteSize source maxBytes records) : chunk ≠ [] := by
  induction records using fitToByteBudget.induct byteSize source maxBytes with
  | case1 =>
      rw [fitToByteBudget, if_pos rfl] at hchunk
      cases hchunk
  | case2 records hne hsmall =>
      rw [fitToByteBudget, if_neg hne, if_pos hsmall] at hchunk
      rw [List.mem_singleton.1 hchunk]
      exact hne
  | case3 records hne hlarge mid ihleft ihright =>
      rw [fitToByteBudget, if_neg hne, if_neg hlarge] at hchunk
      rcases List.mem_append.1 hchunk with hleft | hright
      · exact ihleft hleft
      · exact ihright hright

/-! ### What an attempt accounts for -/

/-- The record of this request was rejected alone. -/
def Request.rejectedAlone (request : Request ρ) : Bool :=
  !request.outcome.success && request.outcome.category == some .permanentRejection && request.records.length == 1

/-- What holds between the records an attempt is given, the budget before it and what it comes to. -/
structure Accounts (records : List ρ) (budget : IsolationBudget) (attempt : Attempt ρ) : Prop where
  every : (attempt.outcome.delivered ++ attempt.outcome.quarantined ++ attempt.outcome.pending).Perm records
  delivered : attempt.outcome.delivered.Sublist records
  quarantined : attempt.outcome.quarantined.Sublist records
  pending : attempt.outcome.pending.Sublist records
  fromSuccess : attempt.outcome.delivered = (attempt.requests.filter (·.outcome.success)).flatMap (·.records)
  fromRejected : attempt.outcome.quarantined = (attempt.requests.filter Request.rejectedAlone).flatMap (·.records)
  exhausted : attempt.outcome.budgetExhausted = true → attempt.outcome.pending ≠ []
  maxRequests : attempt.budget.maxRequests = budget.maxRequests
  used : attempt.budget.used = budget.used + attempt.requests.length
  within : budget.used ≤ budget.maxRequests → attempt.budget.used ≤ budget.maxRequests

theorem Accounts.join {left right : List ρ} {budget : IsolationBudget} {first second : Attempt ρ} (hfirst : Accounts left budget first)
    (hsecond : Accounts right first.budget second) : Accounts (left ++ right) budget (first.join second) where
  every := by
    refine List.Perm.trans ?_ (hfirst.every.append hsecond.every)
    rw [← Multiset.coe_eq_coe]
    simp only [Attempt.join, IsolationOutcome.join, ← Multiset.coe_add]
    abel
  delivered := hfirst.delivered.append hsecond.delivered
  quarantined := hfirst.quarantined.append hsecond.quarantined
  pending := hfirst.pending.append hsecond.pending
  fromSuccess := by
    simp only [Attempt.join, IsolationOutcome.join, List.filter_append, List.flatMap_append, hfirst.fromSuccess, hsecond.fromSuccess]
  fromRejected := by
    simp only [Attempt.join, IsolationOutcome.join, List.filter_append, List.flatMap_append, hfirst.fromRejected,
      hsecond.fromRejected]
  exhausted := by
    simp only [Attempt.join, IsolationOutcome.join, Bool.or_eq_true, ne_eq, List.append_eq_nil_iff, not_and_or]
    exact Or.imp hfirst.exhausted hsecond.exhausted
  maxRequests := hsecond.maxRequests.trans hfirst.maxRequests
  used := by
    simp only [Attempt.join, List.length_append, hsecond.used, hfirst.used, Nat.add_assoc]
  within := by
    intro hbudget
    have hwithin := hsecond.within
    rw [hfirst.maxRequests] at hwithin
    exact hwithin (hfirst.within hbudget)

theorem accounts_nothing (budget : IsolationBudget) : Accounts ([] : List ρ) budget ⟨{}, budget, []⟩ where
  every := List.Perm.refl _
  delivered := List.Sublist.refl _
  quarantined := List.Sublist.refl _
  pending := List.Sublist.refl _
  fromSuccess := rfl
  fromRejected := rfl
  exhausted := fun h => nomatch h
  maxRequests := rfl
  used := rfl
  within := id

/-- The answers of a server come in four kinds. -/
def Classified (post : Nat → List ρ → HttpOutcome) : Prop :=
  ∀ number records, (post number records).success = false →
    (post number records).category = some .retryableInfra ∨ (post number records).category = some .authFailure
      ∨ (post number records).category = some .permanentRejection

theorem okOutcome_category (repr : Json → Text) (body : Option (List (Text × Json))) (hfailed : (okOutcome repr body).success = false) :
    (okOutcome repr body).category = some .retryableInfra := by
  cases body with
  | none => rfl
  | some body =>
      rw [okOutcome] at hfailed ⊢
      split at hfailed
      · next hstatus => rw [if_pos hstatus]
      · cases hfailed

/-- `post_json` reads every answer as one of the four. -/
theorem postJson_category (repr : Json → Text) (response : Response) (hfailed : (postJson repr response).success = false) :
    (postJson repr response).category = some .retryableInfra ∨ (postJson repr response).category = some .authFailure
      ∨ (postJson repr response).category = some .permanentRejection := by
  cases response with
  | timeout exc => exact Or.inl rfl
  | connectionError exc => exact Or.inl rfl
  | requestException exc => exact Or.inl rfl
  | answer statusCode text body =>
      rw [postJson] at hfailed ⊢
      dsimp only at hfailed ⊢
      split
      · next hok =>
        rw [if_pos hok] at hfailed
        exact Or.inl (okOutcome_category repr body hfailed)
      · split
        · exact Or.inr (Or.inl rfl)
        · split
          · exact Or.inr (Or.inr rfl)
          · split
            · exact Or.inl rfl
            · exact Or.inl rfl

theorem consume_within {budget : IsolationBudget} (hbudget : ¬ budget.exhausted) (_ : budget.used ≤ budget.maxRequests) :
    budget.consume.used ≤ budget.maxRequests := Nat.lt_of_not_le hbudget

theorem permanent_of_rejected {post : Nat → List ρ → HttpOutcome} (hpost : Classified post) {number : Nat} {records : List ρ}
    (hfailed : ¬ (post number records).success = true)
    (hrejected : ¬ ((post number records).category = some .retryableInfra ∨ (post number records).category = some .authFailure)) :
    (post number records).category = some .permanentRejection := by
  rcases hpost number records (by simpa using hfailed) with hretry | hauth | hpermanent
  · exact absurd (Or.inl hretry) hrejected
  · exact absurd (Or.inr hauth) hrejected
  · exact hpermanent

/-- An attempt accounts for every record it is given. -/
theorem attemptAndIsolate_accounts {post : Nat → List ρ → HttpOutcome} (hpost : Classified post) {records : List ρ} (hne : records ≠ [])
    (budget : IsolationBudget) : Accounts records budget (attemptAndIsolate post records budget) := by
  induction records, budget using attemptAndIsolate.induct post with
  | case1 records budget hexhausted =>
      rw [attemptAndIsolate, if_pos hexhausted]
      exact {
        every := List.Perm.refl _
        delivered := List.nil_sublist _
        quarantined := List.nil_sublist _
        pending := List.Sublist.refl _
        fromSuccess := rfl
        fromRejected := rfl
        exhausted := fun _ => hne
        maxRequests := rfl
        used := rfl
        within := id }
  | case2 records budget hleft outcome hsuccess =>
      have houtcome : (post budget.used records).success = true := hsuccess
      rw [attemptAndIsolate, if_neg hleft]
      dsimp only
      rw [if_pos houtcome]
      exact {
        every := by simp
        delivered := List.Sublist.refl _
        quarantined := List.nil_sublist _
        pending := List.nil_sublist _
        fromSuccess := by simp [houtcome]
        fromRejected := by simp [Request.rejectedAlone, houtcome]
        exhausted := fun h => nomatch h
        maxRequests := rfl
        used := rfl
        within := consume_within hleft }
  | case3 records budget hleft outcome hfailed hkept =>
      have houtcome : ¬ (post budget.used records).success = true := hfailed
      have hcategory : (post budget.used records).category ≠ some .permanentRejection := by
        rcases hkept with hkept | hkept
        · exact fun h => nomatch hkept.symm.trans h
        · exact fun h => nomatch hkept.symm.trans h
      rw [attemptAndIsolate, if_neg hleft]
      dsimp only
      rw [if_neg houtcome, if_pos hkept]
      exact {
        every := List.Perm.refl _
        delivered := List.nil_sublist _
        quarantined := List.nil_sublist _
        pending := List.Sublist.refl _
        fromSuccess := by simp [houtcome]
        fromRejected := by simp [Request.rejectedAlone, hcategory]
        exhausted := fun h => nomatch h
        maxRequests := rfl
        used := rfl
        within := consume_within hleft }
  | case4 records budget hleft outcome hfailed hrejected hsingle =>
      have houtcome : ¬ (post budget.used records).success = true := hfailed
      have hcategory := permanent_of_rejected hpost houtcome hrejected
      have hlength : records.length = 1 := Nat.le_antisymm hsingle (List.length_pos_iff.2 hne)
      rw [attemptAndIsolate, if_neg hleft]
      dsimp only
      rw [if_neg houtcome, if_neg hrejected, if_pos hsingle]
      exact {
        every := by simp
        delivered := List.nil_sublist _
        quarantined := List.Sublist.refl _
        pending := List.nil_sublist _
        fromSuccess := by simp [houtcome]
        fromRejected := by simp [Request.rejectedAlone, houtcome, hcategory, hlength]
        exhausted := fun h => nomatch h
        maxRequests := rfl
        used := rfl
        within := consume_within hleft }
  | case5 records budget hleft outcome spent hfailed hrejected hmany mid left ihleft _ ihright =>
      have houtcome : ¬ (post budget.used records).success = true := hfailed
      have hhalves := (ihleft (List.ne_nil_of_length_pos (by rw [List.length_take]; omega))).join
        (ihright (List.ne_nil_of_length_pos (by rw [List.length_drop]; omega)))
      rw [List.take_append_drop] at hhalves
      rw [attemptAndIsolate, if_neg hleft]
      dsimp only
      rw [if_neg houtcome, if_neg hrejected, if_neg hmany]
      exact {
        every := hhalves.every
        delivered := hhalves.delivered
        quarantined := hhalves.quarantined
        pending := hhalves.pending
        fromSuccess := by
          rw [List.filter_cons_of_neg (by exact houtcome)]
          exact hhalves.fromSuccess
        fromRejected := by
          rw [List.filter_cons_of_neg (by simp [Request.rejectedAlone]; omega)]
          exact hhalves.fromRejected
        exhausted := hhalves.exhausted
        maxRequests := hhalves.maxRequests
        used := hhalves.used.trans (Nat.succ_add_eq_add_succ _ _)
        within := fun hbudget => hhalves.within (consume_within hleft hbudget) }

theorem attemptChunks_accounts {post : Nat → List ρ → HttpOutcome} (hpost : Classified post) {chunks : List (List ρ)}
    (hne : ∀ chunk ∈ chunks, chunk ≠ []) {records : List ρ} {budget : IsolationBudget} {attempt : Attempt ρ}
    (hattempt : Accounts records budget attempt) :
    Accounts (records ++ chunks.flatten) budget (attemptChunks post chunks attempt) := by
  induction chunks generalizing records attempt with
  | nil =>
      rw [List.flatten_nil, List.append_nil]
      exact hattempt
  | cons chunk chunks ih =>
      have hchunk := attemptAndIsolate_accounts hpost (hne chunk (List.mem_cons_self ..)) attempt.budget
      rw [List.flatten_cons, ← List.append_assoc]
      exact ih (fun other hother => hne other (List.mem_cons_of_mem _ hother)) (hattempt.join hchunk)

/-! ### What a cycle leaves -/

section Cycle

variable (repr : Json → Text) (byteSize : Batch ρ → Nat) (cfg : RuntimeConfig) (source : SourceName)

theorem attemptFile_accounts (server : Nat → Batch ρ → Response) (records : List ρ) :
    Accounts records ⟨cfg.uploaderMaxIsolationRequests, 0⟩ (attemptFile repr byteSize cfg source server records) := by
  have hclassified : Classified fun number chunk => postJson repr (server number (buildPayload source chunk)) :=
    fun _ _ => postJson_category repr _
  have hne : ∀ chunk ∈ fitToByteBudget byteSize source cfg.uploaderMaxUploadBodyBytes records, chunk ≠ [] :=
    fun _ hchunk => ne_nil_of_mem_fitToByteBudget hchunk
  have hchunks := attemptChunks_accounts hclassified hne (accounts_nothing ⟨cfg.uploaderMaxIsolationRequests, 0⟩)
  rw [flatten_fitToByteBudget, List.nil_append] at hchunks
  exact hchunks

theorem Spool.pending_remove {spool : Spool ρ} {path : Text} {content : Except Text (List ρ)}
    {rest : List (Text × Except Text (List ρ))} (hpending : spool.pending = (path, content) :: rest) :
    (spool.remove path).pending = rest := by
  have hdistinct := spool.distinct
  rw [hpending, List.map_cons, List.nodup_cons] at hdistinct
  show spool.pending.filter (fun file => file.1 ≠ path) = rest
  rw [hpending, List.filter_cons_of_neg (by simp), List.filter_eq_self]
  intro file hfile
  rw [decide_eq_true_eq]
  intro heq
  exact hdistinct.1 (List.mem_map.2 ⟨file, hfile, heq⟩)

/-- The steps of an attempt that leaves nothing pending. -/
theorem closingSteps_of_pending_nil (path : Text) {outcome : IsolationOutcome ρ} (hpending : outcome.pending = [])
    (hexhausted : outcome.budgetExhausted = true → outcome.pending ≠ []) :
    ∃ reason, closingSteps path outcome
      = (if outcome.quarantined = [] then [] else [.quarantineRecords outcome.quarantined reason]) ++ [.acknowledge path] := by
  have hleft : outcome.budgetExhausted = false := by
    rw [← Bool.not_eq_true]
    exact fun h => hexhausted h hpending
  exact ⟨_, if_pos ⟨hpending, hleft⟩⟩

theorem closingSteps_of_pending (path : Text) {outcome : IsolationOutcome ρ} (hpending : outcome.pending ≠ []) :
    ∃ error category, closingSteps path outcome = [.recordAttemptFailure path error category] :=
  ⟨_, _, if_neg fun h => hpending h.1⟩

/-- A cycle on a file that can be read. -/
theorem uploadOnePendingBatch_ok {server : Nat → Batch ρ → Response} {spool : Spool ρ} {path : Text} {records : List ρ}
    {rest : List (Text × Except Text (List ρ))} (hpending : spool.pending = (path, .ok records) :: rest) {cycle : Cycle ρ}
    (hcycle : uploadOnePendingBatch repr byteSize cfg source server spool = some cycle) :
    cycle.attempt = attemptFile repr byteSize cfg source server records
      ∧ cycle.steps = closingSteps path (attemptFile repr byteSize cfg source server records).outcome := by
  rw [uploadOnePendingBatch, hpending] at hcycle
  cases hcycle
  exact ⟨rfl, rfl⟩

/-- One cycle sends at most as many requests as its budget has. Each record of the batch is delivered by a request
that was answered success, quarantined after it was rejected alone, or pending. The file goes exactly when nothing
is pending, after the quarantined records are written as evidence; else the files stay as they are. -/
theorem upload_accounts_for_records (server : Nat → Batch ρ → Response) (now : Text) (spool : Spool ρ) (path : Text) (records : List ρ)
    (rest : List (Text × Except Text (List ρ))) (hpending : spool.pending = (path, .ok records) :: rest) :
    ∃ cycle, uploadOnePendingBatch repr byteSize cfg source server spool = some cycle
      ∧ cycle.attempt.requests.length ≤ cfg.uploaderMaxIsolationRequests
      ∧ (cycle.attempt.outcome.delivered ++ cycle.attempt.outcome.quarantined ++ cycle.attempt.outcome.pending).Perm records
      ∧ cycle.attempt.outcome.delivered.Sublist records ∧ cycle.attempt.outcome.quarantined.Sublist records
      ∧ cycle.attempt.outcome.pending.Sublist records
      ∧ cycle.attempt.outcome.delivered = (cycle.attempt.requests.filter (·.outcome.success)).flatMap (·.records)
      ∧ cycle.attempt.outcome.quarantined = (cycle.attempt.requests.filter Request.rejectedAlone).flatMap (·.records)
      ∧ (.acknowledge path ∈ cycle.steps ↔ cycle.attempt.outcome.pending = [])
      ∧ (cycle.attempt.outcome.pending = [] → (∃ reason, cycle.steps = (if cycle.attempt.outcome.quarantined = [] then []
            else [.quarantineRecords cycle.attempt.outcome.quarantined reason]) ++ [.acknowledge path])
          ∧ (spool.run now cycle.steps).pending = rest
          ∧ (spool.run now cycle.steps).isolated.flatMap (·.1) = spool.isolated.flatMap (·.1) ++ cycle.attempt.outcome.quarantined)
      ∧ (cycle.attempt.outcome.pending ≠ [] → (spool.run now cycle.steps).pending = spool.pending
          ∧ (spool.run now cycle.steps).isolated = spool.isolated) := by
  have haccounts := attemptFile_accounts repr byteSize cfg source server records
  have hused := haccounts.used
  have hwithin := haccounts.within (Nat.zero_le _)
  refine ⟨_, by rw [uploadOnePendingBatch, hpending], ?_, haccounts.every, haccounts.delivered, haccounts.quarantined,
    haccounts.pending, haccounts.fromSuccess, haccounts.fromRejected, ?_, ?_, ?_⟩
  · dsimp only at hused hwithin ⊢
    omega
  · constructor
    · intro hmem
      by_contra hsome
      obtain ⟨error, category, hsteps⟩ := closingSteps_of_pending path hsome
      dsimp only at hmem
      rw [hsteps, List.mem_singleton] at hmem
      cases hmem
    · intro hnone
      obtain ⟨reason, hsteps⟩ := closingSteps_of_pending_nil path hnone haccounts.exhausted
      dsimp only
      rw [hsteps]
      exact List.mem_append_right _ (List.mem_singleton_self _)
  · intro hnone
    obtain ⟨reason, hsteps⟩ := closingSteps_of_pending_nil path hnone haccounts.exhausted
    refine ⟨⟨reason, hsteps⟩, ?_⟩
    dsimp only
    rw [hsteps]
    split
    · next hempty =>
      rw [hempty, List.append_nil]
      exact ⟨Spool.pending_remove hpending, rfl⟩
    · refine ⟨Spool.pending_remove hpending, ?_⟩
      show (spool.isolated ++ [_]).flatMap _ = _
      rw [List.flatMap_append, List.flatMap_singleton]
  · intro hsome
    obtain ⟨error, category, hsteps⟩ := closingSteps_of_pending path hsome
    dsimp only
    rw [hsteps]
    exact ⟨rfl, rfl⟩

end Cycle

/-- Two batches of numbers. -/
def numberSpool : Spool Nat := ⟨[("batch-1".toList, .ok [1, 2]), ("batch-2".toList, .ok [3])], [], [], [], by decide⟩

/-- A server that is out of reach after the first request. -/
def lostServer (number : Nat) (_ : Batch Nat) : Response :=
  if number = 0 then .answer 400 "bad request".toList none else .connectionError "refused".toList

/-- The first batch is rejected and then stays, with both records pending. -/
theorem upload_accounts_for_numbers :
    ∃ cycle, uploadOnePendingBatch (fun _ => []) (fun _ => 0) {} .checkins lostServer numberSpool = some cycle
      ∧ cycle.attempt.requests.length ≤ 20 ∧ cycle.attempt.outcome.delivered.Sublist [1, 2]
      ∧ (cycle.attempt.outcome.pending ≠ [] →
        (numberSpool.run "2026-01-01".toList cycle.steps).pending.map Prod.fst = ["batch-1".toList, "batch-2".toList]) := by
  obtain ⟨cycle, hcycle, hrequests, -, hdelivered, -, -, -, -, -, -, hkept⟩ := upload_accounts_for_records (fun _ => [])
    (fun _ => 0) {} .checkins lostServer "2026-01-01".toList numberSpool "batch-1".toList [1, 2] [("batch-2".toList, .ok [3])] rfl
  refine ⟨cycle, hcycle, hrequests, hdelivered, ?_⟩
  intro hpending
  rw [(hkept hpending).1]
  rfl

end SpoolUploader

end SortView
