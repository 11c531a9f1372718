import SortView.Lib.Slices
import SortView.Collector.Parsers

/-!
# The upload client (`collector/uploader.py`)

Records go out in batches of bounded slices of the three record lists, one request a batch, until the
first batch that fails.
-/

namespace SortView

open PyText Slices

/-- Records of the three sources: the body of one request, or the rows a server holds. -/
structure Batch (ρ : Type) where
  checkins : List ρ
  rejects : List ρ
  acs : List ρ
  deriving DecidableEq

/-- The records of one source. -/
def Batch.of {ρ : Type} (batch : Batch ρ) : SourceName → List ρ
  | .checkins => batch.checkins
  | .rejects => batch.rejects
  | .acs => batch.acs

namespace Uploader

inductive FailureCategory where
  | retryableInfra
  | authFailure
  | permanentRejection
  deriving DecidableEq

/-- The JSON body of an answer. -/
structure Body where
  status : Option Text
  checkinsInserted : Int
  rejectsInserted : Int
  acsInserted : Int
  deriving DecidableEq

/-- What `session.post` gives: an exception of the transport, or an answer whose body may not be JSON. -/
inductive Response where
  | timeout
  | connectionError
  | requestException
  | answer (statusCode : Nat) (body : Option Body)
  deriving DecidableEq

structure UploadOutcome where
  success : Bool
  category : Option FailureCategory
  statusCode : Option Nat
  body : Option Body
  deriving DecidableEq

def retryableStatusCodes : List Nat := [429, 500, 502, 503, 504]
def authStatusCodes : List Nat := [401, 403]
def permanentRejectionStatusCodes : List Nat := [400, 413]

/-- How `_post_json` reads the answer to a request. -/
def postJson : Response → UploadOutcome
  | .timeout | .connectionError | .requestException => ⟨false, some .retryableInfra, none, none⟩
  | .answer statusCode body =>
      if statusCode = 200 then
        match body with
        | none => ⟨false, some .retryableInfra, some 200, none⟩
        | some body =>
            if body.status ≠ some "success".toList then ⟨false, some .retryableInfra, some 200, some body⟩
            else ⟨true, none, some 200, some body⟩
      else if statusCode ∈ authStatusCodes then ⟨false, some .authFailure, some statusCode, none⟩
      else if statusCode ∈ permanentRejectionStatusCodes then ⟨false, some .permanentRejection, some statusCode, none⟩
      else ⟨false, some .retryableInfra, some statusCode, none⟩

variable {ρ : Type}

def buildBatches (checkins rejects acs : List ρ) (maxRecordsPerBatch : Nat) : List (Batch ρ) :=
  let total := max checkins.length (max rejects.length acs.length)
  if total = 0 then []
  else
    ((List.range (sliceCount total maxRecordsPerBatch)).map fun i =>
        ⟨slice checkins maxRecordsPerBatch i, slice rejects maxRecordsPerBatch i, slice acs maxRecordsPerBatch i⟩).filter
      fun batch => !(batch.checkins.isEmpty && batch.rejects.isEmpty && batch.acs.isEmpty)

structure UploadRunResult where
  success : Bool
  batchesAttempted : Nat
  batchesDelivered : Nat
  failure : Option UploadOutcome
  lastResponseBody : Option Body
  checkinsInserted : Int
  rejectsInserted : Int
  acsInserted : Int
  lastStatusCode : Option Nat

/-- The answer to a request, and whether the server stored the batch. A server that answers 200 with
status `success` has stored it; one whose answer is a failure may have. -/
structure Reply where
  response : Response
  stored : Bool
  stored_of_success : (postJson response).success = true → stored = true

def UploadRunResult.start : UploadRunResult := ⟨true, 0, 0, none, none, 0, 0, 0, none⟩

def UploadRunResult.fail (result : UploadRunResult) (outcome : UploadOutcome) : UploadRunResult :=
  { result with
    success := false
    batchesAttempted := result.batchesAttempted + 1
    failure := some outcome
    lastStatusCode := outcome.statusCode }

def UploadRunResult.deliver (result : UploadRunResult) (outcome : UploadOutcome) : UploadRunResult :=
  let inserted (count : Body → Int) : Int := (outcome.body.map count).getD 0
  { result with
    batchesAttempted := result.batchesAttempted + 1
    batchesDelivered := result.batchesDelivered + 1
    lastResponseBody := outcome.body
    checkinsInserted := result.checkinsInserted + inserted Body.checkinsInserted
    rejectsInserted := result.rejectsInserted + inserted Body.rejectsInserted
    acsInserted := result.acsInserted + inserted Body.acsInserted
    lastStatusCode := outcome.statusCode }

/-- The loop of `upload_records`, with the requests it made and their replies. -/
def postBatches (reply : Nat → Reply) :
    List (Batch ρ) → UploadRunResult → UploadRunResult × List (Batch ρ × Reply)
  | [], result => (result, [])
  | batch :: batches, result =>
      let answer := reply result.batchesAttempted
      let outcome := postJson answer.response
      if outcome.success = false then (result.fail outcome, [(batch, answer)])
      else
        let next := postBatches reply batches (result.deliver outcome)
        (next.1, (batch, answer) :: next.2)

def uploadRecords (reply : Nat → Reply) (checkins rejects acs : List ρ) (maxRecordsPerBatch : Nat) :
    UploadRunResult × List (Batch ρ × Reply) :=
  postBatches reply (buildBatches checkins rejects acs maxRecordsPerBatch) .start

/-! ### The slices lose and repeat nothing -/

theorem flatMap_filter_eq {α β : Type} {f : α → List β} {keep : α → Bool} {xs : List α}
    (h : ∀ x ∈ xs, keep x = false → f x = []) : (xs.filter keep).flatMap f = xs.flatMap f := by
  induction xs with
  | nil => rfl
  | cons x xs ih =>
      have hxs := ih fun y hy => h y (List.mem_cons_of_mem _ hy)
      rw [List.filter_cons, List.flatMap_cons]
      split
      · rw [List.flatMap_cons, hxs]
      · next hkeep =>
        rw [hxs, h x (List.mem_cons_self ..) (by simpa using hkeep), List.nil_append]

/-- The batches hold every record of every source once, in order. -/
theorem flatMap_buildBatches (checkins rejects acs : List ρ) {size : Nat} (hsize : 1 ≤ size) (source : SourceName) :
    (buildBatches checkins rejects acs size).flatMap (Batch.of · source)
      = Batch.of ⟨checkins, rejects, acs⟩ source := by
  rw [buildBatches]
  by_cases hnone : max checkins.length (max rejects.length acs.length) = 0
  · have hempty : checkins = [] ∧ rejects = [] ∧ acs = [] := by
      refine ⟨List.length_eq_zero_iff.1 ?_, List.length_eq_zero_iff.1 ?_, List.length_eq_zero_iff.1 ?_⟩ <;> omega
    obtain ⟨rfl, rfl, rfl⟩ := hempty
    cases source <;> rfl
  · simp only [if_neg hnone]
    rw [flatMap_filter_eq]
    · rw [List.flatMap_map]
      cases source with
      | checkins => exact (flatMap_slice checkins size _).trans (take_sliceCount hsize (by omega))
      | rejects => exact (flatMap_slice rejects size _).trans (take_sliceCount hsize (by omega))
      | acs => exact (flatMap_slice acs size _).trans (take_sliceCount hsize (by omega))
    · intro batch _ hkeep
      simp only [Bool.not_eq_false', Bool.and_eq_true, List.isEmpty_iff] at hkeep
      cases source with
      | checkins => exact hkeep.1.1
      | rejects => exact hkeep.1.2
      | acs => exact hkeep.2

/-! ### What an upload has sent -/

/-- An upload sends its batches in order, and stops at the first one that fails. -/
theorem postBatches_sent (reply : Nat → Reply) (batches : List (Batch ρ)) {result : UploadRunResult}
    (hresult : result.success = true) :
    (postBatches reply batches result).2.map Prod.fst <+: batches
      ∧ ((postBatches reply batches result).1.success = true →
          (postBatches reply batches result).2.map Prod.fst = batches
            ∧ ∀ sent ∈ (postBatches reply batches result).2, sent.2.stored = true) := by
  induction batches generalizing result with
  | nil => exact ⟨List.prefix_rfl, fun _ => ⟨rfl, by simp [postBatches]⟩⟩
  | cons batch batches ih =>
      rw [postBatches]
      dsimp only
      split
      · refine ⟨⟨batches, rfl⟩, ?_⟩
        intro hsuccess
        exact absurd hsuccess (by simp [UploadRunResult.fail])
      · next houtcome =>
        have hsuccess : (postJson (reply result.batchesAttempted).response).success = true := by
          simpa using houtcome
        have hdeliver : (result.deliver (postJson (reply result.batchesAttempted).response)).success = true := hresult
        obtain ⟨hbegin, hall⟩ := ih hdeliver
        refine ⟨by rw [List.map_cons, List.prefix_cons_inj]; exact hbegin, ?_⟩
        intro hrun
        obtain ⟨hsent, hstored⟩ := hall hrun
        refine ⟨by rw [List.map_cons, hsent], ?_⟩
        intro sent hmem
        rcases List.mem_cons.1 hmem with rfl | hmem
        · exact (reply _).stored_of_success hsuccess
        · exact hstored sent hmem

end Uploader

end SortView
