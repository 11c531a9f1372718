import SortView.Agent.PoisonIsolation

/-!
# What the isolation of a batch costs

Against a server that rejects exactly the requests with a poison record, halving needs a fixed number of
requests. A batch that needs more than one cycle may send stays at the head of its source: the next cycle
starts again from the whole file and stops at the same place.
-/

namespace SortView

open PyText

namespace SpoolUploader

variable {ρ : Type}

/-- The server rejects for good exactly the requests with a poison record. -/
def RejectsPoison (poison : ρ → Bool) (post : Nat → List ρ → HttpOutcome) : Prop :=
  ∀ number records, (post number records).success = !records.any poison
    ∧ (records.any poison = true → (post number records).category = some .permanentRejection)

/-- The requests that the isolation of a list takes: one for each list that is reached by halving lists of several
records with poison among them. -/
def isolationRequests (poison : ρ → Bool) (records : List ρ) : Nat :=
  if records.length ≤ 1 ∨ records.any poison = false then 1
  else
    let mid := records.length / 2
    1 + isolationRequests poison (records.take mid) + isolationRequests poison (records.drop mid)
termination_by records.length
decreasing_by
  · rw [List.length_take]
    omega
  · rw [List.length_drop]
    omega

/-- The requests for all chunks of a file. -/
def fileRequests (poison : ρ → Bool) (chunks : List (List ρ)) : Nat := (chunks.map (isolationRequests poison)).sum

theorem isolationRequests_pos (poison : ρ → Bool) (records : List ρ) : 0 < isolationRequests poison records := by
  rw [isolationRequests]
  split
  · exact Nat.one_pos
  · dsimp only
    omega

/-- A list of poison records alone takes a request for each node of its halving tree. -/
theorem isolationRequests_of_all {poison : ρ → Bool} {records : List ρ} (hne : records ≠ []) (hall : ∀ record ∈ records, poison record = true) :
    isolationRequests poison records = 2 * records.length - 1 := by
  induction records using isolationRequests.induct poison with
  | case1 records hstop =>
      rw [isolationRequests, if_pos hstop]
      obtain ⟨first, rest, rfl⟩ := List.exists_cons_of_ne_nil hne
      have hany : (first :: rest).any poison = true := by
        rw [List.any_cons, hall first (List.mem_cons_self ..), Bool.true_or]
      rcases hstop with hshort | hclean
      · rw [List.length_cons] at hshort ⊢
        omega
      · exact absurd (hany.symm.trans hclean) (by decide)
  | case2 records hsplit mid ihleft ihright =>
      have hlength : 1 < records.length := Nat.lt_of_not_le fun h => hsplit (Or.inl h)
      rw [isolationRequests, if_neg hsplit]
      dsimp only
      rw [ihleft (List.ne_nil_of_length_pos (by rw [List.length_take]; omega)) fun record h => hall record (List.mem_of_mem_take h),
        ihright (List.ne_nil_of_length_pos (by rw [List.length_drop]; omega)) fun record h => hall record (List.mem_of_mem_drop h),
        List.length_take, List.length_drop]
      omega

/-! ### One attempt -/

/-- What an attempt comes to against such a server: it spends what the records take or all that is left, and when that
is enough it parts the poison from the rest. -/
structure Isolated (poison : ρ → Bool) (records : List ρ) (budget : IsolationBudget) (cost : Nat) (attempt : Attempt ρ) : Prop where
  maxRequests : attempt.budget.maxRequests = budget.maxRequests
  used : attempt.budget.used = min budget.maxRequests (budget.used + cost)
  exhausted : attempt.outcome.budgetExhausted = decide (budget.maxRequests < budget.used + cost)
  parted : budget.used + cost ≤ budget.maxRequests →
    attempt.outcome.delivered = records.filter (fun record => !poison record)
      ∧ attempt.outcome.quarantined = records.filter poison ∧ attempt.outcome.pending = []

theorem Isolated.join {poison : ρ → Bool} {left right : List ρ} {budget : IsolationBudget} {leftCost rightCost : Nat}
    {first second : Attempt ρ} (hfirst : Isolated poison left budget leftCost first)
    (hsecond : Isolated poison right first.budget rightCost second) (hpos : 0 < rightCost) :
    Isolated poison (left ++ right) budget (leftCost + rightCost) (first.join second) where
  maxRequests := hsecond.maxRequests.trans hfirst.maxRequests
  used := by
    show second.budget.used = _
    rw [hsecond.used, hfirst.used, hfirst.maxRequests]
    omega
  exhausted := by
    show (first.outcome.budgetExhausted || second.outcome.budgetExhausted) = _
    rw [hfirst.exhausted, hsecond.exhausted, hfirst.used, hfirst.maxRequests, ← Bool.decide_or, decide_eq_decide]
    omega
  parted := by
    intro hfits
    have hused := hfirst.used
    obtain ⟨hdelivered, hquarantined, hpending⟩ := hfirst.parted (by omega)
    obtain ⟨hdelivered', hquarantined', hpending'⟩ := hsecond.parted (by rw [hfirst.maxRequests]; omega)
    refine ⟨?_, ?_, ?_⟩
    · show first.outcome.delivered ++ second.outcome.delivered = _
      rw [hdelivered, hdelivered', List.filter_append]
    · show first.outcome.quarantined ++ second.outcome.quarantined = _
      rw [hquarantined, hquarantined', List.filter_append]
    · show first.outcome.pending ++ second.outcome.pending = _
      rw [hpending, hpending', List.append_nil]

theorem filter_of_any_false {poison : ρ → Bool} {records : List ρ} (h : records.any poison = false) :
    records.filter (fun record => !poison record) = records ∧ records.filter poison = [] := by
  rw [List.any_eq_false] at h
  exact ⟨List.filter_eq_self.2 fun record hrecord => by simp [h record hrecord], List.filter_eq_nil_iff.2 h⟩

theorem any_of_failed {poison : ρ → Bool} {post : Nat → List ρ → HttpOutcome} (hpost : RejectsPoison poison post) {number : Nat}
    {records : List ρ} (hfailed : ¬ (post number records).success = true) : records.any poison = true := by
  rw [(hpost number records).1] at hfailed
  simpa using hfailed

theorem attemptAndIsolate_isolated {poison : ρ → Bool} {post : Nat → List ρ → HttpOutcome} (hpost : RejectsPoison poison post)
    {records : List ρ} (hne : records ≠ []) {budget : IsolationBudget} (hbudget : budget.used ≤ budget.maxRequests) :
    Isolated poison records budget (isolationRequests poison records) (attemptAndIsolate post records budget) := by
  induction records, budget using attemptAndIsolate.induct post with
  | case1 records budget hexhausted =>
      have hpos := isolationRequests_pos poison records
      have hspent : budget.maxRequests ≤ budget.used := hexhausted
      rw [attemptAndIsolate, if_pos hexhausted]
      exact {
        maxRequests := rfl
        used := by dsimp only; omega
        exhausted := (decide_eq_true (by omega)).symm
        parted := fun hfits => absurd hfits (by omega) }
  | case2 records budget hleft outcome hsuccess =>
      have hclean : records.any poison = false := by
        have heq := (hpost budget.used records).1.symm.trans hsuccess
        simpa using heq
      obtain ⟨hkept, hnone⟩ := filter_of_any_false hclean
      have hroom : budget.used < budget.maxRequests := Nat.lt_of_not_le hleft
      rw [attemptAndIsolate, if_neg hleft]
      dsimp only
      rw [if_pos hsuccess, isolationRequests, if_pos (Or.inr hclean)]
      exact {
        maxRequests := rfl
        used := by simp only [IsolationBudget.consume]; omega
        exhausted := (decide_eq_false (by omega)).symm
        parted := fun _ => ⟨hkept.symm, hnone.symm, rfl⟩ }
  | case3 records budget hleft outcome hfailed hkept =>
      have hpoison := any_of_failed hpost hfailed
      have hpermanent : outcome.category = some .permanentRejection := (hpost budget.used records).2 hpoison
      rw [hpermanent] at hkept
      exact absurd hkept (by decide)
  | case4 records budget hleft outcome hfailed hrejected hsingle =>
      have hpoison := any_of_failed hpost hfailed
      have hroom : budget.used < budget.maxRequests := Nat.lt_of_not_le hleft
      obtain ⟨record, rfl⟩ := List.length_eq_one_iff.1 (Nat.le_antisymm hsingle (List.length_pos_iff.2 hne))
      rw [List.any_cons, List.any_nil, Bool.or_false] at hpoison
      rw [attemptAndIsolate, if_neg hleft]
      dsimp only
      rw [if_neg hfailed, if_neg hrejected, if_pos hsingle, isolationRequests, if_pos (Or.inl hsingle)]
      exact {
        maxRequests := rfl
        used := by simp only [IsolationBudget.consume]; omega
        exhausted := (decide_eq_false (by omega)).symm
        parted := fun _ => ⟨by simp [hpoison], by simp [hpoison], rfl⟩ }
  | case5 records budget hleft outcome spent hfailed hrejected hmany mid left ihleft _ ihright =>
      have hpoison := any_of_failed hpost hfailed
      have hroom : budget.consume.used ≤ budget.consume.maxRequests := Nat.lt_of_not_le hleft
      have hfirst := ihleft (List.ne_nil_of_length_pos (by rw [List.length_take]; omega)) hroom
      have hspent : left.budget.used ≤ left.budget.maxRequests := by
        rw [hfirst.used, hfirst.maxRequests]
        exact Nat.min_le_left _ _
      have hhalves := hfirst.join (ihright (List.ne_nil_of_length_pos (by rw [List.length_drop]; omega)) hspent)
        (isolationRequests_pos _ _)
      rw [List.take_append_drop] at hhalves
      have hsplit : ¬ (records.length ≤ 1 ∨ records.any poison = false) := by
        rw [hpoison]
        simpa using hmany
      have hcost : budget.consume.used + (isolationRequests poison (records.take mid) + isolationRequests poison (records.drop mid))
          = budget.used + isolationRequests poison records := by
        rw [isolationRequests.eq_1 poison records, if_neg hsplit]
        show budget.used + 1 + (isolationRequests poison (records.take mid) + isolationRequests poison (records.drop mid))
          = budget.used + (1 + isolationRequests poison (records.take mid) + isolationRequests poison (records.drop mid))
        omega
      have hused := hhalves.used
      have hexhausted := hhalves.exhausted
      have hparted := hhalves.parted
      rw [hcost] at hused hexhausted hparted
      rw [attemptAndIsolate, if_neg hleft]
      dsimp only
      rw [if_neg hfailed, if_neg hrejected, if_neg hmany]
      exact {
        maxRequests := hhalves.maxRequests
        used := hused
        exhausted := hexhausted
        parted := hparted }

/-! ### One file -/

theorem attemptChunks_isolated {poison : ρ → Bool} {post : Nat → List ρ → HttpOutcome} (hpost : RejectsPoison poison post)
    {chunks : List (List ρ)} (hne : ∀ chunk ∈ chunks, chunk ≠ []) {records : List ρ} {budget : IsolationBudget} {cost : Nat}
    {attempt : Attempt ρ} (hattempt : Isolated poison records budget cost attempt) :
    Isolated poison (records ++ chunks.flatten) budget (cost + fileRequests poison chunks) (attemptChunks post chunks attempt) := by
  induction chunks generalizing records cost attempt with
  | nil =>
      rw [List.flatten_nil, List.append_nil]
      exact hattempt
  | cons chunk chunks ih =>
      have hspent : attempt.budget.used ≤ attempt.budget.maxRequests := by
        rw [hattempt.used, hattempt.maxRequests]
        exact Nat.min_le_left _ _
      have hchunk := attemptAndIsolate_isolated hpost (hne chunk (List.mem_cons_self ..)) hspent
      have hrest := ih (fun other hother => hne other (List.mem_cons_of_mem _ hother))
        (hattempt.join hchunk (isolationRequests_pos _ _))
      rw [List.append_assoc, Nat.add_assoc] at hrest
      exact hrest

section Cycle

variable (repr : Json → Text) (byteSize : Batch ρ → Nat) (cfg : RuntimeConfig) (source : SourceName)

/-- The server of a cycle rejects for good exactly the payloads with a poison record. -/
def ServerRejects (poison : ρ → Bool) (server : Nat → Batch ρ → Response) : Prop :=
  RejectsPoison poison fun number chunk => postJson repr (server number (buildPayload source chunk))

/-- The requests that the isolation of a file takes: the halving starts from the chunks of its byte budget. -/
def batchRequests (poison : ρ → Bool) (records : List ρ) : Nat :=
  fileRequests poison (fitToByteBudget byteSize source cfg.uploaderMaxUploadBodyBytes records)

theorem attemptFile_isolated {poison : ρ → Bool} {server : Nat → Batch ρ → Response} (hserver : ServerRejects repr source poison server)
    (records : List ρ) : Isolated poison records ⟨cfg.uploaderMaxIsolationRequests, 0⟩
      (batchRequests byteSize cfg source poison records) (attemptFile repr byteSize cfg source server records) := by
  have hne : ∀ chunk ∈ fitToByteBudget byteSize source cfg.uploaderMaxUploadBodyBytes records, chunk ≠ [] :=
    fun _ hchunk => ne_nil_of_mem_fitToByteBudget hchunk
  have hstart : Isolated poison ([] : List ρ) ⟨cfg.uploaderMaxIsolationRequests, 0⟩ 0
      ⟨{}, ⟨cfg.uploaderMaxIsolationRequests, 0⟩, []⟩ := {
    maxRequests := rfl
    used := (Nat.min_eq_right (Nat.zero_le _)).symm
    exhausted := (decide_eq_false (Nat.not_lt_zero _)).symm
    parted := fun _ => ⟨rfl, rfl, rfl⟩ }
  have hchunks := attemptChunks_isolated hserver hne hstart
  rw [flatten_fitToByteBudget, List.nil_append, Nat.zero_add] at hchunks
  exact hchunks

/-! ### Cycle after cycle -/

/-- The spool after a number of cycles, each with its own answers and at its own time. -/
def spoolAfter (servers : Nat → Nat → Batch ρ → Response) (now : Nat → Text) (spool : Spool ρ) : Nat → Spool ρ
  | 0 => spool
  | count + 1 =>
      let before := spoolAfter servers now spool count
      match uploadOnePendingBatch repr byteSize cfg source (servers count) before with
      | none => before
      | some cycle => before.run (now count) cycle.steps

/-- In some cycle the file goes: its poison records are quarantined, the others are delivered, and the next file is first. -/
def Passes (poison : ρ → Bool) (servers : Nat → Nat → Batch ρ → Response) (now : Nat → Text) (spool : Spool ρ) (path : Text)
    (records : List ρ) (rest : List (Text × Except Text (List ρ))) : Prop :=
  ∃ count cycle, uploadOnePendingBatch repr byteSize cfg source (servers count)
        (spoolAfter repr byteSize cfg source servers now spool count) = some cycle
    ∧ .acknowledge path ∈ cycle.steps
    ∧ cycle.attempt.outcome.delivered = records.filter (fun record => !poison record)
    ∧ cycle.attempt.outcome.quarantined = records.filter poison
    ∧ (spoolAfter repr byteSize cfg source servers now spool (count + 1)).pending = rest
    ∧ (spoolAfter repr byteSize cfg source servers now spool (count + 1)).isolated.flatMap (·.1)
      = spool.isolated.flatMap (·.1) ++ records.filter poison

variable {repr byteSize cfg source}

theorem spoolAfter_succ {servers : Nat → Nat → Batch ρ → Response} {now : Nat → Text} {spool : Spool ρ} {count : Nat} {cycle : Cycle ρ}
    (hcycle : uploadOnePendingBatch repr byteSize cfg source (servers count)
      (spoolAfter repr byteSize cfg source servers now spool count) = some cycle) :
    spoolAfter repr byteSize cfg source servers now spool (count + 1)
      = (spoolAfter repr byteSize cfg source servers now spool count).run (now count) cycle.steps := by
  rw [spoolAfter, hcycle]

/-- A cycle that may send too few requests leaves something pending. -/
theorem pending_ne_nil_of_lt {poison : ρ → Bool} {server : Nat → Batch ρ → Response} (hserver : ServerRejects repr source poison server)
    {records : List ρ} (hcost : cfg.uploaderMaxIsolationRequests < batchRequests byteSize cfg source poison records) :
    (attemptFile repr byteSize cfg source server records).outcome.pending ≠ [] := by
  apply (attemptFile_accounts repr byteSize cfg source server records).exhausted
  rw [(attemptFile_isolated repr byteSize cfg source hserver records).exhausted, Nat.zero_add]
  exact decide_eq_true hcost

/-- While the isolation takes more than a cycle may send, every cycle leaves the files as they are. -/
theorem pending_spoolAfter {poison : ρ → Bool} {servers : Nat → Nat → Batch ρ → Response}
    (hservers : ∀ count, ServerRejects repr source poison (servers count)) (now : Nat → Text) {spool : Spool ρ} {path : Text}
    {records : List ρ} {rest : List (Text × Except Text (List ρ))} (hpending : spool.pending = (path, .ok records) :: rest)
    (hcost : cfg.uploaderMaxIsolationRequests < batchRequests byteSize cfg source poison records) (count : Nat) :
    (spoolAfter repr byteSize cfg source servers now spool count).pending = (path, .ok records) :: rest := by
  induction count with
  | zero => exact hpending
  | succ count ih =>
      obtain ⟨cycle, hcycle, -, -, -, -, -, -, -, -, -, hkept⟩ := upload_accounts_for_records repr byteSize cfg source (servers count)
        (now count) (spoolAfter repr byteSize cfg source servers now spool count) path records rest ih
      obtain ⟨hattempt, -⟩ := uploadOnePendingBatch_ok repr byteSize cfg source ih hcycle
      rw [spoolAfter_succ hcycle, (hkept (by rw [hattempt]; exact pending_ne_nil_of_lt (hservers count) hcost)).1, ih]

theorem not_passes_of_lt {poison : ρ → Bool} {servers : Nat → Nat → Batch ρ → Response}
    (hservers : ∀ count, ServerRejects repr source poison (servers count)) (now : Nat → Text) {spool : Spool ρ} {path : Text}
    {records : List ρ} {rest : List (Text × Except Text (List ρ))} (hpending : spool.pending = (path, .ok records) :: rest)
    (hcost : cfg.uploaderMaxIsolationRequests < batchRequests byteSize cfg source poison records) :
    ¬ Passes repr byteSize cfg source poison servers now spool path records rest := by
  rintro ⟨count, -, -, -, -, -, hrest, -⟩
  have hstays := pending_spoolAfter hservers now hpending hcost (count + 1)
  exact absurd (hstays.symm.trans hrest) (List.cons_ne_self _ _)

/-- A batch with poison records passes exactly when its isolation takes no more requests than one cycle may send. -/
theorem poisoned_batch_passes_iff {poison : ρ → Bool} {servers : Nat → Nat → Batch ρ → Response}
    (hservers : ∀ count, ServerRejects repr source poison (servers count)) (now : Nat → Text) {spool : Spool ρ} {path : Text}
    {records : List ρ} {rest : List (Text × Except Text (List ρ))} (hpending : spool.pending = (path, .ok records) :: rest) :
    Passes repr byteSize cfg source poison servers now spool path records rest
      ↔ batchRequests byteSize cfg source poison records ≤ cfg.uploaderMaxIsolationRequests := by
  constructor
  · intro hpasses
    by_contra hcost
    exact not_passes_of_lt hservers now hpending (Nat.lt_of_not_le hcost) hpasses
  · intro hcost
    obtain ⟨cycle, hcycle, -, -, -, -, -, -, -, hacknowledged, hgone, -⟩ := upload_accounts_for_records repr byteSize cfg source
      (servers 0) (now 0) spool path records rest hpending
    obtain ⟨hattempt, -⟩ := uploadOnePendingBatch_ok repr byteSize cfg source hpending hcycle
    obtain ⟨hdelivered, hquarantined, hnone⟩ := (attemptFile_isolated repr byteSize cfg source (hservers 0) records).parted
      (by rw [Nat.zero_add]; exact hcost)
    rw [← hattempt] at hdelivered hquarantined hnone
    obtain ⟨-, hnext, hisolated⟩ := hgone hnone
    refine ⟨0, cycle, hcycle, hacknowledged.2 hnone, hdelivered, hquarantined, ?_, ?_⟩
    · rw [@spoolAfter_succ _ _ _ _ _ _ _ _ 0 _ hcycle]
      exact hnext
    · rw [@spoolAfter_succ _ _ _ _ _ _ _ _ 0 _ hcycle, ← hquarantined]
      exact hisolated

end Cycle

/-! ### Two batches -/

/-- A server that rejects payloads with the number 0. -/
def zeroServer (_ _ : Nat) (payload : Batch Nat) : Response :=
  if payload.checkins.any (· == 0) then .answer 400 "bad record".toList none
  else .answer 200 [] (some [("status".toList, .text "success".toList)])

theorem zeroServer_rejects (count : Nat) : ServerRejects (fun _ => []) .checkins (· == 0) (zeroServer count) := by
  intro number records
  have hpayload : (buildPayload .checkins records).checkins = records := rfl
  dsimp only
  rw [zeroServer, hpayload]
  cases hany : records.any (· == 0) with
  | true => exact ⟨rfl, fun _ => rfl⟩
  | false => exact ⟨by decide, fun h => nomatch h⟩

def spoolOf (records : List Nat) : Spool Nat := ⟨[("batch-1".toList, .ok records), ("batch-2".toList, .ok [3])], [], [], [], by
  show ["batch-1".toList, "batch-2".toList].Nodup
  decide⟩

theorem batchRequests_of_small {records : List Nat} (hne : records ≠ []) :
    batchRequests (fun _ => 0) {} .checkins (· == 0) records = isolationRequests (· == 0) records := by
  rw [batchRequests, fitToByteBudget, if_neg hne, if_pos (Or.inr (Nat.zero_le _)), fileRequests, List.map_singleton,
    List.sum_singleton]

/-- One poison record among others. -/
theorem poisoned_batch_passes_one :
    Passes (fun _ => []) (fun _ => 0) {} .checkins (· == 0) zeroServer (fun _ => []) (spoolOf [7, 0, 5]) "batch-1".toList [7, 0, 5]
      [("batch-2".toList, .ok [3])] :=
  (poisoned_batch_passes_iff zeroServer_rejects (fun _ => []) rfl).2 (by
    rw [batchRequests_of_small (List.cons_ne_nil _ _)]
    simp [isolationRequests])

/-- Eleven poison records need 21 requests: the batch is never passed. -/
theorem eleven_poison_records_block :
    ¬ ∀ records : List Nat, records.length ≤ 100 →
      Passes (fun _ => []) (fun _ => 0) {} .checkins (· == 0) zeroServer (fun _ => []) (spoolOf records) "batch-1".toList records
        [("batch-2".toList, .ok [3])] := by
  intro h
  refine not_passes_of_lt zeroServer_rejects (fun _ => []) rfl ?_ (h (List.replicate 11 0) (by decide))
  rw [batchRequests_of_small (by decide), isolationRequests_of_all (by decide) fun record hrecord => by rw [List.eq_of_mem_replicate hrecord]; rfl]
  decide

end SpoolUploader

end SortView
