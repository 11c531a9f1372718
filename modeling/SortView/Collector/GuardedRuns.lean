import SortView.Collector.CardGuard

/-!
# The guard over committed chunks

Chunks of any source are transformed and committed one after another, from an empty cache on. The guard covers every event
but the corrections of holds that were in the ledger before their barcode was seen as a patron identifier.
-/

namespace SortView.Transform

open PyText Calendar Emitting

/-! ### Committed chunks -/

/-- One committed chunk: what it was transformed with, the cache before it and the events it made. -/
structure Transformed where
  ctx : TransformContext
  chunk : Chunk
  before : PatronCache
  events : List SafeEvent

/-- The chunks committed so far, from an empty cache on, and the cache they leave. The rules, the zone, the clock and the cache's
day may change from one chunk to the next, the keys do not. -/
inductive Committed (keys : SubKeys) : List Transformed → PatronCache → Prop
  | opened (today : Text) : Committed keys [] (.open false today Dict.empty Dict.empty)
  | chunk {done : List Transformed} {cache after : PatronCache} {events : List SafeEvent} (h : Committed keys done cache)
      (ctx : TransformContext) (hkeys : ctx.keys = keys) (today : Text) (chunk : Chunk)
      (hrun : transformChunk ctx chunk { cache with today := today } = .ok (events, after)) :
      Committed keys (done ++ [⟨ctx, chunk, cache, events⟩]) after.commit

/-- The patron identifiers of the chunks. -/
def patronIdsOf (chunks : List Transformed) : List Text := chunks.flatMap fun step => step.chunk.patronIds

/-- The texts that are keyed as an item in the chunks, and the patron identifiers. -/
def textsOf (chunks : List Transformed) : Set Text :=
  fun text => ∃ step ∈ chunks, ∃ raw ∈ step.chunk.patronIds ++ step.chunk.barcodes, strip raw = text

/-- Once a chunk with a patron identifier is transformed, no event of it or of a later chunk carries the identifier's item key. -/
def GuardComplete (keys : SubKeys) (chunks : List Transformed) : Prop :=
  ∀ (i j : Nat) (earlier later : Transformed), i ≤ j → chunks[i]? = some earlier → chunks[j]? = some later →
    ∀ id ∈ earlier.chunk.patronIds, ∀ event ∈ later.events, event.itemKey ≠ some (itemKey keys id).hex

/-- No chunk changes the flags of a hold in the ledger whose barcode is a patron identifier of that chunk or an earlier one. -/
def NoCardCorrected (keys : SubKeys) (chunks : List Transformed) : Prop :=
  ∀ (j : Nat) (step : Transformed), chunks[j]? = some step → ∀ row, Corrected step.ctx step.before step.chunk row →
    ∀ id ∈ patronIdsOf (chunks.take (j + 1)), row.itemKey ≠ (itemKey keys id).hex

section Runs

variable {keys : SubKeys} {chunks : List Transformed} {cache : PatronCache}

theorem NoCardCorrected.init {step : Transformed} (h : NoCardCorrected keys (chunks ++ [step])) : NoCardCorrected keys chunks := by
  intro j other hother row hrow
  have hlt : j < chunks.length := (List.getElem?_eq_some_iff.1 hother).1
  have hids := h j other (by rw [List.getElem?_append_left hlt, hother]) row hrow
  rwa [List.take_append_of_le_length (Nat.succ_le_of_lt hlt)] at hids

theorem NoCardCorrected.last {step : Transformed} (h : NoCardCorrected keys (chunks ++ [step])) {row : HoldRow}
    (hrow : Corrected step.ctx step.before step.chunk row) :
    ∀ id ∈ patronIdsOf chunks ++ step.chunk.patronIds, row.itemKey ≠ (itemKey keys id).hex := by
  have hids := h chunks.length step (List.getElem?_concat_length) row hrow
  rw [List.take_of_length_le (by rw [List.length_append, List.length_singleton]), patronIdsOf, List.flatMap_append,
    List.flatMap_singleton] at hids
  exact hids

theorem guardComplete_nil (keys : SubKeys) : GuardComplete keys [] := by
  intro i j earlier later _ hearlier
  cases hearlier

/-- A chunk whose events carry no identifier so far, its own included, keeps the guard complete. -/
theorem GuardComplete.snoc {step : Transformed} (h : GuardComplete keys chunks)
    (hstep : ∀ event ∈ step.events, Clean keys (patronIdsOf chunks ++ step.chunk.patronIds) event) :
    GuardComplete keys (chunks ++ [step]) := by
  intro i j earlier later hle hearlier hlater id hid event hevent
  by_cases hj : j < chunks.length
  · rw [List.getElem?_append_left (Nat.lt_of_le_of_lt hle hj)] at hearlier
    rw [List.getElem?_append_left hj] at hlater
    exact h i j earlier later hle hearlier hlater id hid event hevent
  · have hlast : later = step := by
      rw [List.getElem?_append_right (Nat.le_of_not_lt hj)] at hlater
      exact List.mem_singleton.1 (List.mem_of_getElem? hlater)
    subst hlast
    apply hstep event hevent id
    rcases List.mem_append.1 (List.mem_of_getElem? hearlier) with hold | hnew
    · exact List.mem_append_left _ (List.mem_flatMap.2 ⟨earlier, hold, hid⟩)
    · exact List.mem_append_right _ (List.mem_singleton.1 hnew ▸ hid)

/-- By induction on the chunks: what is known holds every identifier so far, so the guard and the condition on the corrections
cover each next chunk. -/
theorem Committed.known_and_complete {texts : Set Text} (hhmac : Set.InjOn keys.item texts) (h : Committed keys chunks cache)
    (htexts : textsOf chunks ⊆ texts) (hclean : NoCardCorrected keys chunks) :
    Known keys (patronIdsOf chunks) cache ∧ GuardComplete keys chunks := by
  induction h with
  | opened today => exact ⟨⟨rfl, List.forall_mem_nil _⟩, guardComplete_nil keys⟩
  | @chunk done cache after events h ctx hkeys today chunk hrun ih =>
      subst hkeys
      obtain ⟨hknown, hcomplete⟩ := ih (fun text htext => htexts (by
        obtain ⟨step, hstep, hraw⟩ := htext
        exact ⟨step, List.mem_append_left _ hstep, hraw⟩)) hclean.init
      have hlast : ∀ raw ∈ chunk.patronIds ++ chunk.barcodes, strip raw ∈ texts := fun raw hraw =>
        htexts ⟨⟨ctx, chunk, cache, events⟩, List.mem_append_right _ (List.mem_singleton.2 rfl), raw, hraw, rfl⟩
      have hids : ∀ id ∈ patronIdsOf done ++ chunk.patronIds, strip id ∈ texts := by
        intro id hid
        rcases List.mem_append.1 hid with hold | hnew
        · obtain ⟨step, hstep, hraw⟩ := List.mem_flatMap.1 hold
          exact htexts ⟨step, List.mem_append_left _ hstep, id, List.mem_append_left _ hraw, rfl⟩
        · exact hlast id (List.mem_append_left _ hnew)
      have hcorrected : ∀ row, Corrected ctx { cache with today := today } chunk row →
          ∀ id ∈ patronIdsOf done ++ chunk.patronIds, row.itemKey ≠ (itemKey ctx.keys id).hex := fun row hrow => hclean.last hrow
      have hstart : Known ctx.keys (patronIdsOf done) { cache with today := today } := hknown.of_contains rfl fun _ h => h
      obtain ⟨hevents, hafter⟩ := transformChunk_keeps hhmac hids
        (fun barcode hbarcode => hlast barcode (List.mem_append_right _ hbarcode)) hcorrected hstart hrun
      refine ⟨?_, hcomplete.snoc hevents⟩
      rw [patronIdsOf, List.flatMap_append, List.flatMap_singleton]
      exact hafter.of_contains (after.readOnly_step .commit) fun pk h => (PatronCache.contains_commit hafter.writable pk).trans h

/-- The guard is complete in every run whose chunks correct no hold that has a known patron identifier as its barcode. -/
theorem guard_complete_of_no_card_corrected (keys : SubKeys) (chunks : List Transformed) (cache : PatronCache)
    (h : Committed keys chunks cache) (hhmac : Set.InjOn keys.item (textsOf chunks)) (hclean : NoCardCorrected keys chunks) :
    GuardComplete keys chunks := (h.known_and_complete hhmac Set.Subset.rfl hclean).2

end Runs

/-! ### A card that was an item first -/

/-- A digest that tells the texts 7 and 42 from each other and from every other text. -/
def cardDigest (text : Text) : Digest :=
  if text = "7".toList then ⟨List.replicate 64 'a', rfl⟩
  else if text = "42".toList then ⟨List.replicate 64 'b', rfl⟩
  else ⟨List.replicate 64 'c', rfl⟩

def cardKeys : SubKeys := ⟨cardDigest, cardDigest, cardDigest, cardDigest, cardDigest⟩

theorem cardInstant_inRange : 63840000000000000 < maxMicroseconds := by decide

/-- An instant of the year 2024. -/
def cardInstant : Instant := ⟨63840000000000000, cardInstant_inRange⟩

def cardContext : TransformContext where
  keys := cardKeys
  rules := ⟨[], [], [], [], [], cardDigest []⟩
  rulesetId := "00000000-0000-4000-8000-000000000000".toList
  isWord := Char.isAlphanum
  toUtc _ := some cardInstant
  now := cardInstant

/-- A hold of item 7 for patron 42. -/
def cardHold : Chunk := .acs [⟨some 0, "10".toList, some "7".toList, none, some "42".toList, none, "101YNY".toList⟩]

/-- A record of patron 7, and the profile that makes patron 42 an interlibrary one. -/
def cardProfile : Chunk := .acs [⟨some 0, "63".toList, none, none, some "7".toList, none, []⟩,
  ⟨some 0, "64".toList, none, none, some "42".toList, none, "|PTILL".toList⟩]

def cardCache : PatronCache := .open false [] Dict.empty Dict.empty

/-- The records of patron 7 alone, and a check-in of item 7. -/
def cardSightingRows : List Acs.Row := [⟨some 0, "63".toList, none, none, some "7".toList, none, []⟩]

def cardSighting : Chunk := .acs cardSightingRows

def cardCheckin : Chunk :=
  .checkins [⟨[], "7".toList, [], [], [], [], "Main".toList, false, [], "1".toList, [], [], [], some 0⟩]

/-- The texts that are keyed in the samples. -/
def cardTexts : List Text := ["7".toList, "42".toList, []]

theorem cardDigest_injective : Set.InjOn cardDigest { text | text ∈ cardTexts } := by
  have hpairs : ∀ left ∈ cardTexts, ∀ right ∈ cardTexts, (cardDigest left).hex = (cardDigest right).hex → left = right := by
    decide
  intro left hleft right hright heq
  exact hpairs left hleft right hright (congrArg Digest.hex heq)

theorem textsOf_card {chunks : List Transformed}
    (hchunks : ∀ step ∈ chunks, ∀ raw ∈ step.chunk.patronIds ++ step.chunk.barcodes, strip raw ∈ cardTexts) :
    Set.InjOn cardKeys.item (textsOf chunks) := by
  apply cardDigest_injective.mono
  intro text htext
  obtain ⟨step, hstep, raw, hraw, rfl⟩ := htext
  exact hchunks step hstep raw hraw

theorem cardTexts_of_chunk : ∀ chunk ∈ [cardHold, cardProfile, cardSighting, cardCheckin],
    ∀ raw ∈ chunk.patronIds ++ chunk.barcodes, strip raw ∈ cardTexts := by
  intro chunk hchunk
  simp only [List.mem_cons, List.not_mem_nil, or_false] at hchunk
  rcases hchunk with rfl | rfl | rfl | rfl <;> decide

theorem profiles_cardSighting : profiles cardContext (acsEntries cardSightingRows) = Dict.empty := by
  rw [profiles, show List.filter _ (acsEntries cardSightingRows) = [] from rfl, List.mergeSort_nil]
  rfl

theorem transformChunk_cardSighting :
    transformChunk cardContext cardSighting cardCache = .ok ([], sight (patronIdHmac cardKeys "7".toList) cardCache) := by
  show transformAcs cardContext cardSightingRows cardCache = _
  rw [transformAcs, profiles_cardSighting]
  rfl

theorem transformChunk_cardCheckin :
    transformChunk cardContext cardCheckin (sight (patronIdHmac cardKeys "7".toList) cardCache).commit
      = .ok ([], sight (patronIdHmac cardKeys "7".toList) (sight (patronIdHmac cardKeys "7".toList) cardCache).commit) := rfl

/-- Once patron 7 was seen, the check-in of item 7 sends nothing. -/
theorem guard_complete_of_no_card_corrected_sample :
    GuardComplete cardKeys [⟨cardContext, cardSighting, cardCache, []⟩,
      ⟨cardContext, cardCheckin, (sight (patronIdHmac cardKeys "7".toList) cardCache).commit, []⟩] := by
  have hrun := Committed.chunk (.chunk (.opened []) cardContext rfl [] cardSighting transformChunk_cardSighting) cardContext
    (rfl : cardContext.keys = cardKeys) [] cardCheckin transformChunk_cardCheckin
  refine guard_complete_of_no_card_corrected cardKeys _ _ hrun (textsOf_card ?_) ?_
  · intro step hstep
    simp only [List.mem_cons, List.not_mem_nil, or_false] at hstep
    rcases hstep with rfl | rfl
    · exact cardTexts_of_chunk _ (by simp)
    · exact cardTexts_of_chunk _ (by simp)
  · intro j step hstep row hrow
    have hmem := List.mem_of_getElem? hstep
    simp only [List.mem_cons, List.not_mem_nil, or_false] at hmem
    rcases hmem with rfl | rfl
    · obtain ⟨profile, hprofile, -⟩ := hrow
      rw [profiles_cardSighting] at hprofile
      cases hprofile
    · cases hrow

/-- Whether the second chunk sends an event of item 7 after the first is committed. -/
def sendsCard : Bool :=
  match transformChunk cardContext cardHold cardCache with
  | .error _ => false
  | .ok (_, cache) =>
      match transformChunk cardContext cardProfile cache.commit with
      | .error _ => false
      | .ok (events, _) => events.any fun event => event.itemKey = some (itemKey cardKeys "7".toList).hex

theorem sendsCard_eq_true : sendsCard = true := by decide +kernel

/-- The correction of a hold is not guarded: item 7 is on hold for patron 42, then patron 7 is seen, and the profile of patron 42
changes. -/
theorem correction_of_a_known_card : ¬ ∀ (keys : SubKeys) (chunks : List Transformed) (cache : PatronCache),
    Committed keys chunks cache → Set.InjOn keys.item (textsOf chunks) → GuardComplete keys chunks := by
  intro h
  have hsent := sendsCard_eq_true
  rw [sendsCard] at hsent
  cases hfirst : transformChunk cardContext cardHold cardCache with
  | error fault =>
      rw [hfirst] at hsent
      cases hsent
  | ok result =>
      obtain ⟨events, cache⟩ := result
      rw [hfirst] at hsent
      dsimp only at hsent
      cases hsecond : transformChunk cardContext cardProfile cache.commit with
      | error fault =>
          rw [hsecond] at hsent
          cases hsent
      | ok result =>
          obtain ⟨later, after⟩ := result
          rw [hsecond] at hsent
          obtain ⟨event, hevent, hkey⟩ := List.any_eq_true.1 hsent
          have hrun : Committed cardKeys
              [⟨cardContext, cardHold, cardCache, events⟩, ⟨cardContext, cardProfile, cache.commit, later⟩] after.commit :=
            .chunk (.chunk (.opened []) cardContext rfl [] cardHold hfirst) cardContext rfl cache.commit.today cardProfile hsecond
          refine h _ _ _ hrun (textsOf_card ?_) 1 1 _ _ (Nat.le_refl 1) rfl rfl "7".toList ?_ event hevent (of_decide_eq_true hkey)
          · intro step hstep
            simp only [List.mem_cons, List.not_mem_nil, or_false] at hstep
            rcases hstep with rfl | rfl
            · exact cardTexts_of_chunk _ (by simp)
            · exact cardTexts_of_chunk _ (by simp)
          · show "7".toList ∈ cardProfile.patronIds
            decide

end SortView.Transform
