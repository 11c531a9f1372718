import SortView.Collector.Rules
import SortView.Lib.Overlay

/-!
# The patron cache (`collector/v2_patrons.py`)

The tables of patrons and of holds, the changes staged over them until a chunk is delivered, and what is read of
both. The ruleset registry, the days of the sliding lifetime and their purges are left out.
-/

namespace SortView

open PyText

/-! ### Rows -/

/-- Contributions to, or values of, the three flags of a hold. -/
structure HoldFlags where
  isIll : Bool
  isBranchServices : Bool
  isCollectionServices : Bool
  deriving DecidableEq

/-- The latest hold of one item that has a patron. -/
structure HoldRow where
  itemKey : Text
  eventTime : Text
  patronPk : Digest
  destination : Text
  static : HoldFlags
  flags : HoldFlags
  revision : Nat
  deriving DecidableEq

/-- What the classifier may know about a patron. -/
structure PatronInfo where
  nameK : Option Digest
  typeIll : Bool
  nameIll : Bool
  deriving DecidableEq

def PatronInfo.unknown : PatronInfo := ⟨none, false, false⟩

/-- The flags that come from a patron's profile (`collector/v2_classify.py`). -/
def profileOutcome (patron : Option PatronInfo) (rules : Rules) : HoldFlags :=
  let known := patron.getD .unknown
  { isIll := known.typeIll || known.nameIll
    isBranchServices := known.nameK.any fun nameK => rules.branchNameHmacs.contains nameK
    isCollectionServices := known.nameK.any fun nameK => rules.collectionNameHmacs.contains nameK }

/-- A row of `patrons`, its key apart. Truth values are stored as integers. -/
structure PatronColumns where
  nameK : Option Digest
  typeIll : Int
  nameIll : Int
  firstSeen : Text
  lastSeen : Text

/-- A row of `holds`, its key apart. -/
structure HoldColumns where
  eventTime : Text
  patronPk : Digest
  destination : Text
  staticIll : Int
  staticBranch : Int
  staticCollection : Int
  flagIll : Int
  flagBranch : Int
  flagCollection : Int
  revision : Nat
  eventDay : Text

/-- `int(flag)`. -/
def flagInt (flag : Bool) : Int := if flag then 1 else 0

/-- `bool(column)`. -/
def intFlag (column : Int) : Bool := column ≠ 0

@[simp] theorem intFlag_flagInt (flag : Bool) : intFlag (flagInt flag) = flag := by
  cases flag <;> rfl

def PatronColumns.info (columns : PatronColumns) : PatronInfo :=
  ⟨columns.nameK, intFlag columns.typeIll, intFlag columns.nameIll⟩

/-- `_hold_from`. -/
def holdFrom (itemKey : Text) (columns : HoldColumns) : HoldRow where
  itemKey := itemKey
  eventTime := columns.eventTime
  patronPk := columns.patronPk
  destination := columns.destination
  static := ⟨intFlag columns.staticIll, intFlag columns.staticBranch, intFlag columns.staticCollection⟩
  flags := ⟨intFlag columns.flagIll, intFlag columns.flagBranch, intFlag columns.flagCollection⟩
  revision := columns.revision

/-- The columns `_commit_holds` writes. -/
def HoldRow.columns (row : HoldRow) : HoldColumns where
  eventTime := row.eventTime
  patronPk := row.patronPk
  destination := row.destination
  staticIll := flagInt row.static.isIll
  staticBranch := flagInt row.static.isBranchServices
  staticCollection := flagInt row.static.isCollectionServices
  flagIll := flagInt row.flags.isIll
  flagBranch := flagInt row.flags.isBranchServices
  flagCollection := flagInt row.flags.isCollectionServices
  revision := row.revision
  eventDay := row.eventTime.take 10

/-- A row that was written is read back. -/
@[simp] theorem holdFrom_columns (row : HoldRow) : holdFrom row.itemKey row.columns = row := by
  simp [holdFrom, HoldRow.columns]

/-- A patron's staged change: a sighting, or a profile with it. -/
structure StagedPatron where
  nameK : Option Digest
  typeIll : Bool
  nameIll : Bool
  profile : Bool

/-! ### The cache -/

/-- The stored tables, and the changes staged over them. A staged hold stands under its own item key. -/
structure PatronCache where
  readOnly : Bool
  today : Text
  patrons : Dict Digest PatronColumns
  holds : Dict Text HoldColumns
  overlay : Dict Digest StagedPatron
  holdOverlay : Dict Text (Option HoldRow)
  keyed : ∀ itemKey row, holdOverlay.get? itemKey = some (some row) → row.itemKey = itemKey

namespace PatronCache

theorem keyed_empty (itemKey : Text) (row : HoldRow) :
    (Dict.empty : Dict Text (Option HoldRow)).get? itemKey = some (some row) → row.itemKey = itemKey := nofun

/-- A cache file just opened. -/
def «open» (readOnly : Bool) (today : Text) (patrons : Dict Digest PatronColumns) (holds : Dict Text HoldColumns) : PatronCache :=
  ⟨readOnly, today, patrons, holds, Dict.empty, Dict.empty, keyed_empty⟩

variable (cache : PatronCache)

/-! ### Reading patrons -/

def lookup (pk : Digest) : Option PatronInfo :=
  let stored := (cache.patrons.get? pk).map PatronColumns.info
  match cache.overlay.get? pk with
  | none => stored
  | some staged => if staged.profile then some ⟨staged.nameK, staged.typeIll, staged.nameIll⟩ else some (stored.getD .unknown)

def contains (pk : Digest) : Bool := (cache.overlay.get? pk).isSome || (cache.patrons.get? pk).isSome

/-! ### Reading holds -/

def holdGet (itemKey : Text) : Option HoldRow :=
  match cache.holdOverlay.get? itemKey with
  | some staged => staged
  | none => (cache.holds.get? itemKey).map (holdFrom itemKey)

/-- The rows of one patron that are stored. -/
def storedHolds (patronPk : Digest) : Dict Text HoldRow :=
  Dict.alterAll (fun itemKey columns _ => some (holdFrom itemKey columns))
    (cache.holds.filter fun entry => entry.2.patronPk = patronPk) Dict.empty

/-- What a staged hold does to the rows found for a patron. -/
def foundChange (patronPk : Digest) (staged : Option HoldRow) : Option HoldRow :=
  staged.filter fun row => row.patronPk = patronPk

/-- Ledger rows by time, then by item: the order of `(event_time, item_key)`. -/
def holdLe (left right : HoldRow) : Bool :=
  if left.eventTime = right.eventTime then textLe left.itemKey right.itemKey else textLe left.eventTime right.eventTime

/-- The rows found for a patron, by item. -/
def found (patronPk : Digest) : Dict Text HoldRow :=
  Dict.alterAll (fun _ staged _ => foundChange patronPk staged) cache.holdOverlay (cache.storedHolds patronPk)

def holdsForPatron (patronPk : Digest) : List HoldRow := ((cache.found patronPk).entries.map Prod.snd).mergeSort holdLe

/-! ### Staging -/

def stage (pk : Digest) (nameK : Option Digest) (typeIll nameIll profile : Bool) : PatronCache :=
  if !profile && (cache.overlay.get? pk).isSome then cache
  else { cache with overlay := cache.overlay.set pk ⟨nameK, typeIll, nameIll, profile⟩ }

def holdPut (row : HoldRow) : PatronCache where
  __ := cache
  holdOverlay := cache.holdOverlay.set row.itemKey (some row)
  keyed itemKey other h := by
    rw [Dict.get?_set] at h
    split at h
    · next heq =>
      cases h
      exact heq.symm
    · exact cache.keyed itemKey other h

def holdDelete (itemKey : Text) : PatronCache where
  __ := cache
  holdOverlay := cache.holdOverlay.set itemKey none
  keyed other row h := by
    rw [Dict.get?_set] at h
    split at h
    · cases h
    · exact cache.keyed other row h

/-! ### Committing -/

/-- `_commit_holds`. -/
def commitHolds : PatronCache where
  __ := cache
  holds := Dict.alterAll (fun _ staged _ => staged.map HoldRow.columns) cache.holdOverlay cache.holds
  holdOverlay := Dict.empty
  keyed := keyed_empty

/-- The upsert of one staged patron: a profile replaces the name and the flags, a sighting only moves the day. -/
def upsertPatron (today : Text) (staged : StagedPatron) (stored : Option PatronColumns) : Option PatronColumns :=
  some (match stored with
    | none =>
        if staged.profile then ⟨staged.nameK, flagInt staged.typeIll, flagInt staged.nameIll, today, today⟩
        else ⟨none, 0, 0, today, today⟩
    | some columns =>
        if staged.profile then ⟨staged.nameK, flagInt staged.typeIll, flagInt staged.nameIll, columns.firstSeen, today⟩
        else { columns with lastSeen := today })

def commit : PatronCache :=
  if cache.readOnly then { cache with overlay := Dict.empty, holdOverlay := Dict.empty, keyed := keyed_empty }
  else { cache.commitHolds with
    patrons := Dict.alterAll (fun _ staged stored => upsertPatron cache.today staged stored) cache.overlay cache.patrons
    overlay := Dict.empty }

def discard : PatronCache := { cache with overlay := Dict.empty, holdOverlay := Dict.empty, keyed := keyed_empty }

/-! ### What is read after a commit -/

theorem holdGet_keyed {itemKey : Text} {row : HoldRow} (hget : cache.holdGet itemKey = some row) : row.itemKey = itemKey := by
  rw [holdGet] at hget
  cases hstaged : cache.holdOverlay.get? itemKey with
  | some staged =>
      rw [hstaged] at hget
      subst hget
      exact cache.keyed itemKey row hstaged
  | none =>
      rw [hstaged] at hget
      obtain ⟨columns, -, rfl⟩ := Option.map_eq_some_iff.1 hget
      rfl

theorem get?_storedHolds (patronPk : Digest) (itemKey : Text) :
    (cache.storedHolds patronPk).get? itemKey =
      ((cache.holds.get? itemKey).map (holdFrom itemKey)).filter fun row => row.patronPk = patronPk := by
  rw [storedHolds, Dict.get?_alterAll, Dict.get?_filter]
  cases cache.holds.get? itemKey with
  | none => rfl
  | some columns =>
      by_cases hpk : columns.patronPk = patronPk
      · simp [Option.filter, holdFrom, hpk]
      · simp [Option.filter, holdFrom, hpk]

theorem get?_found (patronPk : Digest) (itemKey : Text) :
    (cache.found patronPk).get? itemKey = (cache.holdGet itemKey).filter fun row => row.patronPk = patronPk := by
  rw [found, Dict.get?_alterAll, get?_storedHolds, holdGet]
  cases cache.holdOverlay.get? itemKey <;> rfl

theorem found_keyed (patronPk : Digest) (itemKey : Text) (row : HoldRow) (hget : (cache.found patronPk).get? itemKey = some row) :
    row.itemKey = itemKey := by
  rw [get?_found, Option.filter_eq_some_iff] at hget
  exact cache.holdGet_keyed hget.1

theorem holdsForPatron_perm (patronPk : Digest) :
    (cache.holdsForPatron patronPk).Perm ((cache.found patronPk).entries.map Prod.snd) :=
  List.mergeSort_perm _ _

/-- The holds of a patron are the rows that their items hold now. -/
theorem mem_holdsForPatron {patronPk : Digest} {row : HoldRow} :
    row ∈ cache.holdsForPatron patronPk ↔ cache.holdGet row.itemKey = some row ∧ row.patronPk = patronPk := by
  rw [(cache.holdsForPatron_perm patronPk).mem_iff, Dict.mem_map_snd_iff (cache.found_keyed patronPk), get?_found,
    Option.filter_eq_some_iff, decide_eq_true_eq]

theorem nodup_itemKeys (patronPk : Digest) : ((cache.holdsForPatron patronPk).map HoldRow.itemKey).Nodup :=
  ((cache.holdsForPatron_perm patronPk).map HoldRow.itemKey).nodup_iff.2 (Dict.nodup_map_keyOf (cache.found_keyed patronPk))

theorem holdLe_total (left right : HoldRow) : (holdLe left right || holdLe right left) = true := by
  rw [Bool.or_eq_true, holdLe, holdLe]
  by_cases htime : left.eventTime = right.eventTime
  · rw [if_pos htime, if_pos htime.symm]
    exact textLe_total _ _
  · rw [if_neg htime, if_neg fun h => htime h.symm]
    exact textLe_total _ _

theorem holdLe_trans (first second third : HoldRow) (hfirst : holdLe first second = true) (hsecond : holdLe second third = true) :
    holdLe first third = true := by
  rw [holdLe] at hfirst hsecond ⊢
  by_cases htime : first.eventTime = third.eventTime
  · rw [if_pos htime]
    by_cases hmiddle : first.eventTime = second.eventTime
    · rw [if_pos hmiddle] at hfirst
      rw [if_pos (hmiddle.symm.trans htime)] at hsecond
      exact textLe_trans hfirst hsecond
    · rw [if_neg hmiddle] at hfirst
      rw [if_neg fun h => hmiddle (htime.trans h.symm)] at hsecond
      rw [← htime] at hsecond
      exact absurd (textLe_antisymm hfirst hsecond) hmiddle
  · rw [if_neg htime]
    by_cases hmiddle : first.eventTime = second.eventTime
    · rw [if_neg fun h => htime (hmiddle.trans h), ← hmiddle] at hsecond
      exact hsecond
    · rw [if_neg hmiddle] at hfirst
      by_cases hlast : second.eventTime = third.eventTime
      · rw [← hlast]
        exact hfirst
      · rw [if_neg hlast] at hsecond
        exact textLe_trans hfirst hsecond

theorem holdLe_antisymm {left right : HoldRow} (hle : holdLe left right = true) (hge : holdLe right left = true) :
    left.itemKey = right.itemKey := by
  rw [holdLe] at hle hge
  by_cases htime : left.eventTime = right.eventTime
  · rw [if_pos htime] at hle
    rw [if_pos htime.symm] at hge
    exact textLe_antisymm hle hge
  · rw [if_neg htime] at hle
    rw [if_neg fun h => htime h.symm] at hge
    exact absurd (textLe_antisymm hle hge) htime

theorem sorted_holdsForPatron (patronPk : Digest) :
    (cache.holdsForPatron patronPk).Pairwise fun left right => holdLe left right = true :=
  List.pairwise_mergeSort holdLe_trans holdLe_total _

/-- The holds of a patron depend on nothing but what each item holds. -/
theorem holdsForPatron_congr {first second : PatronCache} (hget : ∀ itemKey, first.holdGet itemKey = second.holdGet itemKey)
    (patronPk : Digest) : first.holdsForPatron patronPk = second.holdsForPatron patronPk := by
  apply List.Perm.eq_of_pairwise _ (first.sorted_holdsForPatron patronPk) (second.sorted_holdsForPatron patronPk)
  · apply (List.perm_ext_iff_of_nodup (first.nodup_itemKeys patronPk).of_map (second.nodup_itemKeys patronPk).of_map).2
    intro row
    rw [mem_holdsForPatron, mem_holdsForPatron, hget]
  · intro left right hleft hright hle hge
    have hkey := holdLe_antisymm hle hge
    have hfirst := (first.mem_holdsForPatron.1 hleft).1
    have hsecond := (second.mem_holdsForPatron.1 hright).1
    rw [hkey, hget, hsecond] at hfirst
    exact (Option.some.inj hfirst).symm

variable {cache}

theorem lookup_commit (hwritable : cache.readOnly = false) (pk : Digest) : cache.commit.lookup pk = cache.lookup pk := by
  rw [commit, hwritable, lookup, lookup]
  show (Option.map PatronColumns.info ((Dict.alterAll _ cache.overlay cache.patrons).get? pk)) = _
  rw [Dict.get?_alterAll]
  cases cache.overlay.get? pk with
  | none => rfl
  | some staged =>
      cases hprofile : staged.profile with
      | true => cases cache.patrons.get? pk <;> simp [upsertPatron, hprofile, PatronColumns.info]
      | false => cases cache.patrons.get? pk <;> simp [upsertPatron, hprofile, PatronColumns.info, PatronInfo.unknown, intFlag]

theorem contains_commit (hwritable : cache.readOnly = false) (pk : Digest) : cache.commit.contains pk = cache.contains pk := by
  rw [commit, hwritable, contains, contains]
  show (false || ((Dict.alterAll _ cache.overlay cache.patrons).get? pk).isSome) = _
  rw [Dict.get?_alterAll, Bool.false_or]
  cases cache.overlay.get? pk <;> rfl

theorem holdGet_commit (hwritable : cache.readOnly = false) (itemKey : Text) : cache.commit.holdGet itemKey = cache.holdGet itemKey := by
  rw [commit, hwritable, holdGet, holdGet]
  show Option.map (holdFrom itemKey) ((Dict.alterAll _ cache.holdOverlay cache.holds).get? itemKey) = _
  rw [Dict.get?_alterAll]
  cases hstaged : cache.holdOverlay.get? itemKey with
  | none => rfl
  | some staged =>
      cases staged with
      | none => rfl
      | some row =>
          have hkey := cache.keyed itemKey row hstaged
          subst hkey
          simp

/-! ### Runs -/

end PatronCache

/-- One call that changes a cache. -/
inductive CacheCall where
  | stage (pk : Digest) (nameK : Option Digest) (typeIll nameIll profile : Bool)
  | holdPut (row : HoldRow)
  | holdDelete (itemKey : Text)
  | commit
  | discard

namespace PatronCache

def step (cache : PatronCache) : CacheCall → PatronCache
  | .stage pk nameK typeIll nameIll profile => cache.stage pk nameK typeIll nameIll profile
  | .holdPut row => cache.holdPut row
  | .holdDelete itemKey => cache.holdDelete itemKey
  | .commit => cache.commit
  | .discard => cache.discard

def run (cache : PatronCache) (calls : List CacheCall) : PatronCache := calls.foldl step cache

/-- Nothing but a commit writes a stored table. -/
theorem discard_step (cache : PatronCache) {call : CacheCall} (hcall : call ≠ .commit) : (cache.step call).discard = cache.discard := by
  cases call with
  | stage pk nameK typeIll nameIll profile =>
      show (cache.stage pk nameK typeIll nameIll profile).discard = cache.discard
      rw [stage]
      split <;> rfl
  | holdPut row => rfl
  | holdDelete itemKey => rfl
  | commit => exact absurd rfl hcall
  | discard => rfl

theorem discard_run (cache : PatronCache) {calls : List CacheCall} (hcalls : .commit ∉ calls) :
    (cache.run calls).discard = cache.discard := by
  induction calls generalizing cache with
  | nil => rfl
  | cons call calls ih =>
      rw [List.mem_cons, not_or] at hcalls
      calc ((cache.step call).run calls).discard = (cache.step call).discard := ih _ hcalls.2
        _ = cache.discard := cache.discard_step fun h => hcalls.1 h.symm

theorem readOnly_step (cache : PatronCache) (call : CacheCall) : (cache.step call).readOnly = cache.readOnly := by
  cases call with
  | stage pk nameK typeIll nameIll profile =>
      show (cache.stage pk nameK typeIll nameIll profile).readOnly = cache.readOnly
      rw [stage]
      split <;> rfl
  | holdPut row => rfl
  | holdDelete itemKey => rfl
  | commit =>
      show cache.commit.readOnly = cache.readOnly
      rw [commit]
      split <;> rfl
  | discard => rfl

theorem readOnly_run (cache : PatronCache) (calls : List CacheCall) : (cache.run calls).readOnly = cache.readOnly := by
  induction calls generalizing cache with
  | nil => rfl
  | cons call calls ih => exact (ih (cache.step call)).trans (cache.readOnly_step call)

/-- A commit leaves nothing staged. -/
theorem discard_commit (cache : PatronCache) : cache.commit.discard = cache.commit := by
  rw [commit]
  split <;> rfl

/-- Two caches that answer every question alike. -/
structure Agree (rules : Rules) (first second : PatronCache) : Prop where
  outcome : ∀ pk, profileOutcome (first.lookup pk) rules = profileOutcome (second.lookup pk) rules
  contains : ∀ pk, first.contains pk = second.contains pk
  holdGet : ∀ itemKey, first.holdGet itemKey = second.holdGet itemKey
  holdsForPatron : ∀ patronPk, first.holdsForPatron patronPk = second.holdsForPatron patronPk

theorem Agree.of_eq {rules : Rules} {first second : PatronCache} (h : first = second) : Agree rules first second := by
  subst h
  exact ⟨fun _ => rfl, fun _ => rfl, fun _ => rfl, fun _ => rfl⟩

theorem agree_commit (rules : Rules) {cache : PatronCache} (hwritable : cache.readOnly = false) : Agree rules cache.commit cache where
  outcome pk := congrArg (profileOutcome · rules) (lookup_commit hwritable pk)
  contains := contains_commit hwritable
  holdGet := holdGet_commit hwritable
  holdsForPatron := holdsForPatron_congr (holdGet_commit hwritable)

/-- The overlay is a transaction: a commit changes no answer, a discard goes back to the answers after the last commit or
the opening, and at all times the holds of a patron are the current holds of the items, each once and in order. -/
theorem overlay_is_a_transaction (rules : Rules) (today : Text) (patrons : Dict Digest PatronColumns) (holds : Dict Text HoldColumns)
    (calls : List CacheCall) :
    let opened := «open» false today patrons holds
    let cache := opened.run calls
    Agree rules cache.commit cache
      ∧ (∀ later, .commit ∉ later → Agree rules ((cache.commit.run later).discard) cache.commit)
      ∧ (.commit ∉ calls → Agree rules cache.discard opened)
      ∧ ∀ patronPk, (∀ row, row ∈ cache.holdsForPatron patronPk ↔ cache.holdGet row.itemKey = some row ∧ row.patronPk = patronPk)
        ∧ (cache.holdsForPatron patronPk).Pairwise (fun left right => holdLe left right = true)
        ∧ ((cache.holdsForPatron patronPk).map HoldRow.itemKey).Nodup := by
  intro opened cache
  refine ⟨agree_commit rules (opened.readOnly_run calls), ?_, ?_, ?_⟩
  · intro later hlater
    exact Agree.of_eq ((cache.commit.discard_run hlater).trans cache.discard_commit)
  · intro hcalls
    exact Agree.of_eq (opened.discard_run hcalls)
  · intro patronPk
    exact ⟨fun row => cache.mem_holdsForPatron, cache.sorted_holdsForPatron patronPk, cache.nodup_itemKeys patronPk⟩

end PatronCache

end SortView
