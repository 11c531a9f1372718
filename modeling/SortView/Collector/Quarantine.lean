import SortView.Collector.Events
import SortView.Lib.TextOrder
import SortView.Lib.IsoTime

/-!
# The quarantine (`collector/v2_quarantine.py`)

The events that a server refused for good, by list and key. The fields of an entry come from a safe event, so its checks hold.
-/

namespace SortView

open PyText Calendar

/-- `REASONS`. -/
inductive QuarantineReason where
  | eventConflict
  | invalidEvent
  deriving DecidableEq

structure QuarantineEntry where
  eventKey : Text
  kind : Kind
  eventTime : Text
  reason : QuarantineReason
  quarantinedOn : Text
  deriving DecidableEq

/-- The entry of an event. -/
def QuarantineEntry.of (reason : QuarantineReason) (today : Text) (event : SafeEvent) : QuarantineEntry :=
  ⟨event.eventKey, event.kind, formatTime event.eventTime, reason, today⟩

/-- What an entry is known by. -/
def QuarantineEntry.identity (entry : QuarantineEntry) : Kind × Text := (entry.kind, entry.eventKey)

/-- An open quarantine. `cutoff` is the first day that is retained. -/
structure Quarantine where
  maxEntries : Nat
  cutoff : Text
  readOnly : Bool
  entries : List QuarantineEntry

namespace Quarantine

/-- `_prune`: what is retained, and of that the latest entries. -/
def prune (quarantine : Quarantine) : Quarantine :=
  let kept := quarantine.entries.filter fun entry => textLe quarantine.cutoff entry.quarantinedOn
  { quarantine with entries := kept.drop (kept.length - quarantine.maxEntries) }

/-- The entries of a file, pruned. -/
def load (maxEntries : Nat) (cutoff : Text) (readOnly : Bool) (entries : List QuarantineEntry) : Quarantine :=
  prune ⟨maxEntries, cutoff, readOnly, entries⟩

def contains (quarantine : Quarantine) (kind : Kind) (eventKey : Text) : Bool :=
  quarantine.entries.any fun entry => entry.kind = kind && entry.eventKey = eventKey

/-- `keys_for`. -/
def keysFor (quarantine : Quarantine) (kind : Kind) : List Text :=
  (quarantine.entries.filter fun entry => entry.kind = kind).map QuarantineEntry.eventKey

/-- One new entry, unless its identity is known. -/
def addEntry (entries : List QuarantineEntry) (entry : QuarantineEntry) : List QuarantineEntry :=
  if entry.identity ∈ entries.map QuarantineEntry.identity then entries else entries ++ [entry]

/-- `add`, which saves what is left. -/
def add (quarantine : Quarantine) (newEntries : List QuarantineEntry) : Quarantine :=
  if quarantine.readOnly then quarantine
  else prune { quarantine with entries := newEntries.foldl addEntry quarantine.entries }

/-! ### What a quarantine keeps -/

/-- At most the number that is allowed, all of them retained, and each identity once. -/
structure Sound (quarantine : Quarantine) : Prop where
  bounded : quarantine.entries.length ≤ quarantine.maxEntries
  retained : ∀ entry ∈ quarantine.entries, textLe quarantine.cutoff entry.quarantinedOn = true
  distinct : (quarantine.entries.map QuarantineEntry.identity).Nodup

theorem entries_prune_sublist (quarantine : Quarantine) : quarantine.prune.entries.Sublist quarantine.entries :=
  (List.drop_sublist ..).trans List.filter_sublist

theorem sound_prune {quarantine : Quarantine} (hdistinct : (quarantine.entries.map QuarantineEntry.identity).Nodup) :
    quarantine.prune.Sound := by
  refine ⟨?_, ?_, hdistinct.sublist ((entries_prune_sublist quarantine).map _)⟩
  · rw [prune, List.length_drop]
    dsimp only
    omega
  · intro entry hentry
    exact (List.mem_filter.1 (List.mem_of_mem_drop hentry)).2

theorem nodup_addEntry {entries : List QuarantineEntry} (hdistinct : (entries.map QuarantineEntry.identity).Nodup)
    (entry : QuarantineEntry) : ((addEntry entries entry).map QuarantineEntry.identity).Nodup := by
  rw [addEntry]
  split
  · exact hdistinct
  · next hnew =>
    rw [List.map_append, List.map_singleton]
    exact hdistinct.append (List.nodup_singleton _) (by simpa using hnew)

theorem nodup_foldl_addEntry {entries : List QuarantineEntry} (hdistinct : (entries.map QuarantineEntry.identity).Nodup)
    (newEntries : List QuarantineEntry) : ((newEntries.foldl addEntry entries).map QuarantineEntry.identity).Nodup := by
  induction newEntries generalizing entries with
  | nil => exact hdistinct
  | cons entry newEntries ih => exact ih (nodup_addEntry hdistinct entry)

theorem Sound.add {quarantine : Quarantine} (h : quarantine.Sound) (newEntries : List QuarantineEntry) :
    (quarantine.add newEntries).Sound := by
  rw [Quarantine.add]
  split
  · exact h
  · exact sound_prune (nodup_foldl_addEntry h.distinct newEntries)

theorem contains_iff {quarantine : Quarantine} {kind : Kind} {eventKey : Text} :
    quarantine.contains kind eventKey = true ↔ (kind, eventKey) ∈ quarantine.entries.map QuarantineEntry.identity := by
  rw [contains, List.any_eq_true, List.mem_map]
  simp [QuarantineEntry.identity, Prod.ext_iff]

theorem mem_keysFor_iff {quarantine : Quarantine} {kind : Kind} {eventKey : Text} :
    eventKey ∈ quarantine.keysFor kind ↔ quarantine.contains kind eventKey = true := by
  rw [contains_iff, keysFor, List.mem_map, List.mem_map]
  constructor
  · rintro ⟨entry, hentry, rfl⟩
    obtain ⟨hmem, hkind⟩ := List.mem_filter.1 hentry
    exact ⟨entry, hmem, Prod.ext (of_decide_eq_true hkind) rfl⟩
  · rintro ⟨entry, hmem, hidentity⟩
    have hkind := congrArg Prod.fst hidentity
    have hkey := congrArg Prod.snd hidentity
    exact ⟨entry, List.mem_filter.2 ⟨hmem, decide_eq_true hkind⟩, hkey⟩

/-! ### What an addition keeps -/

theorem mem_identity_foldl {entries newEntries : List QuarantineEntry} {identity : Kind × Text} :
    identity ∈ (newEntries.foldl addEntry entries).map QuarantineEntry.identity
      ↔ identity ∈ entries.map QuarantineEntry.identity ∨ identity ∈ newEntries.map QuarantineEntry.identity := by
  induction newEntries generalizing entries with
  | nil => simp
  | cons entry newEntries ih =>
      rw [List.foldl_cons, ih, addEntry]
      split
      · next hknown =>
        rw [List.map_cons, List.mem_cons]
        constructor
        · rintro (h | h)
          · exact Or.inl h
          · exact Or.inr (Or.inr h)
        · rintro (h | rfl | h)
          · exact Or.inl h
          · exact Or.inl hknown
          · exact Or.inr h
      · rw [List.map_append, List.map_singleton, List.mem_append, List.mem_singleton, List.map_cons, List.mem_cons, or_assoc]

theorem length_foldl_addEntry_le (entries newEntries : List QuarantineEntry) :
    (newEntries.foldl addEntry entries).length ≤ entries.length + newEntries.length := by
  induction newEntries generalizing entries with
  | nil => exact Nat.le_refl _
  | cons entry newEntries ih =>
      have hstep : (addEntry entries entry).length ≤ entries.length + 1 := by
        rw [addEntry]
        split
        · exact Nat.le_succ _
        · rw [List.length_append, List.length_singleton]
      have hrest := ih (addEntry entries entry)
      rw [List.foldl_cons, List.length_cons]
      omega

theorem mem_foldl_addEntry {entries newEntries : List QuarantineEntry} {entry : QuarantineEntry}
    (h : entry ∈ newEntries.foldl addEntry entries) : entry ∈ entries ∨ entry ∈ newEntries := by
  induction newEntries generalizing entries with
  | nil => exact Or.inl h
  | cons first newEntries ih =>
      rcases ih h with hstep | hrest
      · rw [addEntry] at hstep
        split at hstep
        · exact Or.inl hstep
        · rcases List.mem_append.1 hstep with hold | hnew
          · exact Or.inl hold
          · exact Or.inr (List.mem_cons.2 (Or.inl (List.mem_singleton.1 hnew)))
      · exact Or.inr (List.mem_cons_of_mem _ hrest)

/-- While there is room, entries of a retained day are added and none is lost. -/
theorem contains_add {quarantine : Quarantine} (h : quarantine.Sound) (hwritable : quarantine.readOnly = false)
    {newEntries : List QuarantineEntry} (hday : ∀ entry ∈ newEntries, textLe quarantine.cutoff entry.quarantinedOn = true)
    (hroom : quarantine.entries.length + newEntries.length ≤ quarantine.maxEntries) (kind : Kind) (eventKey : Text) :
    (quarantine.add newEntries).contains kind eventKey = true
      ↔ quarantine.contains kind eventKey = true ∨ (kind, eventKey) ∈ newEntries.map QuarantineEntry.identity := by
  have hretained : ∀ entry ∈ newEntries.foldl addEntry quarantine.entries, textLe quarantine.cutoff entry.quarantinedOn = true := by
    intro entry hentry
    rcases mem_foldl_addEntry hentry with hold | hnew
    · exact h.retained entry hold
    · exact hday entry hnew
  have hlength := length_foldl_addEntry_le quarantine.entries newEntries
  rw [contains_iff, contains_iff, Quarantine.add, if_neg (by rw [hwritable]; exact Bool.false_ne_true), prune,
    List.filter_eq_self.2 hretained]
  dsimp only
  rw [Nat.sub_eq_zero_of_le (hlength.trans hroom), List.drop_zero]
  exact mem_identity_foldl

end Quarantine

end SortView
