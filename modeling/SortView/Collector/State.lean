import SortView.Lib.Dict
import SortView.Collector.Reader

/-!
# The state document (`collector/state.py`)

The saved position of each source. A position that no real file could have is refused where it is built,
so a `SourceState` carries its bound.
-/

namespace SortView

open PyText Reader

namespace State

def maxPlausibleOffset : Nat := 10 ^ 18

structure SourceState where
  identity : Option Token
  offset : Nat
  offset_le : offset ≤ maxPlausibleOffset

inductive StateError where
  | corrupt
  | offsetTooLarge (offset : Nat)

structure CollectorState where
  sources : Dict Text SourceState

def emptyState : CollectorState := ⟨Dict.empty⟩

def getSource (state : CollectorState) (name : Text) : Option SourceState := state.sources.get? name

def withSource (state : CollectorState) (name : Text) (sourceState : SourceState) : CollectorState :=
  ⟨state.sources.set name sourceState⟩

/-- The state file: not there, not a state document, or a document. -/
inductive StateFile where
  | missing
  | corrupt
  | document (state : CollectorState)

def loadState : StateFile → Except StateError CollectorState
  | .missing => .ok emptyState
  | .corrupt => .error .corrupt
  | .document state => .ok state

/-- `_cursor_from_source_state` (`collector/run.py`). -/
def cursorFromSourceState (sourceState : SourceState) : SourceCursor := ⟨sourceState.identity, sourceState.offset⟩

/-- `_source_state_from_cursor` (`collector/run.py`), with the check of `SourceState.__post_init__`. -/
def sourceStateFromCursor (cursor : SourceCursor) : Except StateError SourceState :=
  if h : cursor.offset ≤ maxPlausibleOffset then .ok ⟨cursor.identity, cursor.offset, h⟩
  else .error (.offsetTooLarge cursor.offset)

/-- The saved cursor of a source. -/
def cursorOf (state : CollectorState) (name : Text) : Option SourceCursor :=
  (getSource state name).map cursorFromSourceState

/-- The new state of a run: the old one with the cursor of every source that was read. -/
def withCursors : List (Text × SourceCursor) → CollectorState → Except StateError CollectorState
  | [], state => .ok state
  | (name, cursor) :: cursors, state =>
      match sourceStateFromCursor cursor with
      | .error error => .error error
      | .ok sourceState => withCursors cursors (withSource state name sourceState)

theorem cursorFromSourceState_of_ok {cursor : SourceCursor} {sourceState : SourceState}
    (h : sourceStateFromCursor cursor = .ok sourceState) : cursorFromSourceState sourceState = cursor := by
  rw [sourceStateFromCursor] at h
  split at h
  · cases h
    rfl
  · cases h

theorem cursorOf_withSource (state : CollectorState) (name other : Text) (sourceState : SourceState) :
    cursorOf (withSource state name sourceState) other
      = if other = name then some (cursorFromSourceState sourceState) else cursorOf state other := by
  rw [cursorOf, getSource, withSource, Dict.get?_set]
  split
  · rfl
  · rfl

theorem cursorOf_withCursors {cursors : List (Text × SourceCursor)} {state saved : CollectorState}
    (hnodup : (cursors.map Prod.fst).Nodup) (h : withCursors cursors state = .ok saved) (name : Text) :
    cursorOf saved name = ((cursors.find? fun entry => entry.1 = name).map Prod.snd).or (cursorOf state name) := by
  induction cursors generalizing state with
  | nil =>
      cases h
      rfl
  | cons entry cursors ih =>
      obtain ⟨first, cursor⟩ := entry
      rw [List.map_cons, List.nodup_cons] at hnodup
      rw [withCursors] at h
      cases hok : sourceStateFromCursor cursor with
      | error error => simp [hok] at h
      | ok sourceState =>
          rw [hok] at h
          rw [ih hnodup.2 h, cursorOf_withSource, List.find?_cons]
          by_cases hname : name = first
          · subst hname
            have hnone : (cursors.find? fun entry => entry.1 = name) = none := by
              rw [List.find?_eq_none]
              intro entry hmem heq
              exact hnodup.1 (List.mem_map.2 ⟨entry, hmem, by simpa using heq⟩)
            simp [hnone, cursorFromSourceState_of_ok hok]
          · have hne : first ≠ name := fun h => hname h.symm
            simp [hname, hne]

end State

end SortView
