import SortView.Collector.DeliveredBatches
import SortView.Collector.V2Run

/-!
# The Collector and its server

Runs against a server that stores events, where any request and any answer may be lost and others may write before any request: what the
saved cursor has passed is stored.
-/

namespace SortView

open PyText Calendar Transform FirstWriter Delivery

namespace V2Run

/-! ### A server behind a network -/

/-- The tables of a server, with the requests it was sent. -/
structure Server where
  tables : EventTables
  unique : tables.Unique
  requests : Nat

/-- What becomes of a request. -/
inductive Fate where
  | delivered
  | requestLost
  | answerLost
  deriving DecidableEq

theorem unique_upload (customerId branchId : Int) {tables : EventTables} (hunique : tables.Unique) (batch : UploadBatch) :
    (upload customerId branchId tables batch).1.Unique := by
  obtain ⟨hrefused, hstored⟩ := uploadEvents_eq ⟨customerId, branchId, batch.keyId⟩ (received batch) hunique
  rw [upload]
  by_cases hconflicting : (received batch).Conflicting ⟨customerId, branchId, batch.keyId⟩ tables
  · rw [hrefused hconflicting]
    exact hunique
  · rw [hstored hconflicting]
    exact hunique.added _ _

variable (customerId branchId : Int)

/-- A request that arrives. -/
def Server.serve (server : Server) (batch : UploadBatch) : Server × Answer :=
  (⟨(upload customerId branchId server.tables batch).1, unique_upload customerId branchId server.unique batch, server.requests + 1⟩,
    (upload customerId branchId server.tables batch).2)

/-- A request with the fate of its number. -/
def Server.post (fate : Nat → Fate) (server : Server) (batch : UploadBatch) : Server × Answer :=
  match fate server.requests with
  | .delivered => server.serve customerId branchId batch
  | .requestLost => ({ server with requests := server.requests + 1 }, .requestException)
  | .answerLost => ((server.serve customerId branchId batch).1, .requestException)

/-- The row of the key of a row has its content. -/
def StoredIn {ρ γ : Type} (kind : RowKind ρ γ) (table : List (ScopedRow ρ)) (row : ScopedRow ρ) : Prop :=
  ∃ first, stored (scopedKey kind) table (scopedKey kind row) = some first ∧ scopedContent kind first = scopedContent kind row

/-- Stored rows stay. -/
def Keep {ρ γ : Type} (kind : RowKind ρ γ) (before after : List (ScopedRow ρ)) : Prop :=
  ∀ key row, stored (scopedKey kind) before key = some row → stored (scopedKey kind) after key = some row

/-- Stored rows stay in the three tables. -/
structure Grown (before after : Server) : Prop where
  checkins : Keep checkinKind before.tables.checkins after.tables.checkins
  rejects : Keep rejectKind before.tables.rejects after.tables.rejects
  acsItems : Keep acsItemKind before.tables.acsItems after.tables.acsItems

theorem Grown.trans {first second third : Server} (hfirst : Grown first second) (hsecond : Grown second third) : Grown first third :=
  ⟨fun key row h => hsecond.checkins key row (hfirst.checkins key row h), fun key row h => hsecond.rejects key row (hfirst.rejects key row h),
    fun key row h => hsecond.acsItems key row (hfirst.acsItems key row h)⟩

theorem StoredIn.mono {ρ γ : Type} {kind : RowKind ρ γ} {before after : List (ScopedRow ρ)} (hkeep : Keep kind before after)
    {row : ScopedRow ρ} (h : StoredIn kind before row) : StoredIn kind after row := by
  obtain ⟨first, hfirst, hcontent⟩ := h
  exact ⟨first, hkeep _ _ hfirst, hcontent⟩

end V2Run

end SortView
