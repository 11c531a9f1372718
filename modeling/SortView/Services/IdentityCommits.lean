import SortView.Services.CodeCommits

/-!
# Keys and redemptions

What an ingest key, its retirement and the redemption of a code guarantee when they are committed.
-/

namespace SortView

open PyText Transactions Transactions.Protocol Tables Registry Enrollment IngestKeys

variable {secret : Secrecy} {permits : RegistryAnswer → Locks Row → Registry → Prop} {locks : Locks Row}
  {committed : Registry}

/-! ### The tenant of a pair -/

section Tenants

variable {reg : Registry} {customer branch organization : Nat}

theorem tenantStatus_eq_some {status : OrganizationStatus} (hinv : reg.Constraints)
    (h : reg.tenantStatus customer branch = some status) : ∃ organization row,
      reg.MappedPair organization customer branch ∧ reg.organizations.get? organization = some row ∧ row.status = status := by
  obtain ⟨entry, hmem, hfound⟩ := List.exists_of_findSome?_eq_some h
  split at hfound
  next hbranch =>
    obtain ⟨row, hrow, hstatus⟩ := Option.bind_eq_some_iff.1 hfound
    split at hstatus
    next hcustomer =>
      have hget := (Dict.get?_eq_some_iff _ _ _).2 hmem
      have hown := hinv.branches entry.1 entry.2 branch hget hbranch
      cases hstatus
      exact ⟨_, row, ⟨⟨row, hrow, hcustomer⟩, entry.2, hown ▸ hget, rfl, hbranch⟩, hrow, rfl⟩
    next => cases hstatus
  next => cases hfound

theorem organizationOfCustomer_eq (hinv : reg.Constraints) (hpair : reg.MappedPair organization customer branch) :
    reg.organizationOfCustomer customer = some organization := by
  obtain ⟨⟨row, hrow, hcustomer⟩, _⟩ := hpair
  refine find?_entries (fun row => decide (row.operationalCustomerId = some customer)) hrow (by simpa using hcustomer) fun id' row' hrow' hsame => ?_
  exact hinv.customers id' organization row' row customer hrow' hrow (by simpa using hsame) hcustomer

theorem branchOfOperational_eq (hinv : reg.Constraints) (hpair : reg.MappedPair organization customer branch) :
    reg.branchOfOperational branch = some branch := by
  obtain ⟨_, row, hrow, _, hown⟩ := hpair
  refine find?_entries (fun row => decide (row.operationalBranchId = some branch)) hrow (by simpa using hown) fun id' row' hrow' hsame => ?_
  exact (hinv.branches id' row' branch hrow' (by simpa using hsame)).symm

theorem hasActiveKey_of_unownedKeyProblem (h : unownedKeyProblem (keysOf reg customer branch) = none) :
    reg.hasActiveKey customer branch = false := by
  rw [hasActiveKey_eq_false_iff]
  intro id key hkey hcustomer hbranch
  by_contra hactive
  have hmem : key ∈ (keysOf reg customer branch).filter KeyRow.isActive := by
    refine List.mem_filter.2 ⟨List.mem_filter.2 ⟨List.mem_map.2 ⟨(id, key), ?_, rfl⟩, ?_⟩, by simpa using hactive⟩
    · exact (Dict.get?_eq_some_iff _ _ _).1 hkey
    · simp [hcustomer, hbranch]
  simp only [unownedKeyProblem] at h
  split_ifs at h with _ hnone
  rw [not_not] at hnone
  rw [hnone] at hmem
  cases hmem

end Tenants

/-! ### Unowned keys -/

/-- The locks of a tenant, if the pair is one. -/
theorem wp_lockTenant {post : Unit → Locks Row → (Registry → Registry) → Registry → Prop} {customer branch : Nat}
    (h : ∀ now more, (registryProtocol secret permits).Rely locks committed now → now.Constraints → locks ⊆ more →
      (∀ organization, now.MappedPair organization customer branch →
        Held more (.organization organization) ∧ WriteLocked more (.branch branch)) → post () more id now) :
    (registryProtocol secret permits).Wp post (lockTenantForUnownedKey customer branch) locks id committed := by
  -- the branch, when what was found of the organization is held
  have hbranch : ∀ first more, (registryProtocol secret permits).Rely locks committed first → first.Constraints →
      locks ⊆ more → (∀ organization, first.MappedPair organization customer branch → Held more (.organization organization)) →
      (registryProtocol secret permits).Wp (fun _ => post ())
        (Tx.lockFirst .noKeyUpdate (fun reg => reg.branchOfOperational branch) Row.branch fun id reg =>
          (reg.branches.get? id).bind fun row => if row.operationalBranchId = some branch then some id else none :
            RegistryTx (Option Nat))
        more id first := by
    intro first more hfirst hfirstInv hmore hheld
    refine wp_lockFirst (fun second hsecond hsecondInv hnone => ?_)
      fun seen second found hseen hseenInv hfound hsecond hsecondInv => ?_
    · refine h second more (hfirst.trans (Rely.mono hsecond hmore)) hsecondInv hmore fun organization hpair => ?_
      rw [id_eq, branchOfOperational_eq hsecondInv hpair] at hnone
      cases hnone
    · have hreached := hseen.trans hsecond
      refine h second _ (hfirst.trans (Rely.mono hreached hmore)) hsecondInv (fun _ hmem => .tail _ (hmore hmem))
        fun organization hpair => ?_
      have hfirstPair := (rely_mappedPair_iff hreached hfirstInv).1 hpair
      rw [id_eq, branchOfOperational_eq hseenInv ((rely_mappedPair_iff hsecond hseenInv).1 hpair)] at hfound
      cases hfound
      exact ⟨(hheld organization hfirstPair).mono (List.subset_cons_self _ _), .inl List.mem_cons_self⟩
  simp only [lockTenantForUnownedKey, wp_bind]
  refine wp_lockFirst (fun first hfirst hfirstInv hnone => ?_)
    fun seen first found hseen hseenInv hfound hfirst hfirstInv => ?_
  · refine hbranch first locks hfirst hfirstInv (List.Subset.refl _) fun organization hpair => ?_
    rw [id_eq, organizationOfCustomer_eq hfirstInv hpair] at hnone
    cases hnone
  · refine hbranch first _ (hseen.trans hfirst) hfirstInv (List.subset_cons_self _ _) fun organization hpair => ?_
    rw [id_eq, organizationOfCustomer_eq hseenInv ((rely_mappedPair_iff hfirst hseenInv).1 hpair)] at hfound
    cases hfound
    exact held_of_mem List.mem_cons_self (by decide)

/-- The tenant is there, and not cancelled. -/
theorem wp_requireProvisionable {post : Unit → Locks Row → (Registry → Registry) → Registry → Prop} {customer branch : Nat}
    {redo : Registry → Registry} (hredo : LeavesTenants redo)
    (h : ∀ now organization, (registryProtocol secret permits).Rely locks committed now → now.Constraints →
      now.MappedPair organization customer branch → ¬ now.Cancelled organization → post () locks redo now) :
    (registryProtocol secret permits).Wp post (requireProvisionableTenant customer branch) locks redo committed := by
  simp only [requireProvisionableTenant, wp_bind, wp_select]
  intro now hnow hnowInv
  have hsame : (redo now).tenantStatus customer branch = now.tenantStatus customer branch := by
    unfold tenantStatus
    rw [hredo.branches, hredo.organizations]
  rw [hsame]
  cases hstatus : now.tenantStatus customer branch with
  | none => trivial
  | some status =>
      simp only [wp_require]
      intro hlive
      obtain ⟨organization, row, hpair, hrow, rfl⟩ := tenantStatus_eq_some hnowInv hstatus
      exact h now organization hnow hnowInv hpair (not_cancelled_of_row hrow hlive)

theorem commits_issueIngestKey {customer branch : Nat} {draw : KeyDraw} :
    (registryProtocol secret permits).Wp (fun keyId => (registryProtocol secret permits).Commits (.key keyId))
      (issueIngestKey customer branch none none draw) locks id committed := by
  simp only [issueIngestKey, lockForOwner, refuseForOwner, refuseAnUnownedKey, Option.isNone_none, if_true, wp_bind]
  refine wp_lockTenant fun first more hfirst hfirstInv hmore hheld => ?_
  refine wp_requireProvisionable leavesTenants_id fun second organization hsecond hsecondInv hpair hlive => ?_
  obtain ⟨horganization, hbranch⟩ := hheld organization ((rely_mappedPair_iff hsecond hfirstInv).1 hpair)
  have hbranchHeld : Held more (.branch branch) := hbranch.elim (held_of_mem · (by decide)) (held_of_mem · (by decide))
  simp only [wp_select]
  intro third hthird hthirdInv
  cases hproblem : unownedKeyProblem (keysOf (id third) customer branch) with
  | some problem => trivial
  | none =>
      simp only [wp_bind, wp_select, wp_require]
      intro fourth hfourth hfourthInv _
      refine wp_insertKey hfourthInv (fun _ => rfl) fun fifth most hfifth hfifthInv hmost hkey hfree => ?_
      simp only [wp_pure]
      refine commits_of_moves fun later hlater hlaterInv => ?_
      have hsinceThird := hfourth.trans (hfifth.trans (Rely.mono hlater hmost))
      have hsinceSecond := hthird.trans hsinceThird
      have hnoKey := rely_hasActiveKey hsinceThird hthirdInv hbranchHeld (hasActiveKey_of_unownedKeyProblem hproblem)
      refine ⟨rfl, rfl, .same rfl, .same rfl, .same rfl, .same rfl, ?_, .same rfl, by simp, by simp⟩
      refine .inserted (.same rfl) (rely_free_key hlater hfifthInv hkey hfree) ⟨hkey, hbranch.imp (hmost ·) (hmost ·), ?_, hnoKey, ?_⟩
      · exact ⟨organization, .inl (horganization.mono hmost),
          rely_not_cancelled hsinceSecond hsecondInv (.inl horganization) hlive,
          (rely_mappedPair_iff hsinceSecond hsecondInv).2 hpair, fun owner howner => by cases howner⟩
      · intro codeId hcode
        cases hcode

theorem retire_retire (clock : Nat) (key : KeyRow) : (key.retire clock).retire clock = key.retire clock := rfl

theorem commits_retireIngestKey {keyId : Text} {clock : Nat} :
    (registryProtocol secret permits).Wp (fun found => (registryProtocol secret permits).Commits (.retired found))
      (retireIngestKey keyId clock) locks id committed := by
  have hmoves : ∀ found more changed (now : Registry), (registryProtocol secret permits).Commits (.retired found) more
      (fun reg => { reg with keys := adjustAll changed (KeyRow.retire clock) reg.keys }) now := by
    intro found more changed now
    refine commits_of_moves fun later _ _ => ⟨rfl, rfl, .same rfl, .same rfl, .same rfl, .same rfl, ?_, .same rfl, by simp, by simp⟩
    exact .swept (retire_retire clock) fun _ _ _ _ => ⟨clock, rfl⟩
  simp only [retireIngestKey, wp_bind]
  refine wp_sweep (fun left right view hne => ?_) fun before now more changed _ _ _ _ _ _ _ _ => ?_
  · simp only [get?_adjust, if_neg hne]
  · simp only [Function.comp_def, foldl_keys, id_eq, wp_ite, wp_pure, wp_bind, wp_select, wp_require]
    exact ⟨fun _ => hmoves true more changed now, fun _ later _ _ _ => hmoves false more changed later⟩

end SortView
