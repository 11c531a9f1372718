import SortView.Services.EnrollmentIdentity

/-!
# Tenants that are offboarded

Once an offboarding has committed, no credential of the organization can be used again, and to offboard it again
changes none. Its installations stay retired as long as none is added that was checked before the offboarding.
-/

namespace SortView

open PyText Transactions Transactions.Protocol Tables Registry Enrollment AdminInstallations Offboarding

variable {sha256 : Text → Text} {reader : SettingsReader} {secret : Secrecy}
  {permits : RegistryAnswer → Locks Row → Registry → Prop} {locks : Locks Row} {answer : RegistryAnswer}
  {before after : Registry} {organization : Nat}

/-! ### One commit -/

namespace RegistryMoves

variable (h : RegistryMoves secret answer locks before after)

include h

/-- No token is added to a tenant whose organization is cancelled. -/
theorem noActiveToken (hinv : before.Constraints) (hcancelled : before.Cancelled organization)
    (hnone : before.NoActiveToken organization) : after.NoActiveToken organization := by
  obtain ⟨cancelled, hcancelledRow, hstatus⟩ := hcancelled
  intro id token hget htenant
  have htenantBefore : ∀ {old : TokenRow}, (∀ owner, old.installationId = some owner →
      (before.installations.get? owner).isSome) → after.TenantToken organization old →
      before.TenantToken organization old := by
    intro old howned htenant
    obtain ⟨row, hrow, hcustomer⟩ | ⟨owner, row, howner, hrow, hsame⟩ := htenant
    · obtain ⟨row', hrow', hkept⟩ := h.organization_before hrow
      exact .inl ⟨row', hrow', hkept ▸ hcustomer⟩
    · obtain ⟨row', hrow'⟩ := Option.isSome_iff_exists.1 (howned owner howner)
      obtain ⟨row'', hrow'', hkept, _⟩ := h.installation hrow'
      rw [hrow] at hrow''
      cases hrow''
      exact .inr ⟨owner, row', howner, hrow', hkept.symm.trans hsame⟩
  obtain ⟨old, hold, rfl | rfl⟩ | ⟨_, hadds⟩ := h.tokens.cases hget
  · exact hnone id _ hold (htenantBefore (fun owner => hinv.tokenOwners id _ owner hold) htenant)
  · rfl
  · obtain ⟨owner, installation, row, howner, hinstallation, _, hrow, hlive, hcustomer⟩ := hadds.bound
    have hbefore := htenantBefore (fun owner' howner' => by
      rw [howner] at howner'
      cases howner'
      rw [hinstallation]
      rfl) htenant
    have hsame : installation.organizationId = organization := by
      obtain ⟨row', hrow', hcustomer'⟩ | ⟨owner', row', howner', hrow', hsame⟩ := hbefore
      · exact hinv.customers _ _ row row' token.customerId hrow hrow' hcustomer hcustomer'
      · rw [howner] at howner'
        cases howner'
        rw [hinstallation] at hrow'
        cases hrow'
        exact hsame
    rw [hsame, hcancelledRow] at hrow
    cases hrow
    exact absurd hstatus hlive

/-- No code is added to an installation whose organization is cancelled. -/
theorem noOpenCode (hinv : before.Constraints) (hcancelled : before.Cancelled organization)
    (hnone : before.NoOpenCode organization) : after.NoOpenCode organization := by
  intro id code row hget hrow hsame
  obtain ⟨old, hold, _⟩ | ⟨_, hadds⟩ := h.codes.cases hget
  · obtain ⟨code', hcode', hinstallation, _, hclosed, _⟩ := h.code hold
    rw [hget] at hcode'
    cases hcode'
    obtain ⟨row', hrow'⟩ := Option.isSome_iff_exists.1 (hinv.codeOwners id old hold)
    obtain ⟨row'', hrow'', hkept, _⟩ := h.installation hrow'
    rw [← hinstallation, hrow] at hrow''
    cases hrow''
    exact hclosed (hnone id old row' hold hrow' (hkept.symm.trans hsame))
  · obtain ⟨installation, hinstallation, _, hlive⟩ := hadds.installation
    obtain ⟨row', hrow', hkept, _⟩ := h.installation hinstallation
    rw [hrow] at hrow'
    cases hrow'
    rw [← hkept, hsame] at hlive
    exact absurd hcancelled hlive

/-- No key is added to a tenant whose organization is cancelled. -/
theorem noActiveKey (hcancelled : before.Cancelled organization) (hnone : before.NoActiveKey organization) :
    after.NoActiveKey organization := by
  intro id key hget hpair
  have hpairBefore := h.mappedPair_iff.1 hpair
  obtain ⟨old, hold, rfl | ⟨clock, rfl⟩⟩ | ⟨_, hadds⟩ := h.keys.cases hget
  · exact hnone id _ hold hpairBefore
  · rfl
  · obtain ⟨organization', _, hlive, hpair', _⟩ := hadds.tenant
    rw [(hpair'.same hpairBefore).1] at hlive
    exact absurd hcancelled hlive

theorem cutOff (hinv : before.Constraints) (hcancelled : before.Cancelled organization)
    (hcutOff : before.CutOff organization) : after.CutOff organization :=
  ⟨h.noActiveToken hinv hcancelled hcutOff.tokens, h.noOpenCode hinv hcancelled hcutOff.codes,
    h.noActiveKey hcancelled hcutOff.keys⟩

/-- An installation that is added is the only one that need not be retired. -/
theorem allRetired (hadded : ∀ row, answer = .installed row → row.organizationId = organization → row.status = .retired)
    (hall : before.AllRetired organization) : after.AllRetired organization := by
  intro id row hget hsame
  obtain ⟨old, hold, _⟩ | ⟨_, hadds⟩ := h.installations.cases hget
  · obtain ⟨row', hrow', hkept, _, hretired⟩ := h.installation hold
    rw [hget] at hrow'
    cases hrow'
    exact hretired (hall id old hold (hkept.symm.trans hsame))
  · exact hadded row hadds.answer hsame

end RegistryMoves

/-! ### Runs -/

/-- What an offboarding leaves, when codes are kept. -/
def Finished (organization : Nat) (reg : Registry) : Prop := reg.Cancelled organization ∧ reg.CutOff organization

theorem finished_of_moves (h : RegistryMoves secret answer locks before after) (hinv : before.Constraints)
    (hfinished : Finished organization before) : Finished organization after :=
  ⟨h.cancelled hfinished.1, h.cutOff hinv hfinished.1 hfinished.2⟩

theorem finished_of_offboarded {result : OffboardingResult} (hkept : secret.kept)
    (h : RegistryMoves secret (.offboarded result) locks before after) : Finished result.organizationId after := by
  obtain ⟨hcancelled, hcodes, hkeys, htokens, _⟩ := h.offboarded result rfl
  exact ⟨hcancelled, htokens hkept, hcodes, hkeys⟩

/-- What an offboarding of a finished tenant does when it commits. -/
def ChangesNoCredential (answer : RegistryAnswer) (redo : Registry → Registry) : Prop :=
  ∃ again, answer = .offboarded again ∧ again.counts.agentTokensDeactivated = 0 ∧ again.counts.enrollmentCodesRevoked = 0 ∧
    again.counts.ingestKeysRetired = 0 ∧
    ∀ view, (redo view).tokens = view.tokens ∧ (redo view).codes = view.codes ∧ (redo view).keys = view.keys

theorem wp_offboardAgain {committed : Registry} {confirmSlug actorLabel : Text} {actorUserId : Option Nat}
    {adminActor : Option PlatformActor} {clock : Nat} (hinv : committed.Constraints)
    (hfinished : Finished organization committed) :
    (registryProtocol secret permits).Wp (fun answer _ redo _ => ChangesNoCredential answer redo)
      (RegistryCall.program sha256 reader (.offboardLibrary organization confirmSlug actorUserId actorLabel adminActor clock))
      [] id committed := by
  have hcutOff : ∀ view, (registryProtocol secret permits).Rely [] committed view → view.CutOff organization :=
    fun view hview => (registry_keeps hview hinv (Finished organization)
      (fun _ _ _ _ _ hmoves hs hfact => finished_of_moves hmoves hs hfact) hfinished).2
  simp only [RegistryCall.program, wp_bind]
  refine offboards_offboardLibrary.mono fun result more redo now hends => ?_
  obtain ⟨⟨htokens, hcodes, hkeys⟩, hsame⟩ := hends.again hcutOff
  exact ⟨result, rfl, htokens, hcodes, hkeys, hsame⟩

/-! ### Main results -/

/-- After an offboarding has committed no credential of the organization can be used, and an offboarding that is
started then, however it overlaps with other calls, changes no token, code or key when it commits, and counts none. This
takes the condition of `KeepsSecrets` with `kept`: a redemption is started with a code that is drawn only when the
transaction that drew it has committed. -/
theorem offboarding_is_final (sha256 : Text → Text) (reader : SettingsReader) (secret : Secrecy) (start : Registry)
    (sys offboarded later : System Registry Row RegistryFailure RegistryAnswer) (result : OffboardingResult)
    (hschema : start.Constraints) (hkept : secret.kept)
    (hsys : Steps (RegistryCall.Starts sha256 reader secret) (fun _ _ _ => True) (System.idle start) sys)
    (hcommit : Step (RegistryCall.Starts sha256 reader secret) (fun _ _ _ => True) sys (some (.offboarded result)) offboarded)
    (hlater : Steps (RegistryCall.Starts sha256 reader secret) (fun _ _ _ => True) offboarded later) :
    later.committed.CutOff result.organizationId ∧
      ∀ confirmSlug actorUserId actorLabel adminActor clock begun ended next answer,
        later.apply (.start (RegistryCall.program sha256 reader
          (.offboardLibrary result.organizationId confirmSlug actorUserId actorLabel adminActor clock))) = some (begun, none) →
        Steps (RegistryCall.Starts sha256 reader secret) (fun _ _ _ => True) begun ended →
        ended.apply (.step later.sessions.length) = some (next, some answer) →
        ∃ again, answer = .offboarded again ∧ again.counts.agentTokensDeactivated = 0 ∧
          again.counts.enrollmentCodesRevoked = 0 ∧ again.counts.ingestKeysRetired = 0 ∧
          next.committed.tokens = ended.committed.tokens ∧ next.committed.codes = ended.committed.codes ∧
          next.committed.keys = ended.committed.keys := by
  have hidle : Sound (registryProtocol secret fun _ _ _ => True)
      (System.idle start : System Registry Row RegistryFailure RegistryAnswer) := Sound.idle hschema
  obtain ⟨hsound, -⟩ := hidle.steps registry_follows hsys (fun _ => True) (fun _ _ _ _ _ _ _ _ _ => trivial) trivial
  obtain ⟨hoffboarded, hguar⟩ := hsound.step registry_follows hcommit
  obtain ⟨locks, -, hmoves⟩ := hguar _ rfl
  obtain ⟨hsoundLater, hfinished⟩ := hoffboarded.steps registry_follows hlater (Finished result.organizationId)
    (fun _ _ _ _ _ hmoves hinv _ hfact => finished_of_moves hmoves hinv hfact) (finished_of_offboarded hkept hmoves)
  refine ⟨hfinished.2, fun confirmSlug actorUserId actorLabel adminActor clock begun ended next answer hstart hended happly => ?_⟩
  have hbegun : Step (RegistryCall.Starts sha256 reader secret) (fun _ _ _ => True) later none begun := by
    refine ⟨_, ⟨fun program heq => ?_, fun _ _ _ => trivial⟩, hstart⟩
    cases heq
    exact ⟨_, ⟨by simp [RegistryCall.draws?], by simp [RegistryCall.presents?]⟩, rfl⟩
  have hsoundBegun := (hsoundLater.step registry_follows hbegun).1
  cases hstart
  obtain ⟨htracks, -⟩ := (Tracks.started (wp_offboardAgain hsoundLater.inv hfinished)).steps registry_follows
    (fun _ _ _ _ _ _ _ hpost => hpost) hsoundBegun hended
  obtain ⟨_, redo, ⟨again, hanswer, htokens, hcodes, hkeys, hsame⟩, hcommitted⟩ := htracks.commits happly
  rw [hcommitted]
  exact ⟨again, hanswer, htokens, hcodes, hkeys, hsame _⟩

/-! ### Installations -/

def RegistryAnswer.offboarded? : RegistryAnswer → Option OffboardingResult
  | .offboarded result => some result
  | _ => none

def RegistryAnswer.installed? : RegistryAnswer → Option InstallationRow
  | .installed row => some row
  | _ => none

/-- An installation that is added is retired, or its organization is not cancelled when that is committed. -/
def AddsToLive (answer : RegistryAnswer) (_ : Locks Row) (before : Registry) : Prop :=
  ∀ row ∈ answer.installed?, row.status = .retired ∨ before.isCancelled row.organizationId = false

instance (answer : RegistryAnswer) (locks : Locks Row) (before : Registry) : Decidable (AddsToLive answer locks before) :=
  inferInstanceAs (Decidable (∀ row ∈ answer.installed?, _))

/-- In every run in which no installation is added to an organization that has been cancelled by then, all installations
of an organization are retired once it is offboarded. -/
theorem offboarded_installations_stay_retired (sha256 : Text → Text) (reader : SettingsReader) (start : Registry)
    (sys offboarded later : System Registry Row RegistryFailure RegistryAnswer) (result : OffboardingResult)
    (hschema : start.Constraints)
    (hsys : Steps (Calls (RegistryCall.program sha256 reader) fun _ _ => True) AddsToLive (System.idle start) sys)
    (hcommit : Step (Calls (RegistryCall.program sha256 reader) fun _ _ => True) AddsToLive sys
      (some (.offboarded result)) offboarded)
    (hlater : Steps (Calls (RegistryCall.program sha256 reader) fun _ _ => True) AddsToLive offboarded later) :
    later.committed.AllRetired result.organizationId := by
  have hidle : Sound (registryProtocol anySecrecy AddsToLive)
      (System.idle start : System Registry Row RegistryFailure RegistryAnswer) := Sound.idle hschema
  obtain ⟨hsound, -⟩ := hidle.steps registry_follows_any hsys (fun _ => True) (fun _ _ _ _ _ _ _ _ _ => trivial) trivial
  obtain ⟨hoffboarded, hguar⟩ := hsound.step registry_follows_any hcommit
  obtain ⟨locks, -, hmoves⟩ := hguar _ rfl
  obtain ⟨hcancelled, _, _, _, hall⟩ := hmoves.offboarded result rfl
  have hkept := hoffboarded.steps registry_follows_any hlater
    (fun reg => reg.Cancelled result.organizationId ∧ reg.AllRetired result.organizationId)
    (fun answer _ before after hpermits hmoves _ _ hfact => by
      refine ⟨hmoves.cancelled hfact.1, hmoves.allRetired (fun row hanswer hsame => ?_) hfact.2⟩
      subst hanswer
      have hlive := (hpermits row rfl).resolve_right
      rw [hsame, isCancelled_iff.2 hfact.1] at hlive
      exact hlive (by decide)) ⟨hcancelled, hall⟩
  exact hkept.2.2

/-! ### Runs -/

/-- The library once it has enrolled, with another code that was never used. -/
def enrolledLibrary : Registry :=
  { readyLibrary with
    codes := Dict.empty.set 12 ⟨3, "SV-ABCD-EFGH-JKMN-PQRS".toList, 900000000, none, 2, none, none⟩
    tokens := Dict.empty.set 21 ⟨"token".toList, 7, 5, [], true, some 3, none⟩
    keys := Dict.empty.set 31 ⟨"key".toList, 7, 5, .active, none, some 3, none⟩ }

theorem enrolledLibrary_constraints : enrolledLibrary.Constraints where
  customers _ _ _ _ _ hrow hrow' _ _ := (get?_single hrow).1.trans (get?_single hrow').1.symm
  branches _ _ _ hrow hbranch := by
    obtain ⟨rfl, rfl⟩ := get?_single hrow
    exact (Option.some.inj hbranch).symm
  codeHashes _ _ _ _ hrow hrow' _ := (get?_single hrow).1.trans (get?_single hrow').1.symm
  codeOwners _ _ hrow := by
    obtain ⟨rfl, rfl⟩ := get?_single hrow
    rfl
  tokenOwners _ _ _ hrow howner := by
    obtain ⟨rfl, rfl⟩ := get?_single hrow
    cases howner
    rfl
  keyOwners _ _ _ hrow howner := by
    obtain ⟨rfl, rfl⟩ := get?_single hrow
    cases howner
    exact ⟨_, rfl, rfl⟩

def offboardTheLibrary : RegistryCall := .offboardLibrary 1 "library".toList (some 9) "operator".toList none 0

def addInstallation (rowId : Nat) : RegistryCall :=
  .createInstallation ⟨1, "library".toList, .active⟩ "Second".toList 2 ⟨9, none⟩ rowId

/-- Only codes that are there are presented, and none is drawn. -/
def PresentsStored (reg : Registry) (call : RegistryCall) : Prop :=
  call.draws? id = none ∧ ∀ hash ∈ call.presents? id, (reg.codeByHash hash).isSome

instance (reg : Registry) (call : RegistryCall) : Decidable (PresentsStored reg call) :=
  inferInstanceAs (Decidable (_ ∧ ∀ hash ∈ call.presents? id, _))

def keptSecrecy : Secrecy := ⟨fun _ => True, True⟩

theorem starts_of_presentsStored {view : Registry} {program : RegistryTx RegistryAnswer}
    (h : Calls (RegistryCall.program id anyReader) PresentsStored view program) :
    RegistryCall.Starts id anyReader keptSecrecy view program := by
  obtain ⟨call, ⟨_, hstored⟩, rfl⟩ := h
  refine ⟨call, ⟨fun _ _ => trivial, fun _ hash hpresents _ => ?_⟩, rfl⟩
  obtain ⟨found, hfound⟩ := Option.isSome_iff_exists.1 (hstored hash hpresents)
  exact ⟨found.1, found.2, get?_of_codeByHash hfound⟩

def redeemUnused : RegistryCall := redeemCode 22 "second".toList "second-key".toList

/-- A redemption has read whose the code is when the offboarding is about to commit. -/
def offboardDuringRedemption : List (RegistryCall ⊕ Nat) :=
  .inl offboardTheLibrary :: .inl redeemUnused :: .inr 1 :: List.replicate 26 (.inr 0)

/-- An offboarding commits while a code is being redeemed, which is then refused, and to offboard the library again
counts nothing. -/
theorem offboarding_is_final_during_redemption :
    ∃ offboarded later ended next : System Registry Row RegistryFailure RegistryAnswer, ∃ again,
      Steps (RegistryCall.Starts id anyReader keptSecrecy) (fun _ _ _ => True) offboarded later ∧
      (later.session 1).isNone ∧ later.committed.CutOff 1 ∧
      ended.apply (.step 2) = some (next, some (.offboarded again)) ∧ again.counts.agentTokensDeactivated = 0 ∧
      next.committed.keys = ended.committed.keys := by
  have hrun : ((System.idle enrolledLibrary).replay (RegistryCall.program id anyReader) PresentsStored
      (fun _ _ _ => True) offboardDuringRedemption).bind (fun before => (before.1.apply (.step 0)).bind fun commit =>
        (commit.1.replay (RegistryCall.program id anyReader) PresentsStored (fun _ _ _ => True)
          (List.replicate 5 (.inr 1))).bind fun refused =>
            (refused.1.apply (.start (RegistryCall.program id anyReader offboardTheLibrary))).bind fun begun =>
              (begun.1.replay (RegistryCall.program id anyReader) PresentsStored (fun _ _ _ => True)
                (List.replicate 11 (.inr 2))).bind fun ended => (ended.1.apply (.step 2)).map fun last =>
                  (commit.2.any fun answer => answer.offboarded?.any fun result => result.organizationId = 1,
                    (refused.1.session 1).isNone, refused.1.sessions.length, last.2.isSome)) =
      some (true, true, 2, true) := by decide +kernel
  obtain ⟨⟨sys, _⟩, hsys, hrun⟩ := Option.bind_eq_some_iff.1 hrun
  obtain ⟨⟨offboarded, answer⟩, hcommit, hrun⟩ := Option.bind_eq_some_iff.1 hrun
  obtain ⟨⟨later, _⟩, hlater, hrun⟩ := Option.bind_eq_some_iff.1 hrun
  obtain ⟨⟨begun, _⟩, hbegun, hrun⟩ := Option.bind_eq_some_iff.1 hrun
  obtain ⟨⟨ended, _⟩, hended, hrun⟩ := Option.bind_eq_some_iff.1 hrun
  obtain ⟨⟨next, last⟩, hnext, hrun⟩ := Option.map_eq_some_iff.1 hrun
  simp only [Prod.mk.injEq, Option.any_eq_true] at hrun
  obtain ⟨⟨answer, rfl, result, hanswer, horganization⟩, hrefused, hsessions, hlast⟩ := hrun
  obtain ⟨answer', rfl⟩ := Option.isSome_iff_exists.1 hlast
  have hresult : answer = .offboarded result := by
    cases answer <;> cases hanswer
    rfl
  subst hresult
  rw [decide_eq_true_eq] at horganization
  have hlater' : Steps (RegistryCall.Starts id anyReader keptSecrecy) (fun _ _ _ => True) offboarded later :=
    (steps_of_replay hlater).mono fun _ _ => starts_of_presentsStored
  have hfinal := offboarding_is_final id anyReader keptSecrecy enrolledLibrary sys offboarded later result
    enrolledLibrary_constraints trivial ((steps_of_replay hsys).mono fun _ _ => starts_of_presentsStored)
    ⟨.step 0, ⟨by simp, fun _ _ _ => trivial⟩, hcommit⟩ hlater'
  rw [horganization] at hfinal
  obtain ⟨hcutOff, hagain⟩ := hfinal
  rw [offboardTheLibrary] at hbegun
  have hstarted : later.apply (.start (RegistryCall.program id anyReader
    (.offboardLibrary 1 "library".toList (some 9) "operator".toList none 0))) = some (begun, none) := by
    rw [hbegun]
    cases hbegun
    rfl
  obtain ⟨again, rfl, htokens, _, _, _, _, hkeys⟩ := hagain _ _ _ _ _ _ _ _ _ hstarted
    ((steps_of_replay hended).mono fun _ _ => starts_of_presentsStored) (hsessions ▸ hnext)
  exact ⟨offboarded, later, ended, next, again, hlater', hrefused, hcutOff, hnext, htokens, hkeys⟩

/-! ### A code that is redeemed before it is committed -/

/-- The organization of a code is looked up before the code is committed, so nothing is locked; then the code is found, and the
redemption commits between the sweeps of the offboarding. -/
def offboardAroundRedemption : List (RegistryCall ⊕ Nat) :=
  .inl (redeemCode 22 "token".toList "key".toList) :: .inr 0 :: .inl createCode :: List.replicate 13 (.inr 1) ++
    List.replicate 2 (.inr 0) ++ .inl offboardTheLibrary :: List.replicate 14 (.inr 2) ++ List.replicate 35 (.inr 0) ++
      List.replicate 8 (.inr 2)

/-- Without that condition the token of the redemption is active when the offboarding has committed. -/
theorem token_survives_offboarding :
    readyLibrary.Constraints ∧ ∃ sys offboarded : System Registry Row RegistryFailure RegistryAnswer, ∃ result,
      Steps (Calls (RegistryCall.program id anyReader) fun _ _ => True) (fun _ _ _ => True) (System.idle readyLibrary) sys ∧
      Step (Calls (RegistryCall.program id anyReader) fun _ _ => True) (fun _ _ _ => True) sys
        (some (.offboarded result)) offboarded ∧ result.organizationId = 1 ∧ ¬ offboarded.committed.CutOff 1 := by
  have hrun : ((System.idle readyLibrary).replay (RegistryCall.program id anyReader) (fun _ _ => True)
      (fun _ _ _ => True) offboardAroundRedemption).bind (fun before => (before.1.apply (.step 2)).map fun commit =>
        (commit.2.any fun answer => answer.offboarded?.any fun result => result.organizationId = 1,
          (commit.1.committed.tokens.get? 22).map fun token => (token.installationId, token.isActive),
          (commit.1.committed.installations.get? 3).map fun row => row.organizationId)) =
      some (true, some (some 3, true), some 1) := by decide +kernel
  obtain ⟨⟨sys, _⟩, hsys, hrun⟩ := Option.bind_eq_some_iff.1 hrun
  obtain ⟨⟨offboarded, answer⟩, hcommit, hrun⟩ := Option.map_eq_some_iff.1 hrun
  simp only [Prod.mk.injEq, Option.any_eq_true, Option.map_eq_some_iff] at hrun
  obtain ⟨⟨answer, rfl, result, hanswer, horganization⟩, ⟨token, htoken, howner, hactive⟩, row, hrow, hsame⟩ := hrun
  have hresult : answer = .offboarded result := by
    cases answer <;> cases hanswer
    rfl
  subst hresult
  rw [decide_eq_true_eq] at horganization
  refine ⟨readyLibrary_constraints, sys, offboarded, result, steps_of_replay hsys,
    ⟨.step 2, ⟨by simp, fun _ _ _ => trivial⟩, hcommit⟩, horganization, fun hcutOff => ?_⟩
  have hinactive := hcutOff.tokens 22 token htoken (.inr ⟨3, row, howner, hrow, hsame⟩)
  rw [hactive] at hinactive
  cases hinactive

/-! ### An installation that is added too late -/

def addThenOffboard : List (RegistryCall ⊕ Nat) :=
  .inl (addInstallation 4) :: List.replicate 12 (.inr 0) ++ .inl offboardTheLibrary :: List.replicate 20 (.inr 1)

/-- A second installation is added, and then the library is offboarded: both are retired, and no third is added. -/
theorem offboarded_installations_stay_retired_after_adding :
    ∃ later : System Registry Row RegistryFailure RegistryAnswer,
      (later.committed.installations.get? 4).isSome ∧ (later.session 2).isNone ∧ later.committed.AllRetired 1 := by
  have hrun : ((System.idle readyLibrary).replay (RegistryCall.program id anyReader) (fun _ _ => True) AddsToLive
      addThenOffboard).bind (fun before => (before.1.apply (.step 1)).bind fun commit =>
        (commit.1.replay (RegistryCall.program id anyReader) (fun _ _ => True) AddsToLive
          (.inl (addInstallation 5) :: List.replicate 4 (.inr 2))).map fun last =>
            (commit.2.any fun answer => answer.offboarded?.any fun result => result.organizationId = 1,
              (last.1.committed.installations.get? 4).isSome, (last.1.session 2).isNone)) = some (true, true, true) := by
    decide +kernel
  obtain ⟨⟨sys, _⟩, hsys, hrun⟩ := Option.bind_eq_some_iff.1 hrun
  obtain ⟨⟨offboarded, answer⟩, hcommit, hrun⟩ := Option.bind_eq_some_iff.1 hrun
  obtain ⟨⟨later, _⟩, hlater, hrun⟩ := Option.map_eq_some_iff.1 hrun
  simp only [Prod.mk.injEq, Option.any_eq_true] at hrun
  obtain ⟨⟨answer, rfl, result, hanswer, horganization⟩, hadded, hrefused⟩ := hrun
  have hresult : answer = .offboarded result := by
    cases answer <;> cases hanswer
    rfl
  subst hresult
  rw [decide_eq_true_eq] at horganization
  refine ⟨later, hadded, hrefused, ?_⟩
  rw [← horganization]
  refine offboarded_installations_stay_retired id anyReader readyLibrary sys offboarded later result readyLibrary_constraints
    (steps_of_replay hsys) ⟨.step 1, ⟨by simp, fun answer locks hending => ?_⟩, hcommit⟩ (steps_of_replay hlater)
  cases System.answer_of_ending hending hcommit
  intro row hrow
  cases hrow

/-- An installation is about to be inserted when the offboarding begins. -/
def offboardWhileAdding : List (RegistryCall ⊕ Nat) :=
  .inl (addInstallation 4) :: List.replicate 3 (.inr 0) ++ .inl offboardTheLibrary :: List.replicate 17 (.inr 1)

/-- The status was read before the offboarding committed, and the row is inserted after: the cancelled library has
an installation that is not retired. -/
theorem installation_is_added_after_offboarding :
    ∃ sys offboarded later : System Registry Row RegistryFailure RegistryAnswer, ∃ result,
      Steps (Calls (RegistryCall.program id anyReader) fun _ _ => True) (fun _ _ _ => True) (System.idle readyLibrary) sys ∧
      Step (Calls (RegistryCall.program id anyReader) fun _ _ => True) (fun _ _ _ => True) sys
        (some (.offboarded result)) offboarded ∧ result.organizationId = 1 ∧
      Steps (Calls (RegistryCall.program id anyReader) fun _ _ => True) (fun _ _ _ => True) offboarded later ∧
      later.committed.Cancelled 1 ∧ ¬ later.committed.AllRetired 1 := by
  have hrun : ((System.idle readyLibrary).replay (RegistryCall.program id anyReader) (fun _ _ => True)
      (fun _ _ _ => True) offboardWhileAdding).bind (fun before => (before.1.apply (.step 1)).bind fun commit =>
        (commit.1.replay (RegistryCall.program id anyReader) (fun _ _ => True) (fun _ _ _ => True)
          (List.replicate 9 (.inr 0))).map fun last =>
            (commit.2.any fun answer => answer.offboarded?.any fun result => result.organizationId = 1,
              last.1.committed.isCancelled 1,
              (last.1.committed.installations.get? 4).map fun row => (row.organizationId, row.status))) =
      some (true, true, some (1, .provisioning)) := by decide +kernel
  obtain ⟨⟨sys, _⟩, hsys, hrun⟩ := Option.bind_eq_some_iff.1 hrun
  obtain ⟨⟨offboarded, answer⟩, hcommit, hrun⟩ := Option.bind_eq_some_iff.1 hrun
  obtain ⟨⟨later, _⟩, hlater, hrun⟩ := Option.map_eq_some_iff.1 hrun
  simp only [Prod.mk.injEq, Option.any_eq_true, Option.map_eq_some_iff] at hrun
  obtain ⟨⟨answer, rfl, result, hanswer, horganization⟩, hcancelled, row, hrow, hsame, hstatus⟩ := hrun
  have hresult : answer = .offboarded result := by
    cases answer <;> cases hanswer
    rfl
  subst hresult
  rw [decide_eq_true_eq] at horganization
  refine ⟨sys, offboarded, later, result, steps_of_replay hsys, ⟨.step 1, ⟨by simp, fun _ _ _ => trivial⟩, hcommit⟩,
    horganization, steps_of_replay hlater, isCancelled_iff.1 hcancelled, fun hall => ?_⟩
  rw [hall 4 row hrow hsame] at hstatus
  cases hstatus

end SortView
