import SortView.Services.OrganizationSums

/-!
# The sums of an organization's routing network

Each destination key is listed once, where it is first met, with the check-ins that the sites route to it.
-/

namespace SortView

open PyText Buckets

namespace OrganizationReport

/-! ### Routing network -/

/-- The texts of a list, each where it is first met. -/
def firstMet : List Text → List Text
  | [] => []
  | key :: keys => key :: (firstMet keys).filter fun other => other ≠ key

/-- The configured destinations of a source and the check-ins routed to each. -/
def entriesOf (read : RoutingConfig × RoutingReport) : List (TransitDestination × Nat) :=
  read.1.transit.zip read.2.total.transitCounts

/-- A figure of a routing network. -/
inductive NetworkFigure where
  | checkins
  | transit
  | destination (key : Text)
  | sourcesOf (key : Text)

/-- What the entries with a key add up to. -/
def keyTotal (weight : TransitDestination × Nat → Nat) (key : Text) (entries : List (TransitDestination × Nat)) : Nat :=
  (entries.map fun entry => if entry.1.key = key then weight entry else 0).sum

def NetworkFigure.ofSite (read : RoutingConfig × RoutingReport) : NetworkFigure → Nat
  | checkins => read.2.total.total
  | transit => read.2.total.transitCount
  | destination key => keyTotal Prod.snd key (entriesOf read)
  | sourcesOf key => keyTotal (fun _ => 1) key (entriesOf read)

/-- What the destinations with a key show. -/
def shownTotal (figure : NetworkDestination → Nat) (key : Text) (destinations : List NetworkDestination) : Nat :=
  (destinations.map fun shown => if shown.key = key then figure shown else 0).sum

def NetworkFigure.ofOrganization (network : OrganizationRoutingNetwork) : NetworkFigure → Nat
  | checkins => network.checkinCount
  | transit => network.transitCount
  | destination key => shownTotal NetworkDestination.checkinCount key network.destinations
  | sourcesOf key => shownTotal NetworkDestination.sourceCount key network.destinations

def sourceOf (read : SiteRead (RoutingConfig × RoutingReport)) : Option RoutingSource :=
  read.report.map fun report => ⟨read.site, report.1.homeLabel, report.1.transit, report.2.total⟩

/-- A routing network is the sum of the sites', with each destination key once, where it is first met. -/
structure NetworkSums (reads : List (SiteRead (RoutingConfig × RoutingReport))) (network : OrganizationRoutingNetwork) : Prop where
  figures : ∀ figure, NetworkFigure.ofOrganization network figure
    = ((reportsOf reads).map fun report => NetworkFigure.ofSite report figure).sum
  sources : network.sources = reads.filterMap sourceOf
  keys : network.destinations.map NetworkDestination.key
    = firstMet ((reportsOf reads).flatMap fun report => report.1.transit.map TransitDestination.key)
  once : (network.destinations.map NetworkDestination.key).Nodup

theorem keys_set (byKey : ByKey) (key : Text) (value : Text × Nat × Nat) :
    (byKey.set key value).keys = if key ∈ byKey.keys then byKey.keys else byKey.keys ++ [key] := by
  obtain ⟨entries, hnodup⟩ := byKey
  show (Dict.setEntries key value entries).map Prod.fst
    = if key ∈ entries.map Prod.fst then entries.map Prod.fst else entries.map Prod.fst ++ [key]
  clear hnodup
  induction entries with
  | nil => rfl
  | cons entry entries ih =>
      rw [Dict.setEntries]
      by_cases hfirst : entry.1 = key
      · rw [if_pos hfirst, List.map_cons, List.map_cons, if_pos (hfirst ▸ List.mem_cons_self ..), hfirst]
      · rw [if_neg hfirst, List.map_cons, List.map_cons, ih]
        by_cases hmem : key ∈ entries.map Prod.fst
        · rw [if_pos hmem, if_pos (List.mem_cons_of_mem _ hmem)]
        · rw [if_neg hmem, if_neg (fun h => (List.mem_cons.1 h).elim (fun heq => hfirst heq.symm) hmem)]
          rfl

/-- The keys of a dictionary that destinations are added to. -/
theorem keys_foldl_addDestination (entries : List (TransitDestination × Nat)) (byKey : ByKey) :
    (entries.foldl addDestination byKey).keys
      = byKey.keys ++ (firstMet (entries.map fun entry => entry.1.key)).filter fun key => key ∉ byKey.keys := by
  induction entries generalizing byKey with
  | nil => exact (List.append_nil _).symm
  | cons entry entries ih =>
      rw [List.foldl_cons, ih, addDestination, keys_set, List.map_cons, firstMet, List.filter_cons]
      by_cases hmem : entry.1.key ∈ byKey.keys
      · rw [if_pos hmem, if_neg (by simpa using hmem), List.filter_filter]
        congr 1
        apply List.filter_congr
        intro key _
        by_cases hkey : key ∈ byKey.keys
        · simp [hkey]
        · have hne : key ≠ entry.1.key := fun heq => hkey (heq ▸ hmem)
          simp [hkey, hne]
      · rw [if_neg hmem, if_pos (by simpa using hmem), List.filter_filter, List.append_assoc, List.singleton_append]
        congr 2
        apply List.filter_congr
        intro key _
        simp [not_or]

section Counts

variable (value : Text × Nat × Nat → Nat) (weight : TransitDestination × Nat → Nat) (hstart : ∀ label, value (label, 0, 0) = 0)
  (hadd : ∀ found entry, value (found.1, found.2.1 + entry.2, found.2.2 + 1) = value found + weight entry)

include hstart in
theorem value_found (byKey : ByKey) (key label : Text) :
    value ((byKey.get? key).getD (label, 0, 0)) = ((byKey.get? key).map value).getD 0 := by
  cases byKey.get? key with
  | none => exact hstart label
  | some found => rfl

include hstart hadd

/-- What a destination adds to the value of its key. -/
theorem value_addDestination (byKey : ByKey) (entry : TransitDestination × Nat) (key : Text) :
    (((addDestination byKey entry).get? key).map value).getD 0
      = ((byKey.get? key).map value).getD 0 + if entry.1.key = key then weight entry else 0 := by
  rw [addDestination, Dict.get?_set]
  by_cases heq : key = entry.1.key
  · rw [if_pos heq, if_pos heq.symm, heq, ← value_found value hstart byKey entry.1.key entry.1.label]
    exact hadd _ entry
  · rw [if_neg heq, if_neg (Ne.symm heq), Nat.add_zero]

theorem value_foldl_addDestination (entries : List (TransitDestination × Nat)) (byKey : ByKey) (key : Text) :
    (((entries.foldl addDestination byKey).get? key).map value).getD 0
      = ((byKey.get? key).map value).getD 0 + keyTotal weight key entries := by
  induction entries generalizing byKey with
  | nil => rfl
  | cons entry entries ih =>
      rw [List.foldl_cons, ih, value_addDestination value weight hstart hadd, keyTotal, keyTotal, List.map_cons, List.sum_cons,
        Nat.add_assoc]

/-- What the destinations add to the sum over the keys. -/
theorem entriesTotal_foldl_addDestination (entries : List (TransitDestination × Nat)) (byKey : ByKey) :
    entriesTotal (fun _ => value) (entries.foldl addDestination byKey).entries
      = entriesTotal (fun _ => value) byKey.entries + (entries.map weight).sum := by
  induction entries generalizing byKey with
  | nil => rfl
  | cons entry entries ih =>
      have hset := entriesTotal_set (fun _ => value) byKey entry.1.key
        (((byKey.get? entry.1.key).getD (entry.1.label, 0, 0)).1,
          ((byKey.get? entry.1.key).getD (entry.1.label, 0, 0)).2.1 + entry.2,
          ((byKey.get? entry.1.key).getD (entry.1.label, 0, 0)).2.2 + 1)
      rw [hadd, value_found value hstart] at hset
      rw [List.foldl_cons, ih, List.map_cons, List.sum_cons, addDestination]
      omega

end Counts

theorem sum_map_flatMap {α β : Type} (weight : β → Nat) (entries : α → List β) (items : List α) :
    ((items.flatMap entries).map weight).sum = (items.map fun item => ((entries item).map weight).sum).sum := by
  induction items with
  | nil => rfl
  | cons item items ih => rw [List.flatMap_cons, List.map_append, List.sum_append, ih, List.map_cons, List.sum_cons]

/-- The destinations of all entries show what the entries of each add up to. -/
theorem shownTotal_destinations {τ : Type} (value : Text × Nat × Nat → Nat) (weight : TransitDestination × Nat → Nat)
    (figure : NetworkDestination → Nat) (hstart : ∀ label, value (label, 0, 0) = 0)
    (hadd : ∀ found entry, value (found.1, found.2.1 + entry.2, found.2.2 + 1) = value found + weight entry)
    (hfigure : ∀ entry : Text × Text × Nat × Nat, figure ⟨entry.1, entry.2.1, entry.2.2.1, entry.2.2.2⟩ = value entry.2) (key : Text)
    (entries : τ → List (TransitDestination × Nat)) (reports : List τ) :
    shownTotal figure key (((reports.flatMap entries).foldl addDestination Dict.empty).entries.map fun entry =>
        ⟨entry.1, entry.2.1, entry.2.2.1, entry.2.2.2⟩)
      = (reports.map fun report => keyTotal weight key (entries report)).sum := by
  have hvalue := value_foldl_addDestination value weight hstart hadd (reports.flatMap entries) Dict.empty key
  rw [Dict.get?_empty] at hvalue
  have hentries := hvalue.trans ((Nat.zero_add _).trans (sum_map_flatMap _ entries reports))
  rw [shownTotal, List.map_map]
  refine Eq.trans ?_ ((entriesTotal_key value _ key).trans hentries)
  refine congrArg List.sum (List.map_congr_left ?_)
  intro entry _
  show (if entry.1 = key then figure _ else 0) = _
  rw [hfigure]

theorem addSource_ok {n : Nat} (state : List RoutingSource × ByKey) {read : SiteRead (RoutingConfig × RoutingReport)}
    (hread : ∀ report, read.report = some report → NetworkWhole n report) :
    addSource n state read = .ok (state.1 ++ (sourceOf read).toList,
      (read.report.elim [] entriesOf).foldl addDestination state.2) := by
  rw [addSource, sourceOf]
  cases hreport : read.report with
  | none =>
      show Except.ok state = _
      rw [Option.map_none, Option.toList_none, List.append_nil]
      rfl
  | some report =>
      have hwhole := hread report hreport
      obtain ⟨routing, report⟩ := report
      exact check_bind ⟨hwhole.days, hwhole.slots⟩

theorem foldlM_addSource {n : Nat} {reads : List (SiteRead (RoutingConfig × RoutingReport))} (hwhole : AllWhole (NetworkWhole n) reads)
    (state : List RoutingSource × ByKey) :
    reads.foldlM (addSource n) state
      = .ok (state.1 ++ reads.filterMap sourceOf, ((reportsOf reads).flatMap entriesOf).foldl addDestination state.2) := by
  induction reads generalizing state with
  | nil =>
      show Except.ok state = _
      rw [List.filterMap_nil, List.append_nil]
      rfl
  | cons read reads ih =>
      have hrest : AllWhole (NetworkWhole n) reads := fun other hother => hwhole other (List.mem_cons_of_mem _ hother)
      rw [List.foldlM_cons, addSource_ok state (hwhole read (List.mem_cons_self ..))]
      show reads.foldlM (addSource n) _ = _
      rw [ih hrest, reportsOf, reportsOf, List.filterMap_cons, List.filterMap_cons, sourceOf, List.append_assoc]
      cases read.report with
      | none => rfl
      | some report =>
          rw [List.flatMap_cons, List.foldl_append]
          rfl

theorem sum_entriesOf {n : Nat} {read : RoutingConfig × RoutingReport} (hwhole : NetworkWhole n read) :
    ((entriesOf read).map Prod.snd).sum = read.2.total.transitCount := by
  rw [entriesOf, List.map_snd_zip (Nat.le_of_eq hwhole.slots)]
  rfl

theorem keys_entriesOf {n : Nat} {read : RoutingConfig × RoutingReport} (hwhole : NetworkWhole n read) :
    (entriesOf read).map (fun entry => entry.1.key) = read.1.transit.map TransitDestination.key := by
  have hfst : (entriesOf read).map Prod.fst = read.1.transit := List.map_fst_zip (Nat.le_of_eq hwhole.slots.symm)
  rw [← hfst, List.map_map]
  rfl

/-- The routing network of whole reports is their sum: its own check holds. -/
theorem networkOf_ok {n : Nat} {reads : List (SiteRead (RoutingConfig × RoutingReport))} (hwhole : AllWhole (NetworkWhole n) reads) :
    ∃ network, networkOf n reads = .ok network ∧ NetworkSums reads network := by
  have hreports : ∀ report ∈ reportsOf reads, NetworkWhole n report := by
    intro report hreport
    obtain ⟨read, hread, hsome⟩ := List.mem_filterMap.1 hreport
    exact hwhole read hread report hsome
  have htotal := entriesTotal_foldl_addDestination (fun value => value.2.1) Prod.snd (fun _ => rfl) (fun _ _ => rfl)
    ((reportsOf reads).flatMap entriesOf) Dict.empty
  have hsources (figure : DestinationCounts → Nat) : ((reads.filterMap sourceOf).map fun source => figure source.counts).sum
      = ((reportsOf reads).map fun report => figure report.2.total).sum := by
    rw [← sum_siteWeight]
    clear hwhole hreports htotal
    induction reads with
    | nil => rfl
    | cons read reads ih =>
        rw [List.filterMap_cons, List.map_cons, List.sum_cons, ← ih, sourceOf, siteWeight]
        cases read.report with
        | none => exact (Nat.zero_add _).symm
        | some report => rfl
  have htransit : (((reportsOf reads).flatMap entriesOf).map Prod.snd).sum
      = ((reportsOf reads).map fun report => report.2.total.transitCount).sum := by
    rw [sum_map_flatMap]
    refine congrArg List.sum (List.map_congr_left ?_)
    intro report hreport
    exact sum_entriesOf (hreports report hreport)
  have hcheck : (((((reportsOf reads).flatMap entriesOf).foldl addDestination Dict.empty).entries.map fun entry =>
        NetworkDestination.mk entry.1 entry.2.1 entry.2.2.1 entry.2.2.2).map NetworkDestination.checkinCount).sum
      = ((reads.filterMap sourceOf).map fun source => source.counts.transitCount).sum := by
    rw [List.map_map, hsources, ← htransit]
    exact htotal.trans (Nat.zero_add _)
  have hkeys : ((((reportsOf reads).flatMap entriesOf).foldl addDestination Dict.empty).entries.map fun entry =>
        NetworkDestination.mk entry.1 entry.2.1 entry.2.2.1 entry.2.2.2).map NetworkDestination.key
      = (((reportsOf reads).flatMap entriesOf).foldl addDestination Dict.empty).keys := List.map_map ..
  refine ⟨⟨reads.filterMap sourceOf, (((reportsOf reads).flatMap entriesOf).foldl addDestination Dict.empty).entries.map fun entry =>
    ⟨entry.1, entry.2.1, entry.2.2.1, entry.2.2.2⟩⟩, ?_, ?_, rfl, ?_, ?_⟩
  · rw [networkOf, foldlM_addSource hwhole]
    exact check_bind hcheck
  · intro figure
    cases figure with
    | checkins => exact hsources DestinationCounts.total
    | transit => exact hsources DestinationCounts.transitCount
    | destination key =>
        exact shownTotal_destinations (fun value => value.2.1) Prod.snd NetworkDestination.checkinCount (fun _ => rfl) (fun _ _ => rfl)
          (fun _ => rfl) key entriesOf _
    | sourcesOf key =>
        exact shownTotal_destinations (fun value => value.2.2) (fun _ => 1) NetworkDestination.sourceCount (fun _ => rfl)
          (fun _ _ => rfl) (fun _ => rfl) key entriesOf _
  · refine hkeys.trans ((keys_foldl_addDestination _ Dict.empty).trans ?_)
    have hall : ∀ key ∈ firstMet (((reportsOf reads).flatMap entriesOf).map fun entry => entry.1.key),
        decide (key ∉ (Dict.empty : ByKey).keys) = true := fun key _ => rfl
    rw [List.filter_eq_self.2 hall, List.map_flatMap]
    show firstMet _ = _
    congr 1
    apply List.flatMap_congr
    intro report hreport
    exact keys_entriesOf (hreports report hreport)
  · rw [hkeys]
    exact Dict.nodup _

end OrganizationReport

end SortView
