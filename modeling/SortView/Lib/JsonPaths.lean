import SortView.Lib.Dict
import SortView.Lib.Json

/-!
# Places of a JSON value

The value at a path, edits of one item of an object or of all elements of an array, and where two values agree.
-/

namespace SortView

namespace Json

open PyText

/-- A step into an object or an array. -/
inductive Step where
  | key (name : Text)
  | index (i : Nat)
  deriving DecidableEq

def child : Json → Step → Option Json
  | .object items, .key name => items.lookup name
  | .array items, .index i => items[i]?
  | _, _ => none

/-- The value at a path. -/
def atPath (value : Json) : List Step → Option Json
  | [] => some value
  | step :: path => (value.child step).bind fun inner => inner.atPath path

@[simp] theorem atPath_nil (value : Json) : value.atPath [] = some value := rfl

theorem atPath_cons (value : Json) (step : Step) (path : List Step) :
    value.atPath (step :: path) = (value.child step).bind fun inner => inner.atPath path := rfl

theorem atPath_append (value : Json) (path more : List Step) :
    value.atPath (path ++ more) = (value.atPath path).bind fun inner => inner.atPath more := by
  induction path generalizing value with
  | nil => rfl
  | cons step path ih =>
      rw [List.cons_append, atPath_cons, atPath_cons, Option.bind_assoc]
      congr 1
      funext inner
      exact ih inner

/-! ### Edits -/

/-- `items[name] = value`. -/
def putItem (items : List (Text × Json)) (name : Text) (value : Json) : List (Text × Json) := Dict.setEntries name value items

/-- `items.pop(name, None)`. -/
def popItem (items : List (Text × Json)) (name : Text) : List (Text × Json) := items.filter fun item => item.1 ≠ name

/-- An edit of the item at a name, where there is one. -/
def editItem (name : Text) (edit : Json → Option Json) (items : List (Text × Json)) : Option (List (Text × Json)) :=
  match items.lookup name with
  | none => some items
  | some value => (edit value).map fun edited => putItem items name edited

/-- An edit of every element. -/
def editAll (edit : Json → Option Json) : List Json → Option (List Json)
  | [] => some []
  | item :: items => do
      let edited ← edit item
      let rest ← editAll edit items
      return edited :: rest

theorem lookup_cons_ite (first : Text) (kept : Json) (items : List (Text × Json)) (other : Text) :
    ((first, kept) :: items).lookup other = if other = first then some kept else items.lookup other := by
  rw [List.lookup_cons]
  by_cases heq : other = first
  · rw [beq_iff_eq.2 heq, if_pos heq]
  · rw [beq_eq_false_iff_ne.2 heq, if_neg heq]

theorem lookup_putItem (items : List (Text × Json)) (name other : Text) (value : Json) :
    (putItem items name value).lookup other = if other = name then some value else items.lookup other := by
  rw [putItem]
  induction items with
  | nil =>
      rw [Dict.setEntries, lookup_cons_ite]
  | cons item items ih =>
      obtain ⟨first, kept⟩ := item
      rw [Dict.setEntries]
      split
      · next hfirst =>
        have hfirst : first = name := hfirst
        rw [lookup_cons_ite, lookup_cons_ite, hfirst]
        split
        · rfl
        · rfl
      · next hfirst =>
        have hfirst : first ≠ name := hfirst
        rw [lookup_cons_ite, lookup_cons_ite, ih]
        by_cases heq : other = first
        · rw [if_pos heq, if_pos heq, if_neg (heq ▸ hfirst)]
        · rw [if_neg heq, if_neg heq]

theorem lookup_popItem (items : List (Text × Json)) (name other : Text) :
    (popItem items name).lookup other = if other = name then none else items.lookup other := by
  rw [popItem]
  induction items with
  | nil => simp
  | cons item items ih =>
      obtain ⟨first, kept⟩ := item
      rw [List.filter_cons]
      by_cases hfirst : first = name
      · rw [if_neg (by simpa using hfirst), ih, lookup_cons_ite, hfirst]
        split
        · rfl
        · rfl
      · rw [if_pos (by simpa using hfirst), lookup_cons_ite, lookup_cons_ite, ih]
        by_cases heq : other = first
        · rw [if_pos heq, if_pos heq, if_neg (heq ▸ hfirst)]
        · rw [if_neg heq, if_neg heq]

theorem lookup_editItem {name : Text} {edit : Json → Option Json} {items edited : List (Text × Json)}
    (h : editItem name edit items = some edited) (other : Text) :
    edited.lookup other = if other = name then (items.lookup name).bind edit else items.lookup other := by
  rw [editItem] at h
  split at h
  · next hnone =>
    cases h
    split
    · next heq =>
      rw [heq, hnone]
      rfl
    · rfl
  · next value hsome =>
    obtain ⟨inner, hinner, rfl⟩ := Option.map_eq_some_iff.1 h
    rw [lookup_putItem, hsome]
    split
    · exact hinner.symm
    · rfl

theorem isSome_editItem_iff {name : Text} {edit : Json → Option Json} {items : List (Text × Json)} :
    (editItem name edit items).isSome ↔ ∀ value, items.lookup name = some value → (edit value).isSome := by
  rw [editItem]
  split
  · next hnone => simp [hnone]
  · next value hsome => simp [hsome]

theorem getElem?_editAll {edit : Json → Option Json} {items edited : List Json} (h : editAll edit items = some edited) (i : Nat) :
    edited[i]? = items[i]?.bind edit := by
  induction items generalizing edited i with
  | nil =>
      cases h
      rfl
  | cons item items ih =>
      rw [editAll] at h
      obtain ⟨first, hfirst, h⟩ := Option.bind_eq_some_iff.1 h
      obtain ⟨rest, hrest, h⟩ := Option.bind_eq_some_iff.1 h
      cases h
      cases i with
      | zero => exact hfirst.symm
      | succ i => exact ih hrest i

theorem isSome_editAll_iff {edit : Json → Option Json} {items : List Json} :
    (editAll edit items).isSome ↔ ∀ item ∈ items, (edit item).isSome := by
  induction items with
  | nil => simp [editAll]
  | cons item items ih =>
      rw [editAll, List.forall_mem_cons, ← ih]
      cases edit item with
      | none => simp
      | some first =>
          cases editAll edit items with
          | none => simp
          | some rest => simp

/-! ### Agreement -/

/-- Two objects, two arrays, or one value. -/
def SameShape : Json → Json → Prop
  | .object _, .object _ => True
  | .array _, .array _ => True
  | left, right => left = right

theorem sameShape_object (left right : List (Text × Json)) : SameShape (.object left) (.object right) := trivial

theorem sameShape_array (left right : List Json) : SameShape (.array left) (.array right) := trivial

theorem SameShape.refl (value : Json) : SameShape value value := by
  cases value with
  | object _ => trivial
  | array _ => trivial
  | _ => rfl

theorem SameShape.trans {first second third : Json} (hfirst : SameShape first second) (hsecond : SameShape second third) :
    SameShape first third := by
  cases first with
  | object _ =>
      cases second with
      | object _ =>
          cases third with
          | object _ => trivial
          | _ => cases hsecond
      | _ => cases hfirst
  | array _ =>
      cases second with
      | array _ =>
          cases third with
          | array _ => trivial
          | _ => cases hsecond
      | _ => cases hfirst
  | _ =>
      cases hfirst
      exact hsecond

/-- Two values agree at a path: nothing is there in both, or values of one shape are. -/
def SameAt : Option Json → Option Json → Prop
  | none, none => True
  | some left, some right => SameShape left right
  | _, _ => False

theorem SameAt.refl (value : Option Json) : SameAt value value := by
  cases value with
  | none => trivial
  | some value => exact SameShape.refl value

theorem SameAt.trans {first second third : Option Json} (hfirst : SameAt first second) (hsecond : SameAt second third) :
    SameAt first third := by
  cases first with
  | none =>
      cases second with
      | none => exact hsecond
      | some _ => cases hfirst
  | some first =>
      cases second with
      | none => cases hfirst
      | some second =>
          cases third with
          | none => cases hsecond
          | some third => exact SameShape.trans hfirst hsecond

/-- Two values agree at all paths but those that are touched. -/
def AgreeOff (touched : List Step → Prop) (left right : Json) : Prop :=
  ∀ path, ¬ touched path → SameAt (left.atPath path) (right.atPath path)

theorem AgreeOff.refl (touched : List Step → Prop) (value : Json) : AgreeOff touched value value :=
  fun _ _ => SameAt.refl _

theorem AgreeOff.trans {touched : List Step → Prop} {first second third : Json} (hfirst : AgreeOff touched first second)
    (hsecond : AgreeOff touched second third) : AgreeOff touched first third :=
  fun path hpath => (hfirst path hpath).trans (hsecond path hpath)

theorem AgreeOff.mono {touched more : List Step → Prop} {left right : Json} (h : AgreeOff touched left right)
    (hmore : ∀ path, touched path → more path) : AgreeOff more left right :=
  fun path hpath => h path (mt (hmore path) hpath)

/-- Two values of one shape agree where their children do. -/
theorem AgreeOff.of_children {touched : List Step → Prop} {left right : Json} (hshape : SameShape left right)
    (h : ∀ step, (∀ path, touched (step :: path)) ∨ left.child step = right.child step
      ∨ ∃ inner edited, left.child step = some inner ∧ right.child step = some edited
        ∧ AgreeOff (fun path => touched (step :: path)) inner edited) :
    AgreeOff touched left right := by
  intro path hpath
  cases path with
  | nil => exact hshape
  | cons step path =>
      rw [atPath_cons, atPath_cons]
      rcases h step with htouched | hsame | ⟨inner, edited, hinner, hedited, hagree⟩
      · exact absurd (htouched path) hpath
      · rw [hsame]
        exact SameAt.refl _
      · rw [hinner, hedited]
        exact hagree path hpath

theorem agreeOff_putItem (items : List (Text × Json)) (name : Text) (value : Json) :
    AgreeOff (fun path => ∃ rest, path = .key name :: rest) (.object items) (.object (putItem items name value)) := by
  apply AgreeOff.of_children (sameShape_object ..)
  intro step
  by_cases hstep : step = .key name
  · subst hstep
    exact Or.inl fun path => ⟨path, rfl⟩
  · right
    left
    cases step with
    | index i => rfl
    | key other =>
        have hne : other ≠ name := fun heq => hstep (heq ▸ rfl)
        show items.lookup other = (putItem items name value).lookup other
        rw [lookup_putItem, if_neg hne]

theorem agreeOff_popItem (items : List (Text × Json)) (name : Text) :
    AgreeOff (fun path => ∃ rest, path = .key name :: rest) (.object items) (.object (popItem items name)) := by
  apply AgreeOff.of_children (sameShape_object ..)
  intro step
  by_cases hstep : step = .key name
  · subst hstep
    exact Or.inl fun path => ⟨path, rfl⟩
  · right
    left
    cases step with
    | index i => rfl
    | key other =>
        have hne : other ≠ name := fun heq => hstep (heq ▸ rfl)
        show items.lookup other = (popItem items name).lookup other
        rw [lookup_popItem, if_neg hne]

/-- An edit of an item touches what it touches in the item. -/
theorem agreeOff_editItem {name : Text} {edit : Json → Option Json} {items edited : List (Text × Json)}
    {touched : List Step → Prop} (h : editItem name edit items = some edited)
    (hedit : ∀ value inner, items.lookup name = some value → edit value = some inner → AgreeOff touched value inner) :
    AgreeOff (fun path => ∃ rest, path = .key name :: rest ∧ touched rest) (.object items) (.object edited) := by
  apply AgreeOff.of_children (sameShape_object ..)
  intro step
  right
  cases step with
  | index i => exact Or.inl rfl
  | key other =>
      have hlookup := lookup_editItem h other
      by_cases heq : other = name
      · subst heq
        rw [if_pos rfl] at hlookup
        cases hvalue : items.lookup other with
        | none =>
            left
            rw [hvalue] at hlookup
            exact hvalue.trans hlookup.symm
        | some value =>
            right
            rw [hvalue] at hlookup
            cases hinner : edit value with
            | none =>
                have hsome := isSome_editItem_iff.1 (Option.isSome_iff_exists.2 ⟨_, h⟩) value hvalue
                rw [hinner] at hsome
                cases hsome
            | some inner =>
                refine ⟨value, inner, hvalue, hlookup.trans hinner, (hedit value inner hvalue hinner).mono ?_⟩
                exact fun path hpath => ⟨path, rfl, hpath⟩
      · rw [if_neg heq] at hlookup
        exact Or.inl hlookup.symm

/-- An edit of the elements touches what it touches in each. -/
theorem agreeOff_editAll {edit : Json → Option Json} {items edited : List Json} {touched : Nat → List Step → Prop}
    (h : editAll edit items = some edited)
    (hedit : ∀ i item inner, items[i]? = some item → edit item = some inner → AgreeOff (touched i) item inner) :
    AgreeOff (fun path => ∃ i rest, path = .index i :: rest ∧ touched i rest) (.array items) (.array edited) := by
  apply AgreeOff.of_children (sameShape_array ..)
  intro step
  right
  cases step with
  | key name => exact Or.inl rfl
  | index i =>
      have hget := getElem?_editAll h i
      cases hitem : items[i]? with
      | none =>
          left
          rw [hitem] at hget
          exact hitem.trans hget.symm
      | some item =>
          right
          rw [hitem] at hget
          cases hinner : edit item with
          | none =>
              have hsome := isSome_editAll_iff.1 (Option.isSome_iff_exists.2 ⟨_, h⟩) item (List.mem_of_getElem? hitem)
              rw [hinner] at hsome
              cases hsome
          | some inner =>
              refine ⟨item, inner, hitem, hget.trans hinner, (hedit i item inner hitem hinner).mono ?_⟩
              exact fun path hpath => ⟨i, path, rfl, hpath⟩

end Json

end SortView
