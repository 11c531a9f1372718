import SortView.Lib.CaseFacts
import SortView.Services.PrivacyHardening

/-!
# What a scrubbed event still says

The places of an event and of what is sent for it: where sensitive values are, what is replaced, and what stays. The event
keeps the local variables of the stack traces that are not those of its exceptions.
-/

namespace SortView

open PyText Json

namespace PrivacyHardening

/-! ### Places -/

def exceptionValues : List Step := [.key "exception".toList, .key "values".toList]

def threadValues : List Step := [.key "threads".toList, .key "values".toList]

def traceFrames : List Step := [.key "stacktrace".toList, .key "frames".toList]

/-- The local variables of a frame of a stack trace. -/
def frameVars (j : Nat) : List Step := traceFrames ++ [.index j, .key "vars".toList]

def requestBody : List Step := [.key "request".toList, .key "data".toList]

/-- Numbers, flags and null. -/
def isScalar : Json → Bool
  | .null | .bool _ | .int _ | .real _ => true
  | _ => false

def isContainer : Json → Bool
  | .array _ | .object _ => true
  | _ => false

/-- Whether `for element in value or []` can be run. -/
def iterable (value : Json) : Bool := !(isScalar value && value.truthy)

/-- The place of a value that is replaced by design. -/
inductive Replaced (other : Json → Text) (event : List (Text × Json)) (path : List Step) : Prop where
  | sensitive (key : Text) (hkey : isSensitiveKey (some key) = true) (hmem : .key key ∈ path)
  | body (hstart : requestBody <+: path)
  | databaseError (i : Nat) (items : List (Text × Json))
      (hitem : (Json.object event).atPath (exceptionValues ++ [.index i]) = some (.object items))
      (hdatabase : isDatabaseException other items = true)
      (hstart : exceptionValues ++ [.index i, .key "value".toList] <+: path)
  | deep (hdepth : maxDepth < path.length)
  | vars (i j : Nat) (hstart : exceptionValues ++ .index i :: frameVars j <+: path)

/-- What is sent for an event carries no sensitive value, and the rest of it is as it was. -/
structure Unexposed (other : Json → Text) (event result : List (Text × Json)) : Prop where
  sensitive : ∀ path key value, isSensitiveKey (some key) = true →
    (Json.object result).atPath (path ++ [.key key]) = some value → value = .text filtered
  body : ∀ value, (Json.object event).atPath requestBody = some value →
    (Json.object result).atPath requestBody = some (.text filtered)
  databaseErrors : ∀ i items, (Json.object event).atPath (exceptionValues ++ [.index i]) = some (.object items) →
    isDatabaseException other items = true →
    (Json.object result).atPath (exceptionValues ++ [.index i, .key "value".toList]) = some (.text dbErrorRedacted)
  depth : ∀ path value, (Json.object result).atPath path = some value → isContainer value = true → path.length ≤ maxDepth
  exceptionVars : ∀ i j, (Json.object result).atPath (exceptionValues ++ .index i :: frameVars j) = none
  threadVars : ∀ i j, (Json.object result).atPath (threadValues ++ .index i :: frameVars j) = none
  eventVars : ∀ j, (Json.object result).atPath (frameVars j) = none
  unchanged : ∀ path value, isScalar value = true → (Json.object event).atPath path = some value →
    ¬ Replaced other event path → (Json.object result).atPath path = some value

/-- An event whose lists are lists and whose stack traces outside the exceptions have no local variables. -/
structure NoOtherVars (event : List (Text × Json)) : Prop where
  values : ∀ value, (Json.object event).atPath exceptionValues = some value → iterable value = true
  frames : ∀ i value, (Json.object event).atPath (exceptionValues ++ .index i :: traceFrames) = some value → iterable value = true
  threadVars : ∀ i j, (Json.object event).atPath (threadValues ++ .index i :: frameVars j) = none
  eventVars : ∀ j, (Json.object event).atPath (frameVars j) = none

/-! ### The recursive scrubbing -/

section Scrubbed

variable {isWord : Char → Bool}

/-- The key that a value is scrubbed with. -/
def stepKey : Step → Option Text
  | .key name => some name
  | .index _ => none

def keyAfter (key : Option Text) : List Step → Option Text
  | [] => key
  | step :: path => keyAfter (stepKey step) path

/-- Nothing above the end of the path is replaced. -/
def Reaches (key : Option Text) (depth : Nat) : List Step → Prop
  | [] => True
  | step :: path => (isSensitiveKey key = false ∧ depth ≤ maxDepth) ∧ Reaches (stepKey step) (depth + 1) path

/-- The scrubbing of a value whose key and depth are not a reason to replace it. -/
def scrubShown (isWord : Char → Bool) (depth : Nat) : Json → Json
  | .object items => .object (scrubItems isWord depth items)
  | .array items => .array (scrubElements isWord depth items)
  | .text value => .text (scrubText isWord value)
  | value => value

theorem scrub_eq (key : Option Text) (depth : Nat) (value : Json) :
    scrub isWord key depth value = if isSensitiveKey key then .text filtered
      else if maxDepth < depth then .text filtered else scrubShown isWord depth value := by
  cases value with
  | object items => rw [scrub, scrubShown]
  | array items => rw [scrub, scrubShown]
  | text value => rw [scrub, scrubShown]
  | _ => simp [scrub, scrubShown]

theorem scrub_hidden {key : Option Text} {depth : Nat} (h : isSensitiveKey key = true ∨ maxDepth < depth) (value : Json) :
    scrub isWord key depth value = .text filtered := by
  rw [scrub_eq]
  rcases h with hkey | hdepth
  · exact if_pos hkey
  · rw [if_pos hdepth, ite_self]

theorem scrub_shown {key : Option Text} {depth : Nat} (hkey : isSensitiveKey key = false) (hdepth : depth ≤ maxDepth)
    (value : Json) : scrub isWord key depth value = scrubShown isWord depth value := by
  rw [scrub_eq, if_neg (by rw [hkey]; decide), if_neg (Nat.not_lt.2 hdepth)]

theorem lookup_scrubItems (depth : Nat) (items : List (Text × Json)) (name : Text) :
    (scrubItems isWord depth items).lookup name = (items.lookup name).map (scrub isWord (some name) (depth + 1)) := by
  induction items with
  | nil => rfl
  | cons item items ih =>
      obtain ⟨key, value⟩ := item
      rw [scrubItems, scrubItem, lookup_cons_ite, lookup_cons_ite, ih]
      split
      · next heq =>
        rw [heq]
        rfl
      · rfl

theorem getElem?_scrubElements (depth : Nat) (items : List Json) (i : Nat) :
    (scrubElements isWord depth items)[i]? = items[i]?.map (scrub isWord none (depth + 1)) := by
  induction items generalizing i with
  | nil => rfl
  | cons item items ih =>
      rw [scrubElements]
      cases i with
      | zero => rfl
      | succ i => exact ih i

theorem child_scrubShown (depth : Nat) (value : Json) (step : Step) :
    (scrubShown isWord depth value).child step = (value.child step).map (scrub isWord (stepKey step) (depth + 1)) := by
  cases value with
  | object items =>
      cases step with
      | key name => exact lookup_scrubItems depth items name
      | index i => rfl
  | array items =>
      cases step with
      | key name => rfl
      | index i => exact getElem?_scrubElements depth items i
  | _ => rfl

/-- What is at a path that the scrubbing reaches is scrubbed there. -/
theorem atPath_scrub {key : Option Text} {depth : Nat} {path : List Step} (h : Reaches key depth path) (value : Json) :
    (scrub isWord key depth value).atPath path
      = (value.atPath path).map (scrub isWord (keyAfter key path) (depth + path.length)) := by
  induction path generalizing key depth value with
  | nil => rfl
  | cons step path ih =>
      obtain ⟨⟨hkey, hdepth⟩, hrest⟩ := h
      rw [scrub_shown hkey hdepth, atPath_cons, atPath_cons, child_scrubShown, List.length_cons, keyAfter, Option.bind_map,
        Option.map_bind]
      congr 1
      funext inner
      rw [Function.comp_apply, Function.comp_apply, ih hrest, Nat.add_right_comm, Nat.add_assoc]

/-- What is left at a path was scrubbed with its key and at its depth. -/
theorem exists_scrub_of_atPath {key : Option Text} {depth : Nat} {path : List Step} {value left : Json}
    (h : (scrub isWord key depth value).atPath path = some left) :
    ∃ inner, left = scrub isWord (keyAfter key path) (depth + path.length) inner := by
  induction path generalizing key depth value with
  | nil =>
      cases h
      exact ⟨value, rfl⟩
  | cons step path ih =>
      by_cases hhidden : isSensitiveKey key = true ∨ maxDepth < depth
      · rw [scrub_hidden hhidden] at h
        cases h
      · obtain ⟨hkey, hdepth⟩ := not_or.1 hhidden
        rw [scrub_shown (Bool.eq_false_iff.2 hkey) (Nat.le_of_not_lt hdepth), atPath_cons, child_scrubShown] at h
        obtain ⟨inner, hinner, h⟩ := Option.bind_eq_some_iff.1 h
        obtain ⟨under, -, rfl⟩ := Option.map_eq_some_iff.1 hinner
        obtain ⟨last, hlast⟩ := ih h
        refine ⟨last, hlast.trans ?_⟩
        rw [keyAfter, List.length_cons, Nat.add_right_comm, Nat.add_assoc]

theorem keyAfter_append (key : Option Text) (path : List Step) (step : Step) :
    keyAfter key (path ++ [step]) = stepKey step := by
  induction path generalizing key with
  | nil => rfl
  | cons first path ih => exact ih _

/-- Without a sensitive key on it, a path of the depth that is kept is reached to its end. -/
theorem reaches_of_plain {key : Option Text} {depth : Nat} {path : List Step} (hkey : isSensitiveKey key = false)
    (hpath : ∀ name, .key name ∈ path → isSensitiveKey (some name) = false) (hdepth : depth + path.length ≤ maxDepth) :
    Reaches key depth path ∧ isSensitiveKey (keyAfter key path) = false := by
  induction path generalizing key depth with
  | nil => exact ⟨trivial, hkey⟩
  | cons step path ih =>
      have hstep : isSensitiveKey (stepKey step) = false := by
        cases step with
        | key name => exact hpath name (List.mem_cons_self ..)
        | index i => rfl
      rw [List.length_cons] at hdepth
      have hlater : depth + 1 + path.length ≤ maxDepth := by omega
      have hrest := ih hstep (fun name hname => hpath name (List.mem_cons_of_mem _ hname)) hlater
      exact ⟨⟨⟨hkey, by omega⟩, hrest.1⟩, hrest.2⟩

theorem scrubShown_scalar {value : Json} (h : isScalar value = true) (depth : Nat) : scrubShown isWord depth value = value := by
  cases value with
  | object _ => cases h
  | array _ => cases h
  | text _ => cases h
  | _ => rfl

theorem iterable_scrubShown (depth : Nat) (value : Json) : iterable (scrubShown isWord depth value) = iterable value := by
  cases value with
  | object _ => rfl
  | array _ => rfl
  | text _ => rfl
  | _ => rfl

/-! ### Database errors -/

/-- The characters of the names by which a database error is known. -/
def Plain (c : Char) : Prop := c.isAlphanum = true

instance (c : Char) : Decidable (Plain c) := inferInstanceAs (Decidable (c.isAlphanum = true))

/-- The end of a name, or of the first part of a module. -/
def AtDot (after : Option Char) : Prop := after = none ∨ after = some '.'

def AtEnd (after : Option Char) : Prop := after = none

theorem toNat_of_plain {c : Char} (h : Plain c) : 33 ≤ c.toNat ∧ c.toNat < 127 := by
  have hval : c.val.toNat = c.toNat := rfl
  have hcases : ((65 ≤ c.val.toNat ∧ c.val.toNat ≤ 90) ∨ (97 ≤ c.val.toNat ∧ c.val.toNat ≤ 122))
      ∨ (48 ≤ c.val.toNat ∧ c.val.toNat ≤ 57) := by
    rcases (Bool.or_eq_true ..).mp h with halpha | hdigit
    · rcases (Bool.or_eq_true ..).mp halpha with hupper | hlower
      · exact Or.inl (Or.inl (of_decide_eq_true hupper))
      · exact Or.inl (Or.inr ((Bool.and_eq_true ..).mp hlower |>.imp of_decide_eq_true of_decide_eq_true))
    · exact Or.inr ((Bool.and_eq_true ..).mp hdigit |>.imp of_decide_eq_true of_decide_eq_true)
  omega

theorem not_plain_of_isSpace {c : Char} (h : isSpace c = true) : ¬ Plain c ∧ c ≠ '.' := by
  constructor
  · intro hplain
    have hbounds := toNat_of_plain hplain
    simp only [isSpace, Bool.or_eq_true, Bool.and_eq_true, decide_eq_true_eq, beq_iff_eq] at h
    omega
  · rintro rfl
    exact absurd h (by decide)

theorem foreign_of_head {atEnd : Option Char → Prop} (hatEnd : ∀ after, atEnd after → AtDot after) {c : Char} (text : Text)
    (hplain : ¬ Plain c) (hdot : c ≠ '.') : Foreign Plain atEnd (c :: text) := by
  refine ⟨c, rfl, hplain, ?_⟩
  intro hend
  rcases hatEnd _ hend with hnone | hsome
  · cases hnone
  · exact hdot (Option.some.inj hsome)

theorem matches_exactly {letters text : Text} (h : (exactly letters).Matches text) : text = letters := by
  induction letters generalizing text with
  | nil => exact h
  | cons letter letters ih =>
      obtain ⟨left, right, ⟨c, hc, rfl⟩, hright, rfl⟩ := h
      rw [ih hright, of_decide_eq_true hc]
      rfl

section LeavesWords

variable {atEnd : Option Char → Prop} (hatEnd : ∀ after, atEnd after → AtDot after)

include hatEnd

theorem leavesWords_urlCredentials : urlCredentials.LeavesWords Plain atEnd where
  beyond kept dropped hkept _ := by
    left
    rw [matches_exactly hkept]
    exact ⟨':', by decide, by decide⟩
  mark := @foreign_of_head _ hatEnd '[' _ (by decide) (by decide)

theorem leavesWords_dsnKey : dsnKey.LeavesWords Plain atEnd where
  beyond kept dropped hkept _ := by
    left
    obtain ⟨scheme, rest, -, ⟨secure, slashes, -, hslashes, rfl⟩, rfl⟩ := hkept
    rw [matches_exactly hslashes]
    exact ⟨':', List.mem_append_right _ (List.mem_append_right _ (by decide)), by decide⟩
  mark := @foreign_of_head _ hatEnd '[' _ (by decide) (by decide)

theorem leavesWords_bearer : bearer.LeavesWords Plain atEnd where
  beyond kept dropped _ hdropped := by
    right
    obtain ⟨spaces, token, ⟨hlength, hspaces⟩, -, rfl⟩ := hdropped
    cases spaces with
    | nil => cases hlength
    | cons c spaces =>
        have hc := not_plain_of_isSpace (hspaces c (List.mem_cons_self ..))
        exact foreign_of_head hatEnd _ hc.1 hc.2
  mark := foreign_of_head hatEnd _ (by decide) (by decide)

theorem leavesWords_sensitivePair : (sensitivePair isWord).LeavesWords Plain atEnd where
  beyond kept dropped _ hdropped := by
    right
    obtain ⟨equals, value, ⟨c, hc, rfl⟩, -, rfl⟩ := hdropped
    rw [of_decide_eq_true hc]
    exact foreign_of_head hatEnd _ (by decide) (by decide)
  mark := foreign_of_head hatEnd _ (by decide) (by decide)

/-- A text opens with a plain word if and only if it does when its secrets are replaced. -/
theorem opens_scrubText_iff {word : Text} (hword : ∀ c ∈ word, Plain c) (text : Text) :
    Opens atEnd word (scrubText isWord text) ↔ Opens atEnd word text := by
  rw [scrubText, (leavesWords_sensitivePair hatEnd).opens_sub_iff isWord hword,
    (leavesWords_bearer hatEnd).opens_sub_iff isWord hword, (leavesWords_dsnKey hatEnd).opens_sub_iff isWord hword,
    (leavesWords_urlCredentials hatEnd).opens_sub_iff isWord hword]

end LeavesWords

theorem opens_atEnd_iff {word text : Text} : Opens AtEnd word text ↔ text = word := by
  constructor
  · rintro ⟨rest, rfl, hrest⟩
    rw [List.head?_eq_none_iff.1 hrest, List.append_nil]
  · rintro rfl
    exact ⟨[], (List.append_nil _).symm, rfl⟩

theorem headD_split_cons (c : Char) (text : Text) :
    (split '.' (c :: text)).headD [] = if c = '.' then [] else c :: (split '.' text).headD [] := by
  rw [split]
  split
  · rfl
  · cases split '.' text with
    | nil => rfl
    | cons part parts => rfl

theorem opens_atDot_iff {word : Text} (hword : ∀ c ∈ word, Plain c) {text : Text} :
    Opens AtDot word text ↔ (split '.' text).headD [] = word := by
  induction text generalizing word with
  | nil =>
      constructor
      · rintro ⟨rest, heq, -⟩
        exact (List.append_eq_nil_iff.1 heq.symm).1.symm
      · rintro rfl
        exact ⟨[], rfl, Or.inl rfl⟩
  | cons c text ih =>
      rw [headD_split_cons]
      split
      · next hdot =>
        cases word with
        | nil => exact iff_of_true (opens_nil_iff.2 (Or.inr (hdot ▸ rfl))) rfl
        | cons w word =>
            rw [opens_cons_iff]
            refine iff_of_false ?_ (fun heq => List.cons_ne_nil _ _ heq.symm)
            rintro ⟨rfl, -⟩
            have hplain := hword w (List.mem_cons_self ..)
            rw [hdot] at hplain
            exact absurd hplain (by decide)
      · next hdot =>
        cases word with
        | nil =>
            rw [opens_nil_iff]
            refine iff_of_false ?_ (List.cons_ne_nil _ _)
            intro hend
            rcases hend with hnone | hsome
            · cases hnone
            · exact hdot (Option.some.inj hsome)
        | cons w word =>
            rw [opens_cons_iff, ih fun d hd => hword d (List.mem_cons_of_mem _ hd), List.cons.injEq]
            exact and_congr_left fun _ => eq_comm

/-- What the spelling of a value that is no text starts with. -/
def spellingStarts : Text := "-0123456789T[\x7b".toList

/-- `str` of a number, of `True` and of a container starts with a sign, a digit, a capital or a bracket. -/
def SpelledAsPython (other : Json → Text) : Prop :=
  ∀ value : Json, value.text? = none → value.truthy = true → ∃ c rest, other value = c :: rest ∧ c ∈ spellingStarts

variable {other : Json → Text}

/-- A value that is no text is not spelled like a name of a database error. -/
theorem strOrEmpty_other (hother : SpelledAsPython other) {value : Json} (htext : value.text? = none) :
    strOrEmpty other value = [] ∨ ∃ c rest, strOrEmpty other value = c :: rest ∧ c ∈ spellingStarts := by
  rw [strOrEmpty]
  split
  · next htruthy =>
    right
    cases value with
    | text _ => cases htext
    | _ => exact hother _ htext htruthy
  · exact Or.inl rfl

theorem strOrEmpty_text (value : Text) : strOrEmpty other (.text value) = value := by
  rw [strOrEmpty]
  split
  · rfl
  · next hempty =>
    have hnil : value = [] := by simpa [Json.truthy] using hempty
    exact hnil.symm

theorem text?_scrubShown {value : Json} (h : value.text? = none) (depth : Nat) : (scrubShown isWord depth value).text? = none := by
  cases value with
  | text _ => cases h
  | _ => rfl

/-- The names on the paths of an event, and those that are read of an exception. -/
def placeNames : List Text :=
  ["request".toList, "data".toList, "exception".toList, "values".toList, "threads".toList, "stacktrace".toList, "frames".toList,
    "vars".toList, "module".toList, "type".toList, "value".toList]

theorem lower_placeNames : (placeNames.all fun name => name.all fun c => decide (c.toNat < 192) && !isCapital c) = true := by
  decide +kernel

theorem letters_placeNames : (placeNames.all fun name =>
    let letters := name.filter fun c => c.isLower || c.isDigit
    !decide (letters ∈ sensitiveExact) && !sensitiveSuffixes.any fun suffix => suffix.isSuffixOf letters) = true := by
  decide +kernel

/-- None of them is sensitive: the lower case leaves them alone, and their letters are no sensitive name. -/
theorem not_sensitive_of_mem {name : Text} (hname : name ∈ placeNames) : isSensitiveKey (some name) = false := by
  have hlower := List.all_eq_true.1 lower_placeNames name hname
  have hletters := List.all_eq_true.1 letters_placeNames name hname
  simp only [List.all_eq_true, Bool.and_eq_true, decide_eq_true_eq, Bool.not_eq_true'] at hlower hletters
  rw [isSensitiveKey, normalised, lower_eq_self hlower, hletters.1, hletters.2]
  rfl

/-- Names of characters that are kept, none of which starts like a number or a container. -/
def PlainNames (names : List Text) : Prop :=
  ∀ name ∈ names, name ≠ [] ∧ (∀ c ∈ name, Plain c) ∧ ∀ c ∈ name.head?, c ∉ spellingStarts

theorem plainNames_of_all {names : List Text} (hall : names.all (fun name => name ≠ [] && name.all Char.isAlphanum
    && name.head?.all fun c => !spellingStarts.contains c) = true) : PlainNames names := by
  intro name hname
  have h := List.all_eq_true.1 hall name hname
  simp only [Bool.and_eq_true, decide_eq_true_eq, List.all_eq_true] at h
  refine ⟨h.1.1, h.1.2, ?_⟩
  intro c hc
  have hhead := h.2
  rw [hc] at hhead
  simpa using hhead

theorem plainNames_dbModules : PlainNames dbModules := plainNames_of_all (by decide +kernel)

theorem plainNames_dbTypeNames : PlainNames dbTypeNames := plainNames_of_all (by decide +kernel)

theorem mem_scrubShown_iff (hother : SpelledAsPython other) {names : List Text} (hnames : PlainNames names)
    {part : Text → Text} (hhead : ∀ c text, c ≠ '.' → (part (c :: text)).head? = some c) (hnil : part [] = [])
    (hpart : ∀ name ∈ names, ∀ text, part (scrubText isWord text) = name ↔ part text = name) (depth : Nat) (value : Json) :
    part (strOrEmpty other (scrubShown isWord depth value)) ∈ names ↔ part (strOrEmpty other value) ∈ names := by
  cases htext : value.text? with
  | some text =>
      cases value with
      | text value =>
          rw [scrubShown, strOrEmpty_text, strOrEmpty_text]
          constructor
          · intro hmem
            exact (hpart _ hmem value).1 rfl ▸ hmem
          · intro hmem
            exact (hpart _ hmem value).2 rfl ▸ hmem
      | _ => cases htext
  | none =>
      have hnot {spelled : Text} (h : spelled = [] ∨ ∃ c rest, spelled = c :: rest ∧ c ∈ spellingStarts) :
          part spelled ∉ names := by
        intro hmem
        obtain ⟨hne, -, hstart⟩ := hnames _ hmem
        rcases h with hempty | ⟨c, rest, hcons, hc⟩
        · rw [hempty] at hne
          exact hne hnil
        · have hdot : c ≠ '.' := by
            rintro rfl
            exact absurd hc (by decide)
          rw [hcons, hhead c rest hdot] at hstart
          exact hstart c rfl hc
      exact iff_of_false (hnot (strOrEmpty_other hother (text?_scrubShown htext depth))) (hnot (strOrEmpty_other hother htext))

theorem get_scrubItems {name : Text} (hname : isSensitiveKey (some name) = false) {depth : Nat} (hdepth : depth < maxDepth)
    (items : List (Text × Json)) :
    Json.get (scrubItems isWord depth items) name = scrubShown isWord (depth + 1) (Json.get items name) := by
  rw [Json.get, Json.get, Json.getD, Json.getD, lookup_scrubItems]
  cases items.lookup name with
  | none => rfl
  | some value => exact scrub_shown hname hdepth value

/-- A database error is one before and after the scrubbing. -/
theorem isDatabaseException_scrubItems (hother : SpelledAsPython other) {depth : Nat} (hdepth : depth < maxDepth)
    (items : List (Text × Json)) :
    isDatabaseException other (scrubItems isWord depth items) = isDatabaseException other items := by
  have hmodule := @mem_scrubShown_iff isWord other hother _ plainNames_dbModules (fun text => (split '.' text).headD [])
    (fun c text hdot => by rw [headD_split_cons, if_neg hdot]; rfl) rfl
    (fun name hname text => by
      have hplain := (plainNames_dbModules name hname).2.1
      rw [← opens_atDot_iff hplain, ← opens_atDot_iff hplain]
      exact opens_scrubText_iff (fun _ h => h) hplain text)
    (depth + 1) (Json.get items "module".toList)
  have htype := @mem_scrubShown_iff isWord other hother _ plainNames_dbTypeNames (fun text => text)
    (fun _ _ _ => rfl) rfl
    (fun name hname text => by
      rw [← opens_atEnd_iff, ← opens_atEnd_iff]
      exact opens_scrubText_iff (fun _ h => Or.inl h) (plainNames_dbTypeNames name hname).2.1 text)
    (depth + 1) (Json.get items "type".toList)
  rw [isDatabaseException, isDatabaseException, get_scrubItems (not_sensitive_of_mem (by simp [placeNames])) hdepth,
    get_scrubItems (not_sensitive_of_mem (by simp [placeNames])) hdepth]
  exact congr (congrArg or (decide_eq_decide.2 hmodule)) (decide_eq_decide.2 htype)

/-! ### The edits of single places -/

section Edits

variable {name : Text} {edit : Json → Option Json} {value edited : Json}

theorem child_editMapping (h : editMapping (editItem name edit) value = some edited) (step : Step) :
    edited.child step = if step = .key name then (value.child step).bind edit else value.child step := by
  cases value with
  | object items =>
      obtain ⟨kept, hkept, rfl⟩ := Option.map_eq_some_iff.1 h
      cases step with
      | index i => rw [if_neg (fun heq => nomatch heq)]; rfl
      | key other =>
          have hlookup := lookup_editItem hkept other
          by_cases heq : other = name
          · rw [if_pos heq] at hlookup
            rw [if_pos (heq ▸ rfl), heq]
            rw [heq] at hlookup
            exact hlookup
          · rw [if_neg heq] at hlookup
            rw [if_neg (fun hstep => heq (Step.key.inj hstep))]
            exact hlookup
  | _ =>
      cases h
      cases step with
      | index i => rw [if_neg (fun heq => nomatch heq)]
      | key other => exact (ite_self _).symm

theorem isSome_editMapping_iff :
    (editMapping (editItem name edit) value).isSome ↔ ∀ inner, value.child (.key name) = some inner → (edit inner).isSome := by
  cases value with
  | object items =>
      rw [editMapping, Option.isSome_map]
      exact isSome_editItem_iff
  | _ => exact iff_of_true rfl fun _ h => nomatch h

theorem editElements_scalar (h : isScalar value = true) : editElements edit value = if value.truthy then none else some value := by
  cases value with
  | object _ => cases h
  | array _ => cases h
  | text _ => cases h
  | _ => rfl

theorem child_editElements (h : editElements edit value = some edited) (i : Nat) :
    edited.child (.index i) = (value.child (.index i)).bind edit := by
  cases value with
  | array items =>
      obtain ⟨kept, hkept, rfl⟩ := Option.map_eq_some_iff.1 h
      exact getElem?_editAll hkept i
  | object items =>
      cases h
      rfl
  | text text =>
      cases h
      rfl
  | _ =>
      rw [editElements_scalar rfl] at h
      split at h
      · cases h
      · cases h
        rfl

theorem isSome_editElements_iff :
    (editElements edit value).isSome
      ↔ iterable value = true ∧ ∀ i inner, value.child (.index i) = some inner → (edit inner).isSome := by
  cases value with
  | array items =>
      rw [editElements, Option.isSome_map, isSome_editAll_iff]
      constructor
      · intro h
        exact ⟨rfl, fun i inner hinner => h inner (List.mem_of_getElem? hinner)⟩
      · rintro ⟨-, h⟩ item hitem
        obtain ⟨i, hi⟩ := List.getElem?_of_mem hitem
        exact h i item hi
  | object items => exact iff_of_true rfl ⟨rfl, fun _ _ h => nomatch h⟩
  | text text => exact iff_of_true rfl ⟨rfl, fun _ _ h => nomatch h⟩
  | _ =>
      rw [editElements_scalar rfl, iterable]
      split
      · next htruthy =>
        rw [htruthy]
        exact iff_of_false (fun h => nomatch h) (fun h => nomatch h.1)
      · next htruthy =>
        rw [Bool.eq_false_iff.2 htruthy]
        exact iff_of_true rfl ⟨rfl, fun _ _ h => nomatch h⟩

/-- What is below an edited child. -/
theorem exists_of_child {step : Step} {path : List Step} {left : Json} (hchild : edited.child step = (value.child step).bind edit)
    (h : edited.atPath (step :: path) = some left) :
    ∃ inner kept, value.child step = some inner ∧ edit inner = some kept ∧ kept.atPath path = some left := by
  obtain ⟨kept, hkept, hleft⟩ := Option.bind_eq_some_iff.1 h
  rw [hchild] at hkept
  obtain ⟨inner, hinner, hedit⟩ := Option.bind_eq_some_iff.1 hkept
  exact ⟨inner, kept, hinner, hedit, hleft⟩

theorem exists_edited_item (h : editMapping (editItem name edit) value = some edited) {inner : Json}
    (hinner : value.child (.key name) = some inner) :
    ∃ kept, edit inner = some kept ∧ edited.child (.key name) = some kept := by
  obtain ⟨kept, hkept⟩ := Option.isSome_iff_exists.1
    (isSome_editMapping_iff.1 (Option.isSome_iff_exists.2 ⟨_, h⟩) inner hinner)
  refine ⟨kept, hkept, ?_⟩
  rw [child_editMapping h, if_pos rfl, hinner]
  exact hkept

theorem exists_edited_element (h : editElements edit value = some edited) {i : Nat} {inner : Json}
    (hinner : value.child (.index i) = some inner) :
    ∃ kept, edit inner = some kept ∧ edited.child (.index i) = some kept := by
  obtain ⟨kept, hkept⟩ := Option.isSome_iff_exists.1
    ((isSome_editElements_iff.1 (Option.isSome_iff_exists.2 ⟨_, h⟩)).2 i inner hinner)
  refine ⟨kept, hkept, ?_⟩
  rw [child_editElements h, hinner]
  exact hkept

theorem agreeOff_editMapping {touched : List Step → Prop} (h : editMapping (editItem name edit) value = some edited)
    (hedit : ∀ inner kept, value.child (.key name) = some inner → edit inner = some kept → AgreeOff touched inner kept) :
    AgreeOff (fun path => ∃ rest, path = .key name :: rest ∧ touched rest) value edited := by
  cases value with
  | object items =>
      obtain ⟨kept, hkept, rfl⟩ := Option.map_eq_some_iff.1 h
      exact agreeOff_editItem hkept hedit
  | _ =>
      cases h
      exact AgreeOff.refl _ _

theorem agreeOff_editElements {touched : Nat → List Step → Prop} (h : editElements edit value = some edited)
    (hedit : ∀ i inner kept, value.child (.index i) = some inner → edit inner = some kept → AgreeOff (touched i) inner kept) :
    AgreeOff (fun path => ∃ i rest, path = .index i :: rest ∧ touched i rest) value edited := by
  cases value with
  | array items =>
      obtain ⟨kept, hkept, rfl⟩ := Option.map_eq_some_iff.1 h
      exact agreeOff_editAll hkept hedit
  | object items =>
      cases h
      exact AgreeOff.refl _ _
  | text text =>
      cases h
      exact AgreeOff.refl _ _
  | _ =>
      rw [editElements_scalar rfl] at h
      split at h
      · cases h
      · cases h
        exact AgreeOff.refl _ _

end Edits

/-! ### The edits of an event -/

theorem exists_edited_body {value edited : Json} (h : editMapping filterBody value = some edited) {inner : Json}
    (hinner : value.child (.key "data".toList) = some inner) : edited.child (.key "data".toList) = some (.text filtered) := by
  cases value with
  | object items =>
      obtain ⟨kept, hkept, rfl⟩ := Option.map_eq_some_iff.1 h
      have hlookup : items.lookup "data".toList = some inner := hinner
      rw [filterBody, hlookup] at hkept
      cases hkept
      show (putItem items "data".toList (.text filtered)).lookup "data".toList = _
      rw [lookup_putItem, if_pos rfl]
  | _ => cases hinner

theorem child_body {value edited left : Json} (h : editMapping filterBody value = some edited)
    (hleft : edited.child (.key "data".toList) = some left) : left = .text filtered := by
  cases value with
  | object items =>
      cases hdata : items.lookup "data".toList with
      | some inner =>
          have hfiltered := exists_edited_body h hdata
          rw [hleft] at hfiltered
          exact Option.some.inj hfiltered
      | none =>
          obtain ⟨kept, hkept, rfl⟩ := Option.map_eq_some_iff.1 h
          rw [filterBody, hdata] at hkept
          cases hkept
          exact absurd (hdata.symm.trans hleft) (fun h => nomatch h)
  | _ =>
      cases h
      cases hleft

theorem agreeOff_body {value edited : Json} (h : editMapping filterBody value = some edited) :
    AgreeOff (fun path => ∃ rest, path = .key "data".toList :: rest) value edited := by
  cases value with
  | object items =>
      obtain ⟨kept, hkept, rfl⟩ := Option.map_eq_some_iff.1 h
      rw [filterBody] at hkept
      split at hkept
      · cases hkept
        exact agreeOff_putItem items _ _
      · cases hkept
        exact AgreeOff.refl _ _
  | _ =>
      cases h
      exact AgreeOff.refl _ _

theorem isSome_body (value : Json) : (editMapping filterBody value).isSome := by
  cases value with
  | object items =>
      rw [editMapping, Option.isSome_map, filterBody]
      split
      · rfl
      · rfl
  | _ => rfl

theorem child_dropVars {value edited : Json} (h : editMapping dropVars value = some edited) :
    edited.child (.key "vars".toList) = none := by
  cases value with
  | object items =>
      cases h
      show (popItem items "vars".toList).lookup "vars".toList = none
      rw [lookup_popItem, if_pos rfl]
  | _ =>
      cases h
      rfl

theorem agreeOff_dropVars {value edited : Json} (h : editMapping dropVars value = some edited) :
    AgreeOff (fun path => ∃ rest, path = .key "vars".toList :: rest) value edited := by
  cases value with
  | object items =>
      cases h
      exact agreeOff_popItem items _
  | _ =>
      cases h
      exact AgreeOff.refl _ _

theorem isSome_dropVars (value : Json) : (editMapping dropVars value).isSome := by
  cases value with
  | object items => rfl
  | _ => rfl

/-- The items of an exception, with the value replaced where it is a database error. -/
def replacedValue (other : Json → Text) (items : List (Text × Json)) : List (Text × Json) :=
  if isDatabaseException other items then putItem items "value".toList (.text dbErrorRedacted) else items

theorem editException_eq (items : List (Text × Json)) :
    (editException other items).map .object
      = editMapping (editItem "stacktrace".toList (editMapping editFrames)) (.object (replacedValue other items)) := rfl

theorem child_replacedValue {items : List (Text × Json)} {step : Step} (h : step ≠ .key "value".toList) :
    (Json.object (replacedValue other items)).child step = (Json.object items).child step := by
  rw [replacedValue]
  split
  · cases step with
    | index i => rfl
    | key name =>
        show (putItem items "value".toList (.text dbErrorRedacted)).lookup name = items.lookup name
        rw [lookup_putItem, if_neg (mt (congrArg Step.key) h)]
  · rfl

/-- What an exception is edited to: the stack trace without local variables, and the value of a database error. -/
theorem child_editException {value edited : Json} (h : editMapping (editException other) value = some edited) :
    edited.child (.key "stacktrace".toList) = (value.child (.key "stacktrace".toList)).bind (editMapping editFrames)
      ∧ ∀ items, value = .object items → isDatabaseException other items = true →
        edited.child (.key "value".toList) = some (.text dbErrorRedacted) := by
  cases value with
  | object items =>
      have hedit : editMapping (editItem "stacktrace".toList (editMapping editFrames)) (.object (replacedValue other items))
          = some edited := h
      refine ⟨?_, ?_⟩
      · rw [child_editMapping hedit, if_pos rfl, child_replacedValue (by decide)]
      · intro kept heq hdatabase
        cases heq
        rw [child_editMapping hedit, if_neg (by decide), replacedValue, if_pos hdatabase]
        show (putItem items "value".toList (.text dbErrorRedacted)).lookup "value".toList = _
        rw [lookup_putItem, if_pos rfl]
  | _ =>
      cases h
      exact ⟨rfl, fun _ heq => nomatch heq⟩

theorem agreeOff_frames {value edited : Json} (h : editMapping editFrames value = some edited) :
    AgreeOff (fun path => ∃ j, .key "frames".toList :: .index j :: [.key "vars".toList] <+: path) value edited := by
  refine (agreeOff_editMapping h fun inner kept _ hframes =>
    agreeOff_editElements hframes fun j frame left _ hframe => agreeOff_dropVars hframe).mono ?_
  rintro path ⟨rest, rfl, j, more, rfl, last, rfl⟩
  exact ⟨j, last, rfl⟩

theorem agreeOff_exception {value edited : Json} (h : editMapping (editException other) value = some edited) :
    AgreeOff (fun path => (∃ items, value = .object items ∧ isDatabaseException other items = true
        ∧ [.key "value".toList] <+: path) ∨ ∃ j, frameVars j <+: path) value edited := by
  cases value with
  | object items =>
      have hedit : editMapping (editItem "stacktrace".toList (editMapping editFrames)) (.object (replacedValue other items))
          = some edited := h
      have htrace := agreeOff_editMapping hedit fun inner kept _ hframes => agreeOff_frames hframes
      have hvalue : AgreeOff (fun path => (∃ kept, Json.object items = .object kept ∧ isDatabaseException other kept = true
          ∧ [.key "value".toList] <+: path) ∨ ∃ j, frameVars j <+: path) (.object items) (.object (replacedValue other items)) := by
        rw [replacedValue]
        split
        · next hdatabase =>
          refine (agreeOff_putItem items _ _).mono ?_
          rintro path ⟨rest, rfl⟩
          exact Or.inl ⟨items, rfl, hdatabase, rest, rfl⟩
        · exact AgreeOff.refl _ _
      refine hvalue.trans (htrace.mono ?_)
      rintro path ⟨rest, rfl, j, more, rfl⟩
      exact Or.inr ⟨j, more, rfl⟩
  | _ =>
      cases h
      exact AgreeOff.refl _ _

/-- The edit of the value at `exception`. -/
def editExceptions (other : Json → Text) : Json → Option Json :=
  editMapping (editItem "values".toList (editElements (editMapping (editException other))))

/-- A run of the hook: the scrubbed event, the edit of its request, the edit of its exceptions. -/
structure Scrubbing (isWord : Char → Bool) (other : Json → Text) (event result : List (Text × Json)) (middle : Json) : Prop where
  request : editMapping (editItem "request".toList (editMapping filterBody)) (scrub isWord none 0 (.object event)) = some middle
  exception : editMapping (editItem "exception".toList (editExceptions other)) middle = some (.object result)

theorem scrub_event (event : List (Text × Json)) : scrub isWord none 0 (.object event) = .object (scrubItems isWord 0 event) :=
  scrub_shown rfl (Nat.zero_le _) _

theorem scrubbing_of_eq {event result : List (Text × Json)} (h : scrubSentryEvent isWord other event = some result) :
    ∃ middle, Scrubbing isWord other event result middle := by
  obtain ⟨middle, hrequest, hexception⟩ := Option.bind_eq_some_iff.1 h
  refine ⟨.object middle, ?_, ?_⟩
  · rw [scrub_event, editMapping, hrequest]
    rfl
  · rw [editMapping, editExceptions, hexception]
    rfl

section Run

variable {event result : List (Text × Json)} {middle : Json}

/-- The request is edited and nothing else. -/
theorem Scrubbing.child_middle (h : Scrubbing isWord other event result middle) {step : Step} (hstep : step ≠ .key "request".toList) :
    middle.child step = (scrub isWord none 0 (.object event)).child step := by
  rw [child_editMapping h.request, if_neg hstep]

theorem Scrubbing.child_result (h : Scrubbing isWord other event result middle) {step : Step}
    (hstep : step ≠ .key "exception".toList) : (Json.object result).child step = middle.child step := by
  rw [child_editMapping h.exception, if_neg hstep]

/-- What is at an exception of what is sent. -/
theorem Scrubbing.exception_of_result (h : Scrubbing isWord other event result middle) {i : Nat} {path : List Step} {left : Json}
    (hleft : (Json.object result).atPath (exceptionValues ++ .index i :: path) = some left) :
    ∃ item edited, (scrub isWord none 0 (.object event)).atPath (exceptionValues ++ [.index i]) = some item
      ∧ editMapping (editException other) item = some edited ∧ edited.atPath path = some left := by
  have hexception := child_editMapping h.exception (.key "exception".toList)
  rw [if_pos rfl] at hexception
  obtain ⟨block, kept, hblock, hkept, hleft⟩ := exists_of_child hexception hleft
  have hvalues := child_editMapping hkept (.key "values".toList)
  rw [if_pos rfl] at hvalues
  obtain ⟨elements, keptElements, helements, hkeptElements, hleft⟩ := exists_of_child hvalues hleft
  obtain ⟨item, edited, hitem, hedited, hleft⟩ := exists_of_child (child_editElements hkeptElements i) hleft
  rw [h.child_middle (by decide)] at hblock
  refine ⟨item, edited, ?_, hedited, hleft⟩
  rw [exceptionValues, List.cons_append, List.cons_append, atPath_cons, hblock, Option.bind_some, atPath_cons, helements,
    Option.bind_some, List.nil_append, atPath_cons, hitem]
  rfl

/-- What is sent for an exception of the scrubbed event. -/
theorem Scrubbing.exists_edited (h : Scrubbing isWord other event result middle) {i : Nat} {item : Json}
    (hitem : (scrub isWord none 0 (.object event)).atPath (exceptionValues ++ [.index i]) = some item) :
    ∃ edited, editMapping (editException other) item = some edited
      ∧ (Json.object result).atPath (exceptionValues ++ [.index i]) = some edited := by
  obtain ⟨block, hblock, hitem⟩ := Option.bind_eq_some_iff.1 hitem
  obtain ⟨elements, helements, hitem⟩ := Option.bind_eq_some_iff.1 hitem
  obtain ⟨last, hlast, hitem⟩ := Option.bind_eq_some_iff.1 hitem
  cases hitem
  rw [← h.child_middle (by decide)] at hblock
  obtain ⟨kept, hkept, hresult⟩ := exists_edited_item h.exception hblock
  obtain ⟨keptElements, hkeptElements, hvalues⟩ := exists_edited_item hkept helements
  obtain ⟨edited, hedited, helement⟩ := exists_edited_element hkeptElements hlast
  refine ⟨edited, hedited, ?_⟩
  rw [exceptionValues, List.cons_append, List.cons_append, atPath_cons, hresult, Option.bind_some, atPath_cons, hvalues,
    Option.bind_some, List.nil_append, atPath_cons, helement]
  rfl

/-- The places that are edited after the scrubbing. -/
def Touched (isWord : Char → Bool) (other : Json → Text) (event : List (Text × Json)) (path : List Step) : Prop :=
  requestBody <+: path
    ∨ (∃ i items, (scrub isWord none 0 (.object event)).atPath (exceptionValues ++ [.index i]) = some (.object items)
      ∧ isDatabaseException other items = true ∧ exceptionValues ++ [.index i, .key "value".toList] <+: path)
    ∨ ∃ i j, exceptionValues ++ .index i :: frameVars j <+: path

theorem Scrubbing.agreeOff (h : Scrubbing isWord other event result middle) :
    AgreeOff (Touched isWord other event) (scrub isWord none 0 (.object event)) (.object result) := by
  have hrequest := agreeOff_editMapping h.request fun inner kept _ hbody => agreeOff_body hbody
  have hexception := agreeOff_editMapping h.exception fun block kept hblock hkept =>
    agreeOff_editMapping hkept fun elements keptElements helements hkeptElements =>
      @agreeOff_editElements _ _ _ (fun i path => (∃ items,
          (scrub isWord none 0 (.object event)).atPath (exceptionValues ++ [.index i]) = some (.object items)
            ∧ isDatabaseException other items = true ∧ [.key "value".toList] <+: path) ∨ ∃ j, frameVars j <+: path)
        hkeptElements fun i item edited hitem hedited => (agreeOff_exception hedited).mono (by
          rintro path (⟨items, rfl, hdatabase, hstart⟩ | hframes)
          · left
            refine ⟨items, ?_, hdatabase, hstart⟩
            rw [h.child_middle (by decide)] at hblock
            rw [exceptionValues, List.cons_append, List.cons_append, atPath_cons, hblock, Option.bind_some, atPath_cons,
              helements, Option.bind_some, List.nil_append, atPath_cons, hitem]
            rfl
          · exact Or.inr hframes)
  refine (hrequest.mono ?_).trans (hexception.mono ?_)
  · rintro path ⟨rest, rfl, more, rfl⟩
    exact Or.inl ⟨more, rfl⟩
  · rintro path ⟨rest, rfl, more, rfl, i, last, rfl, ⟨items, hitem, hdatabase, ending, rfl⟩ | ⟨j, ending, rfl⟩⟩
    · exact Or.inr (Or.inl ⟨i, items, hitem, hdatabase, ending, rfl⟩)
    · exact Or.inr (Or.inr ⟨i, j, ending, rfl⟩)

/-- At a place that is edited stands the text that is put there. -/
theorem Scrubbing.touched (h : Scrubbing isWord other event result middle) {path : List Step} {left : Json}
    (hpath : Touched isWord other event path) (hleft : (Json.object result).atPath path = some left) :
    (path = requestBody ∧ left = .text filtered)
      ∨ ∃ i, path = exceptionValues ++ [.index i, .key "value".toList] ∧ left = .text dbErrorRedacted := by
  have hend {more : List Step} {text : Text} (hmore : (Json.text text).atPath more = some left) : more = [] ∧ left = .text text := by
    cases more with
    | nil =>
        cases hmore
        exact ⟨rfl, rfl⟩
    | cons _ _ => cases hmore
  rcases hpath with ⟨more, rfl⟩ | ⟨i, items, hitem, hdatabase, more, rfl⟩ | ⟨i, j, more, rfl⟩
  · left
    obtain ⟨block, hblock, hleft⟩ := Option.bind_eq_some_iff.1 hleft
    rw [h.child_result (by decide)] at hblock
    have hrequest := child_editMapping h.request (.key "request".toList)
    rw [if_pos rfl, hblock] at hrequest
    obtain ⟨inner, -, hbody⟩ := Option.bind_eq_some_iff.1 hrequest.symm
    obtain ⟨data, hdata, hleft⟩ := Option.bind_eq_some_iff.1 hleft
    rw [child_body hbody hdata] at hleft
    obtain ⟨rfl, hfiltered⟩ := hend hleft
    exact ⟨rfl, hfiltered⟩
  · right
    rw [List.append_assoc] at hleft
    obtain ⟨item, edited, hsame, hedited, hleft⟩ := h.exception_of_result hleft
    rw [hitem] at hsame
    cases hsame
    obtain ⟨value, hvalue, hleft⟩ := Option.bind_eq_some_iff.1 hleft
    rw [(child_editException hedited).2 items rfl hdatabase] at hvalue
    cases hvalue
    obtain ⟨rfl, hredacted⟩ := hend hleft
    exact ⟨i, rfl, hredacted⟩
  · exfalso
    rw [List.append_assoc] at hleft
    obtain ⟨item, edited, -, hedited, hleft⟩ := h.exception_of_result hleft
    obtain ⟨trace, keptTrace, -, htrace, hleft⟩ := exists_of_child (child_editException hedited).1 hleft
    have hframes := child_editMapping htrace (.key "frames".toList)
    rw [if_pos rfl] at hframes
    obtain ⟨frames, keptFrames, -, hkeptFrames, hleft⟩ := exists_of_child hframes hleft
    obtain ⟨frame, keptFrame, -, hkeptFrame, hleft⟩ := exists_of_child (child_editElements hkeptFrames j) hleft
    obtain ⟨vars, hvars, -⟩ := Option.bind_eq_some_iff.1 hleft
    rw [child_dropVars hkeptFrame] at hvars
    cases hvars

/-! ### What is sent -/

/-- A path without a sensitive key. -/
def PlainPath (path : List Step) : Prop := ∀ name, .key name ∈ path → isSensitiveKey (some name) = false

theorem PlainPath.append {path more : List Step} (hpath : PlainPath path) (hmore : PlainPath more) : PlainPath (path ++ more) := by
  intro name hname
  exact (List.mem_append.1 hname).elim (hpath name) (hmore name)

theorem PlainPath.index {path : List Step} (hpath : PlainPath path) (i : Nat) : PlainPath (.index i :: path) := by
  intro name hname
  rcases List.mem_cons.1 hname with hindex | hname
  · cases hindex
  · exact hpath name hname

theorem PlainPath.key {path : List Step} (hpath : PlainPath path) {name : Text} (hname : name ∈ placeNames) :
    PlainPath (.key name :: path) := by
  intro other hother
  rcases List.mem_cons.1 hother with hkey | hother
  · rw [Step.key.inj hkey]
    exact not_sensitive_of_mem hname
  · exact hpath other hother

theorem plainPath_nil : PlainPath [] := fun _ hname => absurd hname List.not_mem_nil

theorem plainPath_requestBody : PlainPath requestBody :=
  (plainPath_nil.key (by simp [placeNames])).key (by simp [placeNames])

theorem plainPath_exceptionValues : PlainPath exceptionValues :=
  (plainPath_nil.key (by simp [placeNames])).key (by simp [placeNames])

theorem plainPath_exception (i : Nat) : PlainPath (exceptionValues ++ [.index i]) :=
  plainPath_exceptionValues.append (plainPath_nil.index i)

theorem plainPath_threadValues : PlainPath threadValues :=
  (plainPath_nil.key (by simp [placeNames])).key (by simp [placeNames])

theorem plainPath_traceFrames : PlainPath traceFrames :=
  (plainPath_nil.key (by simp [placeNames])).key (by simp [placeNames])

theorem plainPath_vars : PlainPath [.key "vars".toList] := plainPath_nil.key (by simp [placeNames])

theorem plainPath_frameVars (j : Nat) : PlainPath (frameVars j) := plainPath_traceFrames.append (plainPath_vars.index j)

/-- What is at a path without a sensitive key, of the depth that is kept. -/
theorem atPath_scrub_event {path : List Step} (hpath : PlainPath path) (hlength : path.length ≤ maxDepth) (value : Json) :
    (scrub isWord none 0 value).atPath path = (value.atPath path).map (scrubShown isWord path.length) := by
  obtain ⟨hreaches, hkey⟩ := @reaches_of_plain none 0 path rfl hpath (by omega)
  rw [atPath_scrub hreaches, Nat.zero_add]
  congr 1
  funext inner
  exact scrub_shown hkey hlength inner

theorem forall_atPath_cons {value : Json} {step : Step} {path : List Step} {P : Json → Prop} :
    (∀ left, value.atPath (step :: path) = some left → P left)
      ↔ ∀ inner, value.child step = some inner → ∀ left, inner.atPath path = some left → P left := by
  constructor
  · intro h inner hinner left hleft
    exact h left (by rw [atPath_cons, hinner]; exact hleft)
  · intro h left hleft
    obtain ⟨inner, hinner, hleft⟩ := Option.bind_eq_some_iff.1 hleft
    exact h inner hinner left hleft

theorem isSome_frames_iff {trace : Json} :
    (editMapping editFrames trace).isSome
      ↔ ∀ frames, trace.atPath [.key "frames".toList] = some frames → iterable frames = true := by
  rw [forall_atPath_cons]
  refine isSome_editMapping_iff.trans (forall₂_congr fun frames _ => ?_)
  rw [isSome_editElements_iff]
  constructor
  · rintro ⟨hiterable, -⟩ left hleft
    cases hleft
    exact hiterable
  · intro h
    exact ⟨h frames rfl, fun _ inner _ => isSome_dropVars inner⟩

theorem isSome_exception_iff {item : Json} :
    (editMapping (editException other) item).isSome
      ↔ ∀ frames, item.atPath traceFrames = some frames → iterable frames = true := by
  rw [traceFrames, forall_atPath_cons]
  cases item with
  | object items =>
      rw [editMapping, editException_eq, isSome_editMapping_iff, child_replacedValue (by decide)]
      exact forall₂_congr fun trace _ => isSome_frames_iff
  | _ => exact iff_of_true rfl fun _ h => nomatch h

theorem isSome_exceptions_iff {block : Json} :
    (editExceptions other block).isSome
      ↔ (∀ elements, block.atPath [.key "values".toList] = some elements → iterable elements = true)
        ∧ ∀ i frames, block.atPath (.key "values".toList :: .index i :: traceFrames) = some frames → iterable frames = true := by
  rw [editExceptions, isSome_editMapping_iff, forall_atPath_cons]
  constructor
  · intro h
    refine ⟨?_, ?_⟩
    · intro elements helements left hleft
      cases hleft
      exact (isSome_editElements_iff.1 (h elements helements)).1
    · intro i
      rw [forall_atPath_cons]
      intro elements helements
      rw [forall_atPath_cons]
      intro item hitem
      exact isSome_exception_iff.1 ((isSome_editElements_iff.1 (h elements helements)).2 i item hitem)
  · rintro ⟨hvalues, hframes⟩ elements helements
    refine isSome_editElements_iff.2 ⟨hvalues elements helements elements rfl, ?_⟩
    intro i item hitem
    exact isSome_exception_iff.2 (forall_atPath_cons.1 (forall_atPath_cons.1 (hframes i) elements helements) item hitem)

theorem forall_iterable_iff {path : List Step} (hpath : PlainPath path) (hlength : path.length ≤ maxDepth) :
    (∀ left, (scrub isWord none 0 (.object event)).atPath path = some left → iterable left = true)
      ↔ ∀ left, (Json.object event).atPath path = some left → iterable left = true := by
  rw [atPath_scrub_event hpath hlength]
  constructor
  · intro h left hleft
    have hshown := h (scrubShown isWord path.length left) (by rw [hleft]; rfl)
    rwa [iterable_scrubShown] at hshown
  · intro h left hleft
    obtain ⟨inner, hinner, rfl⟩ := Option.map_eq_some_iff.1 hleft
    rw [iterable_scrubShown]
    exact h inner hinner

/-- Where the hook does not raise. -/
theorem isSome_scrubSentryEvent_iff :
    (scrubSentryEvent isWord other event).isSome
      ↔ (∀ value, (Json.object event).atPath exceptionValues = some value → iterable value = true)
        ∧ ∀ i value, (Json.object event).atPath (exceptionValues ++ .index i :: traceFrames) = some value →
          iterable value = true := by
  obtain ⟨middle, hmiddle⟩ := Option.isSome_iff_exists.1
    (@isSome_editItem_iff "request".toList (editMapping filterBody) (scrubItems isWord 0 event) |>.2 fun value _ => isSome_body value)
  have hlookup := lookup_editItem hmiddle "exception".toList
  rw [if_neg (by decide)] at hlookup
  have hsome : (scrubSentryEvent isWord other event).isSome
      ↔ ∀ block, (scrub isWord none 0 (.object event)).child (.key "exception".toList) = some block →
        (editExceptions other block).isSome := by
    rw [scrubSentryEvent, Option.bind_eq_bind, hmiddle, Option.bind_some, scrub_event]
    show (editItem "exception".toList (editExceptions other) middle).isSome ↔ _
    rw [isSome_editItem_iff, hlookup]
    rfl
  have hframes (i : Nat) : PlainPath (exceptionValues ++ .index i :: traceFrames) :=
    plainPath_exceptionValues.append (plainPath_traceFrames.index i)
  rw [hsome, ← @forall_iterable_iff isWord event _ plainPath_exceptionValues (by decide), forall_congr fun i =>
    propext (@forall_iterable_iff isWord event _ (hframes i) (by decide : 5 ≤ maxDepth)).symm]
  constructor
  · intro h
    refine ⟨?_, ?_⟩
    · exact forall_atPath_cons.2 fun block hblock => (isSome_exceptions_iff.1 (h block hblock)).1
    · exact fun i => forall_atPath_cons.2 fun block hblock => (isSome_exceptions_iff.1 (h block hblock)).2 i
  · rintro ⟨hvalues, hframes⟩ block hblock
    refine isSome_exceptions_iff.2 ⟨forall_atPath_cons.1 hvalues block hblock, ?_⟩
    exact fun i => forall_atPath_cons.1 (hframes i) block hblock

/-- What is at a path of the scrubbed event that is not edited. -/
theorem Scrubbing.atPath_eq_none_iff (h : Scrubbing isWord other event result middle) {path : List Step}
    (htouched : ¬ Touched isWord other event path) (hpath : PlainPath path) (hlength : path.length ≤ maxDepth) :
    (Json.object result).atPath path = none ↔ (Json.object event).atPath path = none := by
  have hsame := h.agreeOff path htouched
  rw [atPath_scrub_event hpath hlength] at hsame
  cases hevent : (Json.object event).atPath path with
  | none =>
      rw [hevent] at hsame
      cases hresult : (Json.object result).atPath path with
      | none => exact iff_of_true rfl rfl
      | some left =>
          rw [hresult] at hsame
          cases hsame
  | some value =>
      rw [hevent] at hsame
      cases hresult : (Json.object result).atPath path with
      | none =>
          rw [hresult] at hsame
          cases hsame
      | some left => exact iff_of_false (fun h => nomatch h) fun h => nomatch h

theorem not_touched_of_head {step : Step} {path : List Step} (hrequest : step ≠ .key "request".toList)
    (hexception : step ≠ .key "exception".toList) : ¬ Touched isWord other event (step :: path) := by
  rintro (hstart | ⟨i, items, -, -, hstart⟩ | ⟨i, j, hstart⟩)
  · exact hrequest (List.cons_prefix_cons.1 hstart).1.symm
  · exact hexception (List.cons_prefix_cons.1 hstart).1.symm
  · exact hexception (List.cons_prefix_cons.1 hstart).1.symm

theorem Scrubbing.threadVars_iff (h : Scrubbing isWord other event result middle) (i j : Nat) :
    (Json.object result).atPath (threadValues ++ .index i :: frameVars j) = none
      ↔ (Json.object event).atPath (threadValues ++ .index i :: frameVars j) = none :=
  h.atPath_eq_none_iff (not_touched_of_head (by decide) (by decide))
    (plainPath_threadValues.append ((plainPath_frameVars j).index i)) (by decide : 7 ≤ maxDepth)

theorem Scrubbing.eventVars_iff (h : Scrubbing isWord other event result middle) (j : Nat) :
    (Json.object result).atPath (frameVars j) = none ↔ (Json.object event).atPath (frameVars j) = none :=
  h.atPath_eq_none_iff (not_touched_of_head (by decide) (by decide)) (plainPath_frameVars j) (by decide : 4 ≤ maxDepth)

/-- The exceptions of the scrubbed event are those of the event, and as many of them are database errors. -/
theorem exception_of_scrubbed (hother : SpelledAsPython other) {i : Nat} {items : List (Text × Json)}
    (hitem : (scrub isWord none 0 (.object event)).atPath (exceptionValues ++ [.index i]) = some (.object items)) :
    ∃ kept, (Json.object event).atPath (exceptionValues ++ [.index i]) = some (.object kept)
      ∧ isDatabaseException other kept = isDatabaseException other items := by
  rw [atPath_scrub_event (plainPath_exception i) (by decide : 3 ≤ maxDepth)] at hitem
  obtain ⟨value, hvalue, hshown⟩ := Option.map_eq_some_iff.1 hitem
  cases value with
  | object kept =>
      cases hshown
      exact ⟨kept, hvalue, (isDatabaseException_scrubItems hother (by decide : 3 < maxDepth) kept).symm⟩
  | array _ => cases hshown
  | text _ => cases hshown
  | _ => cases hshown

theorem not_touched_of_not_replaced (hother : SpelledAsPython other) {path : List Step} (hplace : ¬ Replaced other event path) :
    ¬ Touched isWord other event path := by
  rintro (hstart | ⟨i, items, hitem, hdatabase, hstart⟩ | ⟨i, j, hstart⟩)
  · exact hplace (.body hstart)
  · obtain ⟨kept, hkept, hsame⟩ := exception_of_scrubbed hother hitem
    exact hplace (.databaseError i kept hkept (hsame.trans hdatabase) hstart)
  · exact hplace (.vars i j hstart)

/-- What is sent for an event whose other stack traces have no local variables. -/
theorem Scrubbing.unexposed (h : Scrubbing isWord other event result middle) (hother : SpelledAsPython other)
    (hvars : NoOtherVars event) : Unexposed other event result where
  sensitive path key value hkey hvalue := by
    by_cases htouched : Touched isWord other event (path ++ [.key key])
    · rcases h.touched htouched hvalue with ⟨hbody, hfiltered⟩ | ⟨i, hitem, -⟩
      · exact hfiltered
      · have hlast := congrArg List.getLast? hitem
        rw [List.getLast?_concat] at hlast
        have hname : key = "value".toList := Step.key.inj (Option.some.inj hlast)
        rw [hname] at hkey
        exact absurd hkey (Bool.eq_false_iff.1 (not_sensitive_of_mem (by simp [placeNames])))
    · have hsame := h.agreeOff _ htouched
      rw [hvalue] at hsame
      cases hscrubbed : (scrub isWord none 0 (.object event)).atPath (path ++ [.key key]) with
      | none =>
          rw [hscrubbed] at hsame
          cases hsame
      | some left =>
          obtain ⟨inner, rfl⟩ := exists_scrub_of_atPath hscrubbed
          rw [hscrubbed, keyAfter_append, stepKey, scrub_hidden (Or.inl hkey)] at hsame
          exact hsame.symm
  body value hvalue := by
    have hscrubbed := @atPath_scrub_event isWord _ plainPath_requestBody (by decide) (.object event)
    rw [hvalue] at hscrubbed
    obtain ⟨block, hblock, hinner⟩ := Option.bind_eq_some_iff.1 hscrubbed
    obtain ⟨inner, hdata, -⟩ := Option.bind_eq_some_iff.1 hinner
    obtain ⟨kept, hkept, hmiddle⟩ := exists_edited_item h.request hblock
    rw [← h.child_result (by decide)] at hmiddle
    rw [requestBody, atPath_cons, hmiddle, Option.bind_some, atPath_cons, exists_edited_body hkept hdata]
    rfl
  databaseErrors i items hitem hdatabase := by
    have hscrubbed := @atPath_scrub_event isWord _ (plainPath_exception i) (by decide : 3 ≤ maxDepth) (.object event)
    rw [hitem] at hscrubbed
    obtain ⟨edited, hedited, hresult⟩ := h.exists_edited hscrubbed
    have hvalue := (child_editException hedited).2 _ rfl
      ((isDatabaseException_scrubItems hother (by decide : 3 < maxDepth) items).trans hdatabase)
    show (Json.object result).atPath ((exceptionValues ++ [.index i]) ++ [.key "value".toList]) = _
    rw [atPath_append, hresult, Option.bind_some, atPath_cons, hvalue]
    rfl
  depth path value hvalue hcontainer := by
    by_cases htouched : Touched isWord other event path
    · rcases h.touched htouched hvalue with ⟨-, rfl⟩ | ⟨i, -, rfl⟩
      · cases hcontainer
      · cases hcontainer
    · have hsame := h.agreeOff _ htouched
      rw [hvalue] at hsame
      cases hscrubbed : (scrub isWord none 0 (.object event)).atPath path with
      | none =>
          rw [hscrubbed] at hsame
          cases hsame
      | some left =>
          obtain ⟨inner, rfl⟩ := exists_scrub_of_atPath hscrubbed
          apply Nat.le_of_not_lt
          intro hdeep
          rw [hscrubbed, Nat.zero_add, scrub_hidden (Or.inr hdeep)] at hsame
          cases hsame
          cases hcontainer
  exceptionVars i j := by
    cases hresult : (Json.object result).atPath (exceptionValues ++ .index i :: frameVars j) with
    | none => rfl
    | some left =>
        exfalso
        rcases h.touched (Or.inr (Or.inr ⟨i, j, List.prefix_refl _⟩)) hresult with ⟨hbody, -⟩ | ⟨k, hvalue, -⟩
        · exact absurd (congrArg List.length hbody) (by decide : ¬ (7 : Nat) = 2)
        · exact absurd (congrArg List.length hvalue) (by decide : ¬ (7 : Nat) = 4)
  threadVars i j := (h.threadVars_iff i j).2 (hvars.threadVars i j)
  eventVars j := (h.eventVars_iff j).2 (hvars.eventVars j)
  unchanged path value hscalar hvalue hplace := by
    have hpath : PlainPath path := fun name hname => Bool.eq_false_iff.2 fun hkey => hplace (.sensitive name hkey hname)
    have hlength : path.length ≤ maxDepth := Nat.le_of_not_lt fun hdeep => hplace (.deep hdeep)
    have hsame := h.agreeOff path (not_touched_of_not_replaced hother hplace)
    rw [atPath_scrub_event hpath hlength, hvalue, Option.map_some, scrubShown_scalar hscalar] at hsame
    cases hresult : (Json.object result).atPath path with
    | none =>
        rw [hresult] at hsame
        cases hsame
    | some left =>
        rw [hresult] at hsame
        cases value with
        | object _ => cases hscalar
        | array _ => cases hscalar
        | text _ => cases hscalar
        | _ => exact congrArg some (Eq.symm hsame)

end Run

end Scrubbed

/-- The hook sends an event without sensitive values if and only if no stack trace but those of the exceptions has local
variables, and what should be a list can be iterated. -/
theorem event_unexposed_iff (isWord : Char → Bool) {other : Json → Text} (hother : SpelledAsPython other)
    (event : List (Text × Json)) :
    (∃ result, scrubSentryEvent isWord other event = some result ∧ Unexposed other event result) ↔ NoOtherVars event := by
  constructor
  · rintro ⟨result, hresult, hunexposed⟩
    obtain ⟨hvalues, hframes⟩ := isSome_scrubSentryEvent_iff.1 (Option.isSome_iff_exists.2 ⟨result, hresult⟩)
    obtain ⟨middle, hscrubbing⟩ := scrubbing_of_eq hresult
    exact ⟨hvalues, hframes, fun i j => (hscrubbing.threadVars_iff i j).1 (hunexposed.threadVars i j),
      fun j => (hscrubbing.eventVars_iff j).1 (hunexposed.eventVars j)⟩
  · intro hvars
    obtain ⟨result, hresult⟩ := Option.isSome_iff_exists.1
      (@isSome_scrubSentryEvent_iff isWord other event |>.2 ⟨hvars.values, hvars.frames⟩)
    obtain ⟨middle, hscrubbing⟩ := scrubbing_of_eq hresult
    exact ⟨result, hresult, hscrubbing.unexposed hother hvars⟩

/-- A database error without a stack trace. -/
theorem event_unexposed_iff_error :
    ∃ result, scrubSentryEvent (fun c => c.isAlphanum || c = '_') (fun _ => "1".toList)
        [("exception".toList, .object [("values".toList, .array [.object [("type".toList, .text "DataError".toList),
          ("value".toList, .text "Jane".toList)]])])] = some result
      ∧ Unexposed (fun _ => "1".toList)
        [("exception".toList, .object [("values".toList, .array [.object [("type".toList, .text "DataError".toList),
          ("value".toList, .text "Jane".toList)]])])] result := by
  refine (event_unexposed_iff (fun c => c.isAlphanum || c = '_') (fun _ _ _ => ⟨'1', [], rfl, by decide⟩) _).2
    ⟨?_, ?_, fun _ _ => rfl, fun _ => rfl⟩
  · intro value hvalue
    cases hvalue
    rfl
  · intro i value hvalue
    cases i with
    | zero => cases hvalue
    | succ i => cases hvalue

/-- An event with the stack trace of a thread. -/
def threadEvent : List (Text × Json) :=
  [("threads".toList, .object [("values".toList, .array [.object [("stacktrace".toList, .object [("frames".toList,
    .array [.object [("vars".toList, .object [("row".toList, .text "Jane".toList)])]])])]])])]

/-- The stack trace of a thread is sent with its local variables. -/
theorem thread_vars_sent :
    (scrubSentryEvent (fun c => c.isAlphanum || c = '_') (fun _ => "1".toList) threadEvent).isSome
      ∧ ¬ ∃ result, scrubSentryEvent (fun c => c.isAlphanum || c = '_') (fun _ => "1".toList) threadEvent = some result
        ∧ Unexposed (fun _ => "1".toList) threadEvent result := by
  constructor
  · refine isSome_scrubSentryEvent_iff.2 ⟨?_, ?_⟩
    · intro value hvalue
      cases hvalue
    · intro i value hvalue
      cases hvalue
  · rintro ⟨result, hresult, hunexposed⟩
    obtain ⟨middle, hscrubbing⟩ := scrubbing_of_eq hresult
    have hvars := (hscrubbing.threadVars_iff 0 0).1 (hunexposed.threadVars 0 0)
    cases hvars

end PrivacyHardening

end SortView
