import SortView.Lib.Case
import SortView.Lib.Slices

/-!
# Facts about upper and lower case

Each fact about single code points is checked on the entries of the case tables; every other code point
is its own image. On texts: upper case is idempotent, keeps the ends free of white space, and a word of
ASCII letters in the lower case of a text is in its upper case.
-/

namespace PyText

/-! ### The entries of a case table -/

/-- The code points of one run, with their images. -/
def runEntries (run : Nat × Nat × Nat × Int) : List (Nat × List Nat) :=
  (List.range (run.2.1 - run.1 + 1)).filterMap fun offset =>
    if offset % run.2.2.1 = 0 then some (run.1 + offset, [(((run.1 + offset : Nat) : Int) + run.2.2.2).toNat]) else none

/-- Every code point of a table, with its image. -/
def tableEntries (runs : List (Nat × Nat × Nat × Int)) (specials : List (Nat × List Nat)) : List (Nat × List Nat) :=
  specials ++ runs.flatMap runEntries

theorem mem_runEntries_of_runShift {runs : List (Nat × Nat × Nat × Int)} {n : Nat} {shift : Int}
    (h : runShift runs n = some shift) : (n, [((n : Int) + shift).toNat]) ∈ runs.flatMap runEntries := by
  induction runs with
  | nil => cases h
  | cons run runs ih =>
      obtain ⟨first, last, step, other⟩ := run
      rw [runShift] at h
      rw [List.flatMap_cons, List.mem_append]
      by_cases hrun : first ≤ n ∧ n ≤ last ∧ (n - first) % step = 0
      · rw [if_pos hrun] at h
        obtain rfl := Option.some.inj h
        left
        apply List.mem_filterMap.2
        refine ⟨n - first, List.mem_range.2 (show n - first < last - first + 1 by omega), ?_⟩
        rw [if_pos hrun.2.2, Nat.add_sub_cancel' hrun.1]
      · rw [if_neg hrun] at h
        exact Or.inr (ih h)

theorem mem_of_lookup {specials : List (Nat × List Nat)} {n : Nat} {image : List Nat}
    (h : specials.lookup n = some image) : (n, image) ∈ specials := by
  induction specials with
  | nil => cases h
  | cons entry specials ih =>
      obtain ⟨key, other⟩ := entry
      rw [List.lookup_cons] at h
      cases hkey : n == key with
      | true =>
          rw [hkey] at h
          rw [eq_of_beq hkey, Option.some.inj h]
          exact List.mem_cons_self ..
      | false =>
          rw [hkey] at h
          exact List.mem_cons_of_mem _ (ih h)

/-- A code point is its own image or is in the table. -/
theorem caseMap_cases (runs : List (Nat × Nat × Nat × Int)) (specials : List (Nat × List Nat)) (n : Nat) :
    caseMap runs specials n = [n] ∨ (n, caseMap runs specials n) ∈ tableEntries runs specials := by
  rw [caseMap]
  cases hspecial : specials.lookup n with
  | some image => exact Or.inr (List.mem_append_left _ (mem_of_lookup hspecial))
  | none =>
      cases hrun : runShift runs n with
      | some shift => exact Or.inr (List.mem_append_right _ (mem_runEntries_of_runShift hrun))
      | none => exact Or.inl rfl

/-! ### Runs of code points -/

/-- A run: first, last and step. -/
abbrev Run := Nat × Nat × Nat

def InRun (run : Run) (n : Nat) : Prop := run.1 ≤ n ∧ n ≤ run.2.1 ∧ (n - run.1) % run.2.2 = 0

/-- Every second code point, or one code point. -/
def oneParity (run : Run) : Bool := Nat.beq run.2.2 2 || Nat.beq run.1 run.2.1

/-- Two runs with no common code point: one lies below the other, or they have different parities. -/
def runsApart (left right : Run) : Bool :=
  Nat.blt left.2.1 right.1 || Nat.blt right.2.1 left.1
    || (oneParity left && oneParity right && !Nat.beq (left.1 % 2) (right.1 % 2))

theorem mod_two_of_inRun {run : Run} {n : Nat} (hone : oneParity run = true) (hn : InRun run n) : n % 2 = run.1 % 2 := by
  obtain ⟨hlow, hhigh, hstep⟩ := hn
  rw [oneParity, Bool.or_eq_true] at hone
  rcases hone with hone | hone
  · rw [Nat.eq_of_beq_eq_true hone] at hstep
    omega
  · have heq := Nat.eq_of_beq_eq_true hone
    rw [show n = run.1 by omega]

theorem not_inRun_of_runsApart {left right : Run} {n : Nat} (hapart : runsApart left right = true) (hleft : InRun left n) :
    ¬ InRun right n := by
  intro hright
  simp only [runsApart, Bool.or_eq_true, Bool.and_eq_true, Nat.blt_eq, Bool.not_eq_true'] at hapart
  have hleft₁ := hleft.1
  have hleft₂ := hleft.2.1
  have hright₁ := hright.1
  have hright₂ := hright.2.1
  rcases hapart with (hlt | hlt) | ⟨⟨hone, hother⟩, hparity⟩
  · omega
  · omega
  · have hsame := (mod_two_of_inRun hone hleft).symm.trans (mod_two_of_inRun hother hright)
    exact absurd hsame (Nat.ne_of_beq_eq_false hparity)

/-- Runs, and the numbers that they lie between. -/
def blockOf (runs : List Run) : Nat × Nat × List Run :=
  (runs.foldl (fun low run => min low run.1) 0x110000, runs.foldl (fun high run => max high run.2.1) 0, runs)

def blocksOf (runs : List Run) : List (Nat × Nat × List Run) := (Slices.slices runs 20).map blockOf

/-- A run is compared with the runs of a block only where it reaches into the block. -/
def blockApart (image : Run) (block : Nat × Nat × List Run) : Bool :=
  Nat.blt image.2.1 block.1 || Nat.blt block.2.1 image.1 || block.2.2.all (runsApart image)

theorem runsApart_of_blocks {runs : List Run} {image : Run}
    (hbounds : ((blocksOf runs).all fun block => block.2.2.all fun run => Nat.ble block.1 run.1 && Nat.ble run.2.1 block.2.1) = true)
    (hapart : (blocksOf runs).all (blockApart image) = true) : ∀ run ∈ runs, runsApart image run = true := by
  intro run hrun
  rw [← Slices.flatten_slices runs (by decide : 1 ≤ 20)] at hrun
  obtain ⟨block, hblock, hmem⟩ := List.mem_flatten.1 hrun
  have hinside := List.all_eq_true.1 (List.all_eq_true.1 hbounds _ (List.mem_map_of_mem hblock)) run hmem
  have hone := List.all_eq_true.1 hapart _ (List.mem_map_of_mem hblock)
  simp only [blockApart, Bool.or_eq_true, Nat.blt_eq, Bool.and_eq_true, Nat.ble_eq] at hone hinside
  rcases hone with (hbelow | habove) | hall
  · simp only [runsApart, Bool.or_eq_true, Nat.blt_eq]
    exact Or.inl (Or.inl (hbelow.trans_le hinside.1))
  · simp only [runsApart, Bool.or_eq_true, Nat.blt_eq]
    exact Or.inl (Or.inr (hinside.2.trans_lt habove))
  · exact List.all_eq_true.1 hall run hmem

/-- The code points a table changes. -/
def sourceRuns (runs : List (Nat × Nat × Nat × Int)) (specials : List (Nat × List Nat)) : List Run :=
  (runs.map fun run => (run.1, run.2.1, run.2.2.1)) ++ specials.map fun special => (special.1, special.1, 1)

/-- The images of one run of a table. -/
def imageRun (run : Nat × Nat × Nat × Int) : Run :=
  (((run.1 : Int) + run.2.2.2).toNat, ((run.2.1 : Int) + run.2.2.2).toNat, run.2.2.1)

theorem runShift_eq_none {runs : List (Nat × Nat × Nat × Int)} {n : Nat}
    (h : ∀ run ∈ runs, ¬ InRun (run.1, run.2.1, run.2.2.1) n) : runShift runs n = none := by
  induction runs with
  | nil => rfl
  | cons run runs ih =>
      obtain ⟨first, last, step, shift⟩ := run
      have hfirst : ¬ (first ≤ n ∧ n ≤ last ∧ (n - first) % step = 0) := h _ (List.mem_cons_self ..)
      rw [runShift, if_neg hfirst]
      exact ih fun other hother => h other (List.mem_cons_of_mem _ hother)

theorem lookup_eq_none {specials : List (Nat × List Nat)} {n : Nat} (h : ∀ special ∈ specials, special.1 ≠ n) :
    specials.lookup n = none := by
  rw [List.lookup_eq_none_iff]
  intro special hspecial
  rw [bne_iff_ne]
  exact fun heq => h special hspecial heq.symm

/-- A code point outside the table is its own image. -/
theorem caseMap_of_not_inRun {runs : List (Nat × Nat × Nat × Int)} {specials : List (Nat × List Nat)} {n : Nat}
    (h : ∀ run ∈ sourceRuns runs specials, ¬ InRun run n) : caseMap runs specials n = [n] := by
  have hspecial : specials.lookup n = none := by
    apply lookup_eq_none
    intro special hspecial heq
    apply h (special.1, special.1, 1) (List.mem_append_right _ (List.mem_map_of_mem hspecial))
    rw [heq]
    exact ⟨Nat.le_refl _, Nat.le_refl _, Nat.mod_one _⟩
  have hrun : runShift runs n = none :=
    runShift_eq_none fun run hrun => h _ (List.mem_append_left _ (List.mem_map_of_mem hrun))
  rw [caseMap, hspecial, hrun]

/-- A run that is in order and whose images are not negative. -/
def soundRun (run : Nat × Nat × Nat × Int) : Bool := decide (run.1 ≤ run.2.1 ∧ 0 ≤ (run.1 : Int) + run.2.2.2)

theorem inRun_imageRun {run : Nat × Nat × Nat × Int} (hsound : soundRun run = true) {n : Nat} {image : List Nat}
    (hentry : (n, image) ∈ runEntries run) : ∃ m, image = [m] ∧ InRun (imageRun run) m ∧ (m : Int) = n + run.2.2.2
      ∧ InRun (run.1, run.2.1, run.2.2.1) n := by
  obtain ⟨first, last, step, shift⟩ := run
  rw [soundRun, decide_eq_true_eq] at hsound
  dsimp only at hsound
  obtain ⟨offset, hoffset, heq⟩ := List.mem_filterMap.1 hentry
  have hlt := List.mem_range.1 hoffset
  dsimp only at hlt heq
  by_cases hstep : offset % step = 0
  · rw [if_pos hstep, Option.some.injEq, Prod.mk.injEq] at heq
    obtain ⟨rfl, rfl⟩ := heq
    refine ⟨_, rfl, ⟨?_, ?_, ?_⟩, ?_, ⟨?_, ?_, ?_⟩⟩
    · show ((first : Int) + shift).toNat ≤ _
      omega
    · show _ ≤ ((last : Int) + shift).toNat
      omega
    · have hdiff : (((first + offset : Nat) : Int) + shift).toNat - ((first : Int) + shift).toNat = offset := by omega
      show ((((first + offset : Nat) : Int) + shift).toNat - ((first : Int) + shift).toNat) % step = 0
      rw [hdiff, hstep]
    · show (((((first + offset : Nat) : Int) + shift).toNat : Nat) : Int) = ((first + offset : Nat) : Int) + shift
      omega
    · exact Nat.le_add_right _ _
    · show first + offset ≤ last
      omega
    · show (first + offset - first) % step = 0
      rw [Nat.add_sub_cancel_left, hstep]
  · rw [if_neg hstep] at heq
    cases heq

/-! ### Upper case of one code point -/

/-- The code points `isSpace` holds for. -/
def spaceRuns : List Run :=
  [(9, 13, 1), (28, 32, 1), (133, 133, 1), (160, 160, 1), (5760, 5760, 1), (8192, 8202, 1), (8232, 8233, 1),
    (8239, 8239, 1), (8287, 8287, 1), (12288, 12288, 1)]

/-- Numbers below `0x110000` that are no code point. -/
def surrogateRun : Run := (0xd800, 0xdfff, 1)

/-- Runs that hold every image in `upperSpecials`. -/
def specialImageRuns : List Run :=
  [(65, 89, 1), (700, 702, 1), (768, 769, 1), (776, 780, 1), (787, 787, 1), (817, 817, 1), (834, 834, 1),
    (902, 902, 1), (905, 905, 1), (911, 911, 1), (913, 937, 1), (1333, 1362, 1), (7944, 7951, 1), (7976, 7983, 1),
    (8040, 8047, 1), (8122, 8122, 1), (8138, 8138, 1), (8186, 8186, 1)]

def upperImageRuns : List Run := upperRuns.map imageRun ++ specialImageRuns

/-- What no upper case letter may be: a code point that changes again, white space, or no code point. -/
def upperForbiddenRuns : List Run := sourceRuns upperRuns upperSpecials ++ spaceRuns ++ [surrogateRun]

/-- What the upper case tables hold, read off them in one pass: their images are apart from what no upper
case letter may be, below the surrogates' end, and start where ASCII has its small letters. -/
theorem upperTables :
    ((blocksOf upperForbiddenRuns).all fun block => block.2.2.all fun run => Nat.ble block.1 run.1 && Nat.ble run.2.1 block.2.1) = true
      ∧ (upperImageRuns.all fun image => (blocksOf upperForbiddenRuns).all (blockApart image)) = true
      ∧ (upperImageRuns.all fun image => Nat.blt image.2.1 0x110000) = true
      ∧ upperRuns.all soundRun = true
      ∧ (upperSpecials.all fun special => !special.2.isEmpty && special.2.all fun m =>
        specialImageRuns.any fun run => Nat.ble run.1 m && Nat.ble m run.2.1 && Nat.beq run.2.2 1) = true
      ∧ ((sourceRuns upperRuns upperSpecials).all fun run => Nat.ble 97 run.1) = true
      ∧ (upperSpecials.all fun special => Nat.ble 123 special.1) = true := by
  decide +kernel

theorem upperImageRuns_apart {image forbidden : Run} (himage : image ∈ upperImageRuns) (hforbidden : forbidden ∈ upperForbiddenRuns) :
    runsApart image forbidden = true :=
  runsApart_of_blocks upperTables.1 (List.all_eq_true.1 upperTables.2.1 image himage) forbidden hforbidden

theorem upperImageRuns_bounded : (upperImageRuns.all fun image => Nat.blt image.2.1 0x110000) = true := upperTables.2.2.1

theorem upperRuns_sound : upperRuns.all soundRun = true := upperTables.2.2.2.1

theorem upperSpecials_images :
    (upperSpecials.all fun special => !special.2.isEmpty && special.2.all fun m =>
      specialImageRuns.any fun run => Nat.ble run.1 m && Nat.ble m run.2.1 && Nat.beq run.2.2 1) = true :=
  upperTables.2.2.2.2.1

theorem upperRuns_from_97 : ((sourceRuns upperRuns upperSpecials).all fun run => Nat.ble 97 run.1) = true :=
  upperTables.2.2.2.2.2.1

theorem upperSpecials_from_123 : (upperSpecials.all fun special => Nat.ble 123 special.1) = true := upperTables.2.2.2.2.2.2

/-- White space has no upper case. -/
theorem spaceRuns_apart :
    (spaceRuns.all fun space => (sourceRuns upperRuns upperSpecials).all fun source => runsApart space source) = true := by
  decide +kernel

/-- The image of a code point that the upper case changes lies in the image runs. -/
theorem mem_upperImageRuns {n : Nat} {image : List Nat} (hentry : (n, image) ∈ tableEntries upperRuns upperSpecials) :
    image ≠ [] ∧ ∀ m ∈ image, ∃ run ∈ upperImageRuns, InRun run m := by
  rcases List.mem_append.1 hentry with hspecial | hrun
  · have hchecked := List.all_eq_true.1 upperSpecials_images _ hspecial
    rw [Bool.and_eq_true] at hchecked
    refine ⟨?_, ?_⟩
    · intro hnil
      simp [hnil] at hchecked
    · intro m hm
      obtain ⟨run, hmem, hinside⟩ := List.any_eq_true.1 (List.all_eq_true.1 hchecked.2 m hm)
      simp only [Bool.and_eq_true] at hinside
      refine ⟨run, List.mem_append_right _ hmem, Nat.le_of_ble_eq_true hinside.1.1, Nat.le_of_ble_eq_true hinside.1.2, ?_⟩
      rw [Nat.eq_of_beq_eq_true hinside.2, Nat.mod_one]
  · obtain ⟨run, hmem, hentry⟩ := List.mem_flatMap.1 hrun
    obtain ⟨m, rfl, hinside, -⟩ := inRun_imageRun (List.all_eq_true.1 upperRuns_sound run hmem) hentry
    refine ⟨List.cons_ne_nil _ _, ?_⟩
    intro other hother
    rw [List.mem_singleton.1 hother]
    exact ⟨_, List.mem_append_left _ (List.mem_map_of_mem hmem), hinside⟩

theorem not_forbidden_of_inRun {run : Run} (hrun : run ∈ upperImageRuns) {m : Nat} (hm : InRun run m) :
    ∀ forbidden ∈ upperForbiddenRuns, ¬ InRun forbidden m := by
  intro forbidden hforbidden
  exact not_inRun_of_runsApart (upperImageRuns_apart hrun hforbidden) hm

theorem toNat_ofNat_of_inRun {run : Run} (hrun : run ∈ upperImageRuns) {m : Nat} (hm : InRun run m) :
    (Char.ofNat m).toNat = m := by
  have hbound := List.all_eq_true.1 upperImageRuns_bounded run hrun
  rw [Nat.blt_eq] at hbound
  have hle := hm.2.1
  have hsurrogate : ¬ InRun surrogateRun m :=
    not_forbidden_of_inRun hrun hm surrogateRun (List.mem_append_right _ (List.mem_singleton.2 rfl))
  have hvalid : m.isValidChar := by
    by_cases hlow : m < 0xd800
    · exact Or.inl hlow
    · refine Or.inr ⟨?_, by omega⟩
      by_contra hhigh
      exact hsurrogate ⟨by show 0xd800 ≤ m; omega, by show m ≤ 0xdfff; omega, Nat.mod_one _⟩
  exact toNat_ofNat hvalid

theorem isSpace_iff_inRun (c : Char) : isSpace c = true ↔ ∃ run ∈ spaceRuns, InRun run c.toNat := by
  simp only [isSpace, spaceRuns, InRun, List.mem_cons, List.not_mem_nil, or_false, exists_eq_or_imp, exists_eq_left,
    Nat.mod_one, and_true, Bool.or_eq_true, Bool.and_eq_true, decide_eq_true_eq, beq_iff_eq]
  omega

/-- Every letter of an upper case image is its own upper case and is no white space. -/
theorem upperChar_spec (c : Char) :
    upperChar c = [c] ∨ upperChar c ≠ [] ∧ ∀ u ∈ upperChar c, upperChar u = [u] ∧ isSpace u = false := by
  rcases caseMap_cases upperRuns upperSpecials c.toNat with hself | hentry
  · left
    rw [upperChar, hself, List.map_singleton, Char.ofNat_toNat]
  · right
    obtain ⟨hne, himages⟩ := mem_upperImageRuns hentry
    refine ⟨?_, ?_⟩
    · intro hnil
      exact hne (List.map_eq_nil_iff.1 hnil)
    · intro u hu
      obtain ⟨m, hm, rfl⟩ := List.mem_map.1 hu
      obtain ⟨run, hrun, hinside⟩ := himages m hm
      have htoNat := toNat_ofNat_of_inRun hrun hinside
      have hforbidden := not_forbidden_of_inRun hrun hinside
      constructor
      · rw [upperChar, htoNat, caseMap_of_not_inRun, List.map_singleton]
        intro forbidden hmem
        exact hforbidden forbidden (List.mem_append_left _ (List.mem_append_left _ hmem))
      · rw [← Bool.not_eq_true, isSpace_iff_inRun, htoNat]
        rintro ⟨space, hspace, hin⟩
        exact hforbidden space (List.mem_append_left _ (List.mem_append_right _ hspace)) hin

theorem upperChar_ne_nil (c : Char) : upperChar c ≠ [] := by
  rcases upperChar_spec c with hself | ⟨hne, -⟩
  · rw [hself]
    exact List.cons_ne_nil _ _
  · exact hne

/-! ### Upper case of a text -/

@[simp] theorem upper_nil : upper [] = [] := rfl

theorem upper_cons (c : Char) (text : Text) : upper (c :: text) = upperChar c ++ upper text := List.flatMap_cons ..

theorem upper_append (left right : Text) : upper (left ++ right) = upper left ++ upper right := List.flatMap_append ..

theorem upper_eq_nil_iff {text : Text} : upper text = [] ↔ text = [] := by
  cases text with
  | nil => simp
  | cons c text => simp [upper_cons, upperChar_ne_nil]

/-- Upper case is idempotent. -/
theorem upper_upper (text : Text) : upper (upper text) = upper text := by
  induction text with
  | nil => rfl
  | cons c text ih =>
      rw [upper_cons, upper_append, ih]
      congr 1
      rcases upperChar_spec c with hself | ⟨-, hall⟩
      · rw [hself, upper_cons, hself]
        rfl
      · rw [upper, List.flatMap_congr fun u hu => (hall u hu).1]
        exact List.flatMap_singleton' _

theorem isSpace_head_upperChar {c : Char} (hc : isSpace c = false) : ∀ u ∈ upperChar c, isSpace u = false := by
  intro u hu
  rcases upperChar_spec c with hself | ⟨-, hall⟩
  · rw [hself, List.mem_singleton] at hu
    rw [hu, hc]
  · exact (hall u hu).2

/-- Upper case leaves no white space at the ends. -/
theorem Trimmed.upper {text : Text} (h : Trimmed text) : Trimmed (PyText.upper text) := by
  constructor
  · cases text with
    | nil => exact fun c hc => absurd hc (by simp)
    | cons first rest =>
        intro c hc
        rw [upper_cons, List.head?_append_of_ne_nil _ (upperChar_ne_nil first)] at hc
        exact isSpace_head_upperChar (h.head first rfl) c (List.mem_of_mem_head? hc)
  · rcases List.eq_nil_or_concat text with rfl | ⟨init, last, rfl⟩
    · exact fun c hc => absurd hc (by simp)
    · rw [List.concat_eq_append] at *
      intro c hc
      rw [upper_append, upper_cons, upper_nil, List.append_nil,
        List.getLast?_append_of_ne_nil _ (upperChar_ne_nil last)] at hc
      exact isSpace_head_upperChar (h.last last (by simp)) c (List.mem_of_getLast? hc)

theorem upperChar_of_isSpace {c : Char} (hc : isSpace c = true) : upperChar c = [c] := by
  obtain ⟨space, hspace, hin⟩ := (isSpace_iff_inRun c).1 hc
  rw [upperChar, caseMap_of_not_inRun, List.map_singleton, Char.ofNat_toNat]
  intro source hsource
  exact not_inRun_of_runsApart (List.all_eq_true.1 (List.all_eq_true.1 spaceRuns_apart space hspace) source hsource) hin

theorem upper_of_spaces {text : Text} (h : ∀ c ∈ text, isSpace c = true) : upper text = text := by
  rw [upper, List.flatMap_congr fun c hc => upperChar_of_isSpace (h c hc)]
  exact List.flatMap_singleton' _

/-- Upper case and stripping may be done in either order. -/
theorem strip_upper (text : Text) : strip (upper text) = upper (strip text) := by
  obtain ⟨left, right, hleft, hright, htext⟩ := exists_pad text
  conv_lhs => rw [htext, upper_append, upper_append, upper_of_spaces hleft, upper_of_spaces hright, strip_pad hleft hright]
  exact (trimmed_strip text).upper.strip_eq

/-! ### ASCII letters -/

/-- Below the small letters the upper case changes nothing. -/
theorem upperChar_of_lt {c : Char} (hc : c.toNat < 97) : upperChar c = [c] := by
  rw [upperChar, caseMap_of_not_inRun, List.map_singleton, Char.ofNat_toNat]
  intro run hrun hin
  have hfirst := Nat.le_of_ble_eq_true (List.all_eq_true.1 upperRuns_from_97 run hrun)
  have hlow := hin.1
  omega

/-- A small letter of ASCII. -/
def isSmall (c : Char) : Bool := 'a' ≤ c && c ≤ 'z'

/-- A capital letter of ASCII. -/
def isCapital (c : Char) : Bool := 'A' ≤ c && c ≤ 'Z'

theorem isSmall_iff (c : Char) : isSmall c = true ↔ 97 ≤ c.toNat ∧ c.toNat ≤ 122 := by
  simp only [isSmall, Bool.and_eq_true, decide_eq_true_eq]
  exact Iff.rfl

theorem isCapital_iff (c : Char) : isCapital c = true ↔ 65 ≤ c.toNat ∧ c.toNat ≤ 90 := by
  simp only [isCapital, Bool.and_eq_true, decide_eq_true_eq]
  exact Iff.rfl

/-- The capital of a small letter; every other character is left alone. -/
def capital (c : Char) : Char := if isSmall c then Char.ofNat (c.toNat - 32) else c

theorem upperChar_of_isSmall {c : Char} (hc : isSmall c = true) : upperChar c = [capital c] := by
  rw [capital, if_pos hc]
  rw [isSmall_iff] at hc
  have hspecial : upperSpecials.lookup c.toNat = none := by
    apply lookup_eq_none
    intro special hspecial heq
    have hfrom := Nat.le_of_ble_eq_true (List.all_eq_true.1 upperSpecials_from_123 special hspecial)
    omega
  have hrun : runShift upperRuns c.toNat = some (-32) := if_pos ⟨hc.1, hc.2, Nat.mod_one _⟩
  rw [upperChar, caseMap, hspecial, hrun, List.map_singleton]
  congr 2
  omega

/-- What the lower case tables hold, read off them in one pass. -/
theorem lowerTables :
    (lowerRuns.all fun run => decide (run = (65, 90, 1, 32) ∨ run = (8490, 8490, 1, -8383) ∨ 122 < (run.1 : Int) + run.2.2.2)
      && soundRun run) = true
      ∧ ((sourceRuns lowerRuns lowerSpecials).all fun run => decide (run = (65, 90, 1)) || Nat.ble 192 run.1) = true := by
  decide +kernel

theorem lowerRuns_ascii :
    (lowerRuns.all fun run => decide (run = (65, 90, 1, 32) ∨ run = (8490, 8490, 1, -8383) ∨ 122 < (run.1 : Int) + run.2.2.2)
      && soundRun run) = true :=
  lowerTables.1

/-- Where a small letter other than `k` stands in a lower case image, the letter itself or its capital was
mapped, or the image is that of the dotted capital `İ`. -/
theorem toNat_of_isSmall_mem_lowerChar {c x : Char} (hx : isSmall x = true) (hk : x ≠ 'k') (hmem : x ∈ lowerChar c) :
    c = x ∨ isCapital c = true ∧ x = Char.ofNat (c.toNat + 32) ∨ lowerChar c = ['i', Char.ofNat 775] := by
  rw [isSmall_iff] at hx
  obtain ⟨m, hm, hxm⟩ := List.mem_map.1 hmem
  rcases caseMap_cases lowerRuns lowerSpecials c.toNat with hself | hentry
  · left
    rw [hself, List.mem_singleton] at hm
    rw [← hxm, hm, Char.ofNat_toNat]
  · rcases List.mem_append.1 hentry with hspecial | hrun
    · right; right
      have hdotted : (c.toNat, caseMap lowerRuns lowerSpecials c.toNat) ∈ [(304, [105, 775])] := hspecial
      rw [List.mem_singleton, Prod.mk.injEq] at hdotted
      rw [lowerChar, hdotted.2]
      rfl
    · obtain ⟨run, hrunmem, hentry⟩ := List.mem_flatMap.1 hrun
      have hchecked := List.all_eq_true.1 lowerRuns_ascii run hrunmem
      rw [Bool.and_eq_true, decide_eq_true_eq] at hchecked
      obtain ⟨n, hn, -, hshift, hsource⟩ := inRun_imageRun hchecked.2 hentry
      rw [hn, List.mem_singleton] at hm
      subst hm
      have hsmall : (Char.ofNat m).toNat = m ∨ (Char.ofNat m).toNat = 0 := by
        by_cases hvalid : m.isValidChar
        · exact Or.inl (toNat_ofNat hvalid)
        · right
          rw [Char.ofNat, dif_neg hvalid]
          rfl
      have hvalue : m = x.toNat := by
        rw [hxm] at hsmall
        omega
      have hlow := hsource.1
      have hhigh := hsource.2.1
      rcases hchecked.1 with rfl | rfl | hbig
      · right; left
        dsimp only at hlow hhigh hshift
        refine ⟨(isCapital_iff c).2 ⟨hlow, hhigh⟩, ?_⟩
        rw [← hxm]
        congr 1
        omega
      · -- The Kelvin sign, whose lower case is `k`.
        dsimp only at hlow hhigh hshift
        exfalso
        apply hk
        rw [← hxm, show m = 107 by omega]
      · exfalso
        have hstart := hsource.1
        dsimp only at hstart
        omega

theorem lowerRuns_sound : lowerRuns.all soundRun = true := by
  rw [List.all_eq_true]
  intro run hrun
  exact (Bool.and_eq_true_iff.1 (List.all_eq_true.1 lowerRuns_ascii run hrun)).2

/-- The lower case of a code point is one code point, or that of the dotted capital `İ`. -/
theorem lowerChar_cases (c : Char) : (∃ x, lowerChar c = [x]) ∨ lowerChar c = ['i', Char.ofNat 775] := by
  rcases caseMap_cases lowerRuns lowerSpecials c.toNat with hself | hentry
  · left
    exact ⟨c, by rw [lowerChar, hself, List.map_singleton, Char.ofNat_toNat]⟩
  · rcases List.mem_append.1 hentry with hspecial | hrun
    · right
      have hdotted : (c.toNat, caseMap lowerRuns lowerSpecials c.toNat) ∈ [(304, [105, 775])] := hspecial
      rw [List.mem_singleton, Prod.mk.injEq] at hdotted
      rw [lowerChar, hdotted.2]
      rfl
    · left
      obtain ⟨run, hmem, hentry⟩ := List.mem_flatMap.1 hrun
      obtain ⟨m, hm, -⟩ := inRun_imageRun (List.all_eq_true.1 lowerRuns_sound run hmem) hentry
      exact ⟨Char.ofNat m, by rw [lowerChar, hm, List.map_singleton]⟩

theorem lowerRuns_gap :
    ((sourceRuns lowerRuns lowerSpecials).all fun run => decide (run = (65, 90, 1)) || Nat.ble 192 run.1) = true :=
  lowerTables.2

/-- Below 192 only the capitals have another lower case. -/
theorem lowerChar_of_not_isCapital {c : Char} (hlow : c.toNat < 192) (hc : isCapital c = false) : lowerChar c = [c] := by
  rw [lowerChar, caseMap_of_not_inRun, List.map_singleton, Char.ofNat_toNat]
  intro run hrun hin
  have hgap := List.all_eq_true.1 lowerRuns_gap run hrun
  rw [Bool.or_eq_true, decide_eq_true_eq] at hgap
  rcases hgap with rfl | hfrom
  · rw [← Bool.not_eq_true, isCapital_iff] at hc
    exact hc ⟨hin.1, hin.2.1⟩
  · have hfirst := Nat.le_of_ble_eq_true hfrom
    have hle := hin.1
    omega

/-! ### Words of ASCII letters in a lower case text -/

theorem lower_cons (c : Char) (text : Text) : lower (c :: text) = lowerChar c ++ lower text := List.flatMap_cons ..

/-- A text of ASCII without capitals is its own lower case. -/
theorem lower_eq_self {text : Text} (h : ∀ c ∈ text, c.toNat < 192 ∧ isCapital c = false) : lower text = text := by
  induction text with
  | nil => rfl
  | cons c text ih =>
      have hc := h c List.mem_cons_self
      rw [lower_cons, lowerChar_of_not_isCapital hc.1 hc.2, ih fun other hother => h other (List.mem_cons_of_mem c hother)]
      rfl

/-- A cut of a lower case text is a cut of the text, except inside the image of `İ`. -/
theorem lower_eq_append {text left right : Text} (h : lower text = left ++ right) :
    (∃ a b, text = a ++ b ∧ lower a = left ∧ lower b = right)
      ∨ left.getLast? = some 'i' ∧ right.head? = some (Char.ofNat 775) := by
  induction text generalizing left with
  | nil =>
      obtain ⟨rfl, rfl⟩ := List.append_eq_nil_iff.1 h.symm
      exact Or.inl ⟨[], [], rfl, rfl, rfl⟩
  | cons c text ih =>
      rw [lower_cons] at h
      rcases List.append_eq_append_iff.1 h with ⟨rest, rfl, hrest⟩ | ⟨rest, hc, rfl⟩
      · rcases ih hrest with ⟨a, b, rfl, rfl, hb⟩ | ⟨hlast, hhead⟩
        · exact Or.inl ⟨c :: a, b, rfl, lower_cons c a, hb⟩
        · refine Or.inr ⟨?_, hhead⟩
          rw [List.getLast?_append, hlast]
          rfl
      · rcases lowerChar_cases c with ⟨x, hx⟩ | hdotted
        · rw [hx] at hc
          rcases List.append_eq_cons_iff.1 hc.symm with ⟨rfl, rfl⟩ | ⟨left', rfl, hnil⟩
          · exact Or.inl ⟨[], c :: text, rfl, rfl, by rw [lower_cons, hx]⟩
          · obtain ⟨rfl, rfl⟩ := List.append_eq_nil_iff.1 hnil.symm
            exact Or.inl ⟨[c], text, rfl, by rw [lower_cons, hx]; rfl, rfl⟩
        · rw [hdotted] at hc
          match left, rest, hc with
          | [], _, rfl => exact Or.inl ⟨[], c :: text, rfl, rfl, by rw [lower_cons, hdotted]⟩
          | [_], [_], rfl => exact Or.inr ⟨rfl, rfl⟩
          | [_, _], [], rfl => exact Or.inl ⟨[c], text, rfl, by rw [lower_cons, hdotted]; rfl, rfl⟩

/-- A text whose lower case is a word of small letters without `k` has the word's capitals as upper case. -/
theorem upper_of_lower_eq {text word : Text} (hword : ∀ x ∈ word, isSmall x = true ∧ x ≠ 'k') (h : lower text = word) :
    upper text = word.map capital := by
  induction text generalizing word with
  | nil =>
      rw [← h]
      rfl
  | cons c text ih =>
      rw [lower_cons] at h
      have hrest : ∀ x ∈ lower text, isSmall x = true ∧ x ≠ 'k' :=
        fun x hx => hword x (h ▸ List.mem_append_right _ hx)
      have hdotted : lowerChar c ≠ ['i', Char.ofNat 775] := by
        intro hdotted
        have hmark := (hword (Char.ofNat 775) (by rw [← h, hdotted]; simp)).1
        revert hmark
        decide
      rcases lowerChar_cases c with ⟨x, hx⟩ | hcontra
      · have hxword := hword x (by rw [← h, hx]; exact List.mem_cons_self ..)
        have hchar : upperChar c = [capital x] := by
          rcases toNat_of_isSmall_mem_lowerChar hxword.1 hxword.2 (hx ▸ List.mem_singleton.2 rfl) with rfl | ⟨hcapital, rfl⟩
              | hcontra
          · exact upperChar_of_isSmall hxword.1
          · have hbounds := (isCapital_iff c).1 hcapital
            have hback : capital (Char.ofNat (c.toNat + 32)) = c := by
              have htoNat : (Char.ofNat (c.toNat + 32)).toNat = c.toNat + 32 := toNat_ofNat (Or.inl (by omega))
              rw [capital, if_pos hxword.1, htoNat, Nat.add_sub_cancel, Char.ofNat_toNat]
            rw [hback, upperChar_of_lt (by omega)]
          · exact absurd hcontra hdotted
        rw [upper_cons, hchar, ih hrest rfl, ← h, hx]
        rfl
      · exact absurd hcontra hdotted

/-- A word of small letters (no `k`, and no `i` at its end) in the lower case of a text stands there in
capitals in its upper case. -/
theorem upper_contains_of_lower_contains {text word : Text} (hword : ∀ x ∈ word, isSmall x = true ∧ x ≠ 'k')
    (hlast : word.getLast? ≠ some 'i') (h : word <:+: lower text) : word.map capital <:+: upper text := by
  rcases List.eq_nil_or_concat word with rfl | ⟨init, last, hconcat⟩
  · exact List.nil_infix
  · have hne : word ≠ [] := by
      rw [hconcat]
      simp
    obtain ⟨left, right, htext⟩ := h
    rw [List.append_assoc] at htext
    rcases lower_eq_append htext.symm with ⟨a, b, rfl, -, hb⟩ | ⟨-, hhead⟩
    · rcases lower_eq_append hb with ⟨middle, rest, rfl, hmiddle, -⟩ | ⟨hi, -⟩
      · rw [upper_append, upper_append, upper_of_lower_eq hword hmiddle]
        exact ⟨upper a, upper rest, by rw [List.append_assoc]⟩
      · exact absurd hi hlast
    · -- The word does not start with the mark that follows `i` in the image of `İ`.
      exfalso
      rw [List.head?_append_of_ne_nil _ hne] at hhead
      have hmark := (hword _ (List.mem_of_mem_head? hhead)).1
      revert hmark
      decide

end PyText
