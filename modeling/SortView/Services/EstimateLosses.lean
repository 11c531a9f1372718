import SortView.Services.ExactEstimate

/-!
# What the estimate loses

The numbers that the estimate of `services/sortview_value.py` carries are the exact values less what is lost of them. So its
figures are exact if and only if no half step is taken from one of them, which is said of the inputs alone.
-/

namespace SortView

open PyText Rounding

/-! ### Exact values less what is lost -/

/-- What is kept of a result. -/
def Lossy.kept (x : Lossy) : ℚ := toDigits exactDigits (x.exact - x.before)

theorem Lossy.kept_eq (x : Lossy) : x.kept = x.exact - x.lost := (sub_lostOf exactDigits x.exact x.before).symm

theorem Lossy.kept_add (x y : Lossy) : toDigits exactDigits (x.kept + y.kept) = (x.add y).kept := by
  change _ = toDigits exactDigits (x.exact + y.exact - (x.lost + y.lost))
  rw [x.kept_eq, y.kept_eq, add_sub_add_comm]

theorem Lossy.kept_times (x : Lossy) (factor : ℚ) : toDigits exactDigits (x.kept * factor) = (x.times factor).kept := by
  change _ = toDigits exactDigits (x.exact * factor - x.lost * factor)
  rw [x.kept_eq, sub_mul]

theorem Lossy.kept_less (x : Lossy) (value : ℚ) : toDigits exactDigits (x.kept - value) = (x.less value).kept := by
  change _ = toDigits exactDigits (x.exact - value - x.lost)
  rw [x.kept_eq, sub_right_comm]

/-- An exact figure and a carried one are those of the losses. -/
structure Tracks (losses : Option Lossy) (exact carried : Option ℚ) : Prop where
  exact : exact = losses.map Lossy.exact
  carried : carried = losses.map Lossy.kept

variable {losses losses' : Option Lossy} {exact exact' carried carried' : Option ℚ}

/-- An operation on two results. -/
theorem Tracks.map₂ {exactly carrying : ℚ → ℚ → ℚ} {combine : Lossy → Lossy → Lossy} (h : Tracks losses exact carried)
    (h' : Tracks losses' exact' carried') (hexact : ∀ x y, exactly x.exact y.exact = (combine x y).exact)
    (hkept : ∀ x y, carrying x.kept y.kept = (combine x y).kept) :
    Tracks (Option.map₂ combine losses losses') (Option.map₂ exactly exact exact') (Option.map₂ carrying carried carried') := by
  obtain ⟨rfl, rfl⟩ := h
  obtain ⟨rfl, rfl⟩ := h'
  cases losses with
  | none => exact ⟨rfl, rfl⟩
  | some x =>
      cases losses' with
      | none => exact ⟨rfl, rfl⟩
      | some y => exact ⟨congrArg some (hexact x y), congrArg some (hkept x y)⟩

/-- An operation on a result and an input. -/
theorem Tracks.map₂_input {exactly carrying : ℚ → ℚ → ℚ} {combine : Lossy → ℚ → Lossy} (h : Tracks losses exact carried)
    (input : Option ℚ) (hexact : ∀ x value, exactly x.exact value = (combine x value).exact)
    (hkept : ∀ x value, carrying x.kept value = (combine x value).kept) :
    Tracks (Option.map₂ combine losses input) (Option.map₂ exactly exact input) (Option.map₂ carrying carried input) := by
  obtain ⟨rfl, rfl⟩ := h
  cases losses with
  | none => exact ⟨rfl, rfl⟩
  | some x =>
      cases input with
      | none => exact ⟨rfl, rfl⟩
      | some value => exact ⟨congrArg some (hexact x value), congrArg some (hkept x value)⟩

theorem Tracks.sum (h : Tracks losses exact carried) (h' : Tracks losses' exact' carried') :
    Tracks (Option.map₂ Lossy.add losses losses') (sumFormula id exact exact')
      (sumFormula (toDigits exactDigits) carried carried') := h.map₂ h' (fun _ _ => rfl) Lossy.kept_add

theorem Tracks.product (h : Tracks losses exact carried) (factor : Option ℚ) :
    Tracks (Option.map₂ Lossy.times losses factor) (productFormula id exact factor)
      (productFormula (toDigits exactDigits) carried factor) := h.map₂_input factor (fun _ _ => rfl) Lossy.kept_times

theorem Tracks.annual (h : Tracks losses exact carried) :
    Tracks (losses.map fun x => x.times 12) (annualFormula id exact) (annualFormula (toDigits exactDigits) carried) := by
  obtain ⟨rfl, rfl⟩ := h
  cases losses with
  | none => exact ⟨rfl, rfl⟩
  | some x => exact ⟨rfl, congrArg some (x.kept_times 12)⟩

theorem Tracks.net (h : Tracks losses exact carried) (cost : Option ℚ) :
    Tracks (Option.map₂ Lossy.less losses cost) (differenceFormula id exact cost)
      (differenceFormula (toDigits exactDigits) carried cost) := h.map₂_input cost (fun _ _ => rfl) Lossy.kept_less

end SortView
