import BitSerial.Admission

/-! # Outcomes of computations

A computation that came through did so step by step: these laws take one apart into the steps that it was made of.
-/

namespace BitSerial

variable {ε ε' α α' β β' : Type}

/-- A sequence comes through when its first step does and the rest does after it. -/
theorem bind_eq_ok_iff {first : Except ε α} {rest : α → Except ε β} {found : β} :
    (first >>= rest) = .ok found ↔ ∃ value, first = .ok value ∧ rest value = .ok found := by
  cases first with
  | error cause => exact ⟨nofun, fun ⟨_, h, _⟩ => nomatch h⟩
  | ok value =>
    refine ⟨fun h => ⟨value, rfl, h⟩, ?_⟩
    rintro ⟨_, h, hrest⟩
    cases h
    exact hrest

/-- A sequence fails when its first step does, or when the rest does after it. -/
theorem bind_eq_error_iff {first : Except ε α} {rest : α → Except ε β} {cause : ε} :
    (first >>= rest) = .error cause ↔ first = .error cause ∨ ∃ value, first = .ok value ∧ rest value = .error cause := by
  cases first with
  | error other => exact ⟨fun h => .inl (congrArg _ (Except.error.inj h)), fun h => h.elim (congrArg _ ∘ Except.error.inj) nofun⟩
  | ok value =>
    refine ⟨fun h => .inr ⟨value, rfl, h⟩, fun h => ?_⟩
    obtain ⟨_, h, hrest⟩ := h.resolve_left nofun
    cases h
    exact hrest

/-- A sequence comes through if its first step does, and the rest does after it. -/
theorem bind_total {first : Except ε α} {rest : α → Except ε β} (hfirst : ∃ value, first = .ok value)
    (hrest : ∀ value, first = .ok value → ∃ found, rest value = .ok found) : ∃ found, (first >>= rest) = .ok found := by
  obtain ⟨value, hvalue⟩ := hfirst
  obtain ⟨found, hfound⟩ := hrest value hvalue
  exact ⟨found, bind_eq_ok_iff.mpr ⟨value, hvalue, hfound⟩⟩

/-- A sequence may go on in any way that agrees on what its first step comes to. -/
theorem bind_congr_ok {first : Except ε α} {rest rest' : α → Except ε β}
    (h : ∀ value, first = .ok value → rest value = rest' value) : (first >>= rest) = first >>= rest' := by
  cases first with
  | error cause => rfl
  | ok value => exact h value rfl

theorem pure_eq_ok_iff {value found : α} : (pure value : Except ε α) = .ok found ↔ found = value :=
  ⟨fun h => (Except.ok.inj h).symm, fun h => congrArg Except.ok h.symm⟩

theorem mapError_eq_ok_iff {computation : Except ε α} {f : ε → ε'} {found : α} :
    computation.mapError f = .ok found ↔ computation = .ok found := by
  cases computation with
  | error cause => exact ⟨nofun, nofun⟩
  | ok value => exact Iff.rfl.trans ⟨fun h => congrArg _ (Except.ok.inj h), fun h => congrArg _ (Except.ok.inj h)⟩

/-- Carrying a computation over to one that can also be turned down keeps its outcome. -/
theorem lift_eq_ok_iff {computation : Except Fault α} {found : α} :
    (liftM computation : Except Failure α) = .ok found ↔ computation = .ok found :=
  mapError_eq_ok_iff

theorem bind_of_ok {first : Except ε α} {rest : α → Except ε β} {value : α} (h : first = .ok value) :
    (first >>= rest) = rest value := by
  rw [h]
  rfl

theorem lift_bind_of_ok {first : Except Fault α} {rest : α → Except Failure β} {value : α} (h : first = .ok value) :
    (liftM first >>= rest) = rest value := by
  rw [h]
  rfl

theorem lift_ok_bind (value : α) (rest : α → Except Failure β) :
    (liftM (.ok value : Except Fault α) >>= rest) = rest value := rfl

theorem lift_error_bind (fault : Fault) (rest : α → Except Failure β) :
    (liftM (.error fault : Except Fault α) >>= rest) = .error (.fault fault) := rfl

theorem map_eq_ok_iff {computation : Except ε α} {f : α → β} {found : β} :
    computation.map f = .ok found ↔ ∃ value, computation = .ok value ∧ f value = found := by
  cases computation with
  | error cause => exact ⟨nofun, fun ⟨_, h, _⟩ => nomatch h⟩
  | ok value => simp [Except.map]

theorem toOption_eq_some_iff {computation : Except ε α} {found : α} :
    computation.toOption = some found ↔ computation = .ok found := by
  cases computation with
  | error cause => exact ⟨nofun, nofun⟩
  | ok value => exact ⟨fun h => congrArg _ (Option.some.inj h), fun h => congrArg _ (Except.ok.inj h)⟩

/-- Two sequences agree up to a view of their outcomes when their steps do. -/
theorem map_bind_eq {first : Except ε α} {first' : Except ε α'} {rest : α → Except ε β}
    {rest' : α' → Except ε β'} {view : α → α'} {view' : β → β'} (hfirst : first.map view = first')
    (hrest : ∀ value, (rest value).map view' = rest' (view value)) :
    (first >>= rest).map view' = first' >>= rest' := by
  subst hfirst
  cases first with
  | error cause => rfl
  | ok value => exact hrest value

/-- What every step of a run keeps, a run that comes through keeps. -/
theorem foldlM_keeps {step : α → β → Except ε α} {keeps : α → Prop}
    (hstep : ∀ state entry after, keeps state → step state entry = .ok after → keeps after) {entries : List β}
    {start found : α} (hstart : keeps start) (hrun : entries.foldlM step start = .ok found) : keeps found := by
  induction entries generalizing start with
  | nil =>
    obtain rfl := pure_eq_ok_iff.mp hrun
    exact hstart
  | cons entry entries ih =>
    rw [List.foldlM_cons] at hrun
    obtain ⟨after, hfirst, hrest⟩ := bind_eq_ok_iff.mp hrun
    exact ih (hstep start entry after hstart hfirst) hrest

/-- A computation comes through with what is asked of it, or there is an excuse and it stops with a given error. -/
def Settles (stop : ε) (excuse : Prop) (computation : Except ε α) (asked : α → Prop) : Prop :=
  (∃ found, computation = .ok found ∧ asked found) ∨ computation = .error stop ∧ excuse

namespace Settles

variable {stop : ε} {excuse excuse' : Prop} {computation first : Except ε α} {rest : α → Except ε β}
  {asked asked' : α → Prop} {askedRest : β → Prop}

theorem ok {found : α} (hcomputation : computation = .ok found) (hasked : asked found) :
    Settles stop excuse computation asked :=
  .inl ⟨found, hcomputation, hasked⟩

theorem bind (hfirst : Settles stop excuse first asked)
    (hrest : ∀ value, asked value → Settles stop excuse (rest value) askedRest) :
    Settles stop excuse (first >>= rest) askedRest := by
  rcases hfirst with ⟨value, rfl, hvalue⟩ | ⟨rfl, hexcuse⟩
  · exact hrest value hvalue
  · exact .inr ⟨rfl, hexcuse⟩

theorem imp (h : Settles stop excuse computation asked) (hexcuse : excuse → excuse')
    (hasked : ∀ found, computation = .ok found → asked found → asked' found) :
    Settles stop excuse' computation asked' := by
  rcases h with ⟨found, hfound, hholds⟩ | ⟨hstopped, hholds⟩
  · exact .inl ⟨found, hfound, hasked found hfound hholds⟩
  · exact .inr ⟨hstopped, hexcuse hholds⟩

/-- Without an excuse, a computation comes through. -/
theorem total (h : Settles stop excuse computation asked) (hexcuse : ¬ excuse) :
    ∃ found, computation = .ok found ∧ asked found :=
  h.resolve_right fun hstopped => hexcuse hstopped.2

/-- What comes through comes through with what was asked of it. -/
theorem asked_of_ok (h : Settles stop excuse computation asked) {found : α} (hfound : computation = .ok found) :
    asked found := by
  subst hfound
  rcases h with ⟨_, heq, hasked⟩ | ⟨hstopped, -⟩
  · exact Except.ok.inj heq ▸ hasked
  · cases hstopped

end Settles

/-- A computation fails only in allowed ways. -/
def Fails (allowed : ε → Prop) (computation : Except ε α) : Prop := ∀ cause, computation = .error cause → allowed cause

namespace Fails

variable {allowed : ε → Prop}

theorem of_ok {computation : Except ε α} {value : α} (h : computation = .ok value) : Fails allowed computation := by
  rw [h]
  nofun

theorem bind {first : Except ε α} {rest : α → Except ε β} (hfirst : Fails allowed first)
    (hrest : ∀ value, first = .ok value → Fails allowed (rest value)) : Fails allowed (first >>= rest) := by
  intro cause h
  rcases bind_eq_error_iff.mp h with h | ⟨value, hvalue, h⟩
  · exact hfirst cause h
  · exact hrest value hvalue cause h

theorem demandShape {allowed : Failure → Prop} {condition : Prop} [Decidable condition] {defect : ShapeDefect}
    (h : allowed (.refused (.unsupportedShape defect))) : Fails allowed (Failure.demandShape condition defect) := by
  intro cause hcause
  unfold Failure.demandShape Failure.shape at hcause
  split at hcause
  · cases hcause
  · cases hcause
    exact h

theorem demandCapability {allowed : Failure → Prop} {condition : Prop} [Decidable condition]
    {defect : CapabilityDefect} (h : allowed (.refused (.capabilityMismatch defect))) :
    Fails allowed (Failure.demandCapability condition defect) := by
  intro cause hcause
  unfold Failure.demandCapability Failure.capability at hcause
  split at hcause
  · cases hcause
  · cases hcause
    exact h

end Fails

/-- A computation comes to what is asked of it, or fails in an allowed way. -/
def Ends (allowed : ε → Prop) (computation : Except ε α) (asked : α → Prop) : Prop :=
  Fails allowed computation ∧ ∀ found, computation = .ok found → asked found

namespace Ends

variable {allowed : ε → Prop} {first : Except ε α} {rest : α → Except ε β} {asked : α → Prop} {askedRest : β → Prop}

theorem ok {found : α} (h : asked found) : Ends allowed (.ok found) asked :=
  ⟨nofun, fun _ hfound => Except.ok.inj hfound ▸ h⟩

theorem bind (hfirst : Ends allowed first asked) (hrest : ∀ value, asked value → Ends allowed (rest value) askedRest) :
    Ends allowed (first >>= rest) askedRest := by
  refine ⟨hfirst.1.bind fun value hvalue => (hrest value (hfirst.2 value hvalue)).1, fun found hfound => ?_⟩
  obtain ⟨value, hvalue, hfound⟩ := bind_eq_ok_iff.mp hfound
  exact (hrest value (hfirst.2 value hvalue)).2 found hfound

theorem of_fails (h : Fails allowed first) : Ends allowed first fun _ => True := ⟨h, fun _ _ => trivial⟩

/-- Where nothing is allowed to come through, a computation fails. -/
theorem exists_error (h : Ends allowed first fun _ => False) : ∃ cause, first = .error cause ∧ allowed cause := by
  cases hfirst : first with
  | ok found => exact (h.2 found hfirst).elim
  | error cause => exact ⟨cause, rfl, h.1 cause hfirst⟩

end Ends

/-- What settles fails in one way only. -/
theorem Settles.fails {stop : ε} {excuse : Prop} {computation : Except ε α} {asked : α → Prop}
    (h : Settles stop excuse computation asked) : Fails (· = stop) computation := by
  intro cause hcause
  rcases h with ⟨found, hfound, _⟩ | ⟨hstopped, _⟩
  · cases hcause.symm.trans hfound
  · cases hcause.symm.trans hstopped
    rfl

/-- What two computations come to, if both come through, is related. -/
def Agree (relates : α → α' → Prop) (first : Except ε α) (second : Except ε α') : Prop :=
  ∀ value other, first = .ok value → second = .ok other → relates value other

namespace Agree

variable {relates : α → α' → Prop} {relatesRest : β → β' → Prop} {first : Except ε α} {second : Except ε α'}
  {rest : α → Except ε β} {rest' : α' → Except ε β'}

theorem ok {value : α} {other : α'} (h : relates value other) : Agree (ε := ε) relates (.ok value) (.ok other) := by
  rintro _ _ ⟨⟩ ⟨⟩
  exact h

theorem bind (hfirst : Agree relates first second)
    (hrest : ∀ value other, relates value other → Agree relatesRest (rest value) (rest' other)) :
    Agree relatesRest (first >>= rest) (second >>= rest') := by
  intro found otherFound hfound hotherFound
  obtain ⟨value, hvalue, hfound⟩ := bind_eq_ok_iff.mp hfound
  obtain ⟨other, hother, hotherFound⟩ := bind_eq_ok_iff.mp hotherFound
  exact hrest value other (hfirst value other hvalue hother) found otherFound hfound hotherFound

end Agree

theorem Word64.add_settles (first second : Nat) :
    Settles .overflow (size ≤ first + second) (add first second) fun found => found = first + second := by
  rcases Nat.lt_or_ge (first + second) size with hfits | hfull
  · exact .ok (add_eq_ok_iff.mpr ⟨hfits, rfl⟩) rfl
  · exact .inr ⟨if_neg (Nat.not_lt.mpr hfull), hfull⟩

theorem Word64.fit_fails (value : Nat) : Fails (· = .overflow) (fit value) := by
  intro cause hcause
  unfold fit at hcause
  split at hcause
  · cases hcause
  · exact (Except.error.inj hcause).symm

theorem demandShape_eq_ok_iff {condition : Prop} [Decidable condition] {defect : ShapeDefect} {found : Unit} :
    Failure.demandShape condition defect = .ok found ↔ condition := by
  unfold Failure.demandShape Failure.shape
  split
  next h => simp [h]
  next h => simp [h]

theorem demandShape_of {condition : Prop} [Decidable condition] {defect : ShapeDefect} (h : condition) :
    Failure.demandShape condition defect = .ok () := if_pos h

theorem demandCapability_of {condition : Prop} [Decidable condition] {defect : CapabilityDefect} (h : condition) :
    Failure.demandCapability condition defect = .ok () := if_pos h

theorem demandCapability_eq_ok_iff {condition : Prop} [Decidable condition] {defect : CapabilityDefect}
    {found : Unit} : Failure.demandCapability condition defect = .ok found ↔ condition := by
  unfold Failure.demandCapability Failure.capability
  split
  next h => simp [h]
  next h => simp [h]

end BitSerial
