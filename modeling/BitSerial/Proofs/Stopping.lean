import Mathlib.Tactic.ByContra
import BitSerial.Session
import BitSerial.Proofs.Outcome

/-! # Where a run is given up

A run asks clock and flag again and again, and counts how often it asked; the two loops of a run share the count. The
first reading at which it is to be given up therefore decides what becomes of the run, whichever loop comes to ask for
it. Nothing that is read later matters, and a loop that comes to its end before has not asked for it.
-/

namespace BitSerial

open Session (LoopEnd StreamEnd)

namespace Options

variable {options : Options}

/-- Whether a run is given up is no matter of the loop that asks. -/
theorem stop?_eq_none_of {reading : Reading} {phase other : RunPhase} (h : options.stop? reading phase = none) :
    options.stop? reading other = none := by
  unfold stop? at h ⊢
  split at h
  · cases h
  next hflag =>
    rw [if_neg hflag]
    split at h
    · rfl
    · split at h
      · cases h
      next htimeout => rw [if_neg htimeout]

/-- Nobody gives a run up at a number of readings, from one on and before another one. -/
def Undisturbed (options : Options) (surroundings : Surroundings) (first point : Nat) : Prop :=
  ∀ index phase, first ≤ index → index < point → options.stop? (surroundings index) phase = none

/-- The first reading at which a run is given up, whichever loop asks for it. -/
structure StopsAt (options : Options) (surroundings : Surroundings) (point : Nat) : Prop where
  stops : ∀ phase, options.stop? (surroundings point) phase ≠ none
  before : options.Undisturbed surroundings 0 point

namespace Undisturbed

variable {surroundings : Surroundings} {first point last : Nat}

theorem empty (point : Nat) : options.Undisturbed surroundings point point :=
  fun _ _ hfrom hto => absurd hto (Nat.not_lt.mpr hfrom)

/-- One more reading in front. -/
theorem cons {phase : RunPhase} (hfirst : options.stop? (surroundings first) phase = none)
    (h : options.Undisturbed surroundings (first + 1) point) : options.Undisturbed surroundings first point := by
  intro index other hfrom hto
  rcases Nat.lt_or_eq_of_le hfrom with hlt | rfl
  · exact h index other hlt hto
  · exact stop?_eq_none_of hfirst

theorem append (h : options.Undisturbed surroundings first point)
    (hlast : options.Undisturbed surroundings point last) : options.Undisturbed surroundings first last := by
  intro index phase hfrom hto
  rcases Nat.lt_or_ge index point with hlt | hge
  · exact h index phase hfrom hlt
  · exact hlast index phase hge hto

end Undisturbed

theorem StopsAt.of_some {surroundings : Surroundings} {point : Nat} {phase : RunPhase} {reason : Refusal}
    (hbefore : options.Undisturbed surroundings 0 point) (h : options.stop? (surroundings point) phase = some reason) :
    options.StopsAt surroundings point := by
  refine ⟨fun other hnone => ?_, hbefore⟩
  rw [stop?_eq_none_of hnone] at h
  cases h

end Options

theorem Options.StopsAt.le_of_undisturbed {options : Options} {surroundings : Surroundings} {point last : Nat}
    (h : options.StopsAt surroundings point) (hlast : options.Undisturbed surroundings 0 last) : last ≤ point := by
  by_contra hlt
  exact h.stops .push (hlast point .push (Nat.zero_le _) (Nat.lt_of_not_le hlt))

namespace Session

variable {σ : Type} [Accelerator σ] {options : Options} {surroundings others : Surroundings}
  {patience asked asks point : Nat} {feed fed : Feed} {device after : σ} {reason : Refusal}

/-- A host that fed everything was not disturbed, and what it would have read later did not matter. -/
theorem feedAll_done (h : feedAll options surroundings patience asked feed device = .ok (.done, asks, fed, after)) :
    asked ≤ asks ∧ options.Undisturbed surroundings asked asks ∧ fed.allPushed = true ∧
      ∀ others : Surroundings, (∀ index < asks, others index = surroundings index) →
        feedAll options others patience asked feed device = .ok (.done, asks, fed, after) := by
  induction patience generalizing asked feed device with
  | zero =>
    have hall : feed.allPushed = true := by
      by_contra hleft
      rw [feedAll, if_neg hleft] at h
      cases h
    rw [feedAll_allPushed hall] at h
    cases h
    exact ⟨Nat.le_refl _, .empty _, hall, fun others _ => feedAll_allPushed hall⟩
  | succ patience ih =>
    by_cases hall : feed.allPushed = true
    · rw [feedAll_allPushed hall] at h
      cases h
      exact ⟨Nat.le_refl _, .empty _, hall, fun others _ => feedAll_allPushed hall⟩
    · rw [feedAll, if_neg hall] at h
      cases hstop : options.stop? (surroundings asked) .push with
      | some reason =>
        rw [hstop] at h
        cases h
      | none =>
        rw [hstop] at h
        obtain ⟨filled, hfill, hrest⟩ := bind_eq_ok_iff.mp h
        obtain ⟨hle, hundisturbed, hpushed, hsame⟩ := ih hrest
        refine ⟨Nat.le_of_succ_le hle, .cons hstop hundisturbed, hpushed, fun others hothers => ?_⟩
        rw [feedAll, if_neg hall, hothers asked hle, hstop]
        exact bind_eq_ok_iff.mpr ⟨filled, hfill, hsame others hothers⟩

/-- A host that was stopped while it fed was stopped at the first reading that told it to, with something left. -/
theorem feedAll_stopped
    (h : feedAll options surroundings patience asked feed device = .ok (.stopped reason, asks, fed, after)) :
    ∃ point, asked ≤ point ∧ options.Undisturbed surroundings asked point ∧
      options.stop? (surroundings point) .push = some reason ∧ fed.allPushed = false := by
  induction patience generalizing asked feed device with
  | zero =>
    rw [feedAll] at h
    split at h
    · cases h
    · cases h
  | succ patience ih =>
    by_cases hall : feed.allPushed = true
    · rw [feedAll_allPushed hall] at h
      cases h
    · rw [feedAll, if_neg hall] at h
      cases hstop : options.stop? (surroundings asked) .push with
      | some found =>
        rw [hstop] at h
        cases h
        exact ⟨asked, Nat.le_refl _, .empty _, hstop, Bool.eq_false_iff.mpr hall⟩
      | none =>
        rw [hstop] at h
        obtain ⟨filled, _, hrest⟩ := bind_eq_ok_iff.mp h
        obtain ⟨point, hle, hundisturbed, hpoint⟩ := ih hrest
        exact ⟨point, Nat.le_of_succ_le hle, .cons hstop hundisturbed, hpoint⟩

/-- A host that waited to the end was not disturbed, and what it would have read later did not matter. -/
theorem awaitResult_done (h : awaitResult options surroundings patience asked device = .ok (.done, after)) :
    ∃ last, asked ≤ last ∧ options.Undisturbed surroundings asked last ∧
      ∀ others : Surroundings, (∀ index < last, others index = surroundings index) →
        awaitResult options others patience asked device = .ok (.done, after) := by
  induction patience generalizing asked device with
  | zero => cases h
  | succ patience ih =>
    rw [awaitResult] at h
    obtain ⟨⟨count, polled⟩, hpolled, h⟩ := bind_eq_ok_iff.mp h
    by_cases hzero : count = 0
    · simp only [if_pos hzero] at h
      refine ⟨asked, Nat.le_refl _, .empty _, fun others _ => ?_⟩
      rw [awaitResult]
      refine bind_eq_ok_iff.mpr ⟨_, hpolled, ?_⟩
      simp only [if_pos hzero]
      exact h
    · simp only [if_neg hzero] at h
      cases hstop : options.stop? (surroundings asked) .completion with
      | some reason =>
        rw [hstop] at h
        cases h
      | none =>
        rw [hstop] at h
        obtain ⟨last, hle, hundisturbed, hsame⟩ := ih h
        refine ⟨last, Nat.le_of_succ_le hle, .cons hstop hundisturbed, fun others hothers => ?_⟩
        rw [awaitResult]
        refine bind_eq_ok_iff.mpr ⟨_, hpolled, ?_⟩
        simp only [if_neg hzero, hothers asked hle, hstop]
        exact hsame others hothers

theorem awaitResult_stopped
    (h : awaitResult options surroundings patience asked device = .ok (.stopped reason, after)) :
    ∃ point, asked ≤ point ∧ options.Undisturbed surroundings asked point ∧
      options.stop? (surroundings point) .completion = some reason := by
  induction patience generalizing asked device with
  | zero => cases h
  | succ patience ih =>
    rw [awaitResult] at h
    obtain ⟨⟨count, polled⟩, _, h⟩ := bind_eq_ok_iff.mp h
    by_cases hzero : count = 0
    · simp only [if_pos hzero] at h
      cases h
    · simp only [if_neg hzero] at h
      cases hstop : options.stop? (surroundings asked) .completion with
      | some found =>
        rw [hstop] at h
        cases h
        exact ⟨asked, Nat.le_refl _, .empty _, hstop⟩
      | none =>
        rw [hstop] at h
        obtain ⟨point, hle, hundisturbed, hpoint⟩ := ih h
        exact ⟨point, Nat.le_of_succ_le hle, .cons hstop hundisturbed, hpoint⟩

/-- Work that was given up was given up in the loop that came to the first reading that said so. -/
theorem work_stopped (h : work options surroundings patience feed device = .ok (.stopped reason, after)) :
    ∃ point phase asks fed pushed ended,
      feedAll options surroundings patience 0 feed device = .ok (ended, asks, fed, pushed) ∧
      options.StopsAt surroundings point ∧ options.stop? (surroundings point) phase = some reason ∧
      (phase = .completion ↔ fed.allPushed = true) ∧
      (after = pushed ∨ awaitResult options surroundings patience asks pushed = .ok (.stopped reason, after)) := by
  rw [work] at h
  obtain ⟨⟨ended, asks, fed, pushed⟩, hfeed, h⟩ := bind_eq_ok_iff.mp h
  cases ended with
  | done =>
    obtain ⟨_, hundisturbed, hall, _⟩ := feedAll_done hfeed
    obtain ⟨point, _, hwaited, hstop⟩ := awaitResult_stopped h
    exact ⟨point, .completion, asks, fed, pushed, .done, hfeed, .of_some (hundisturbed.append hwaited) hstop, hstop,
      ⟨fun _ => hall, fun _ => rfl⟩, .inr h⟩
  | stopped found =>
    cases h
    obtain ⟨point, _, hundisturbed, hstop, hleft⟩ := feedAll_stopped hfeed
    refine ⟨point, .push, asks, fed, _, .stopped reason, hfeed, .of_some hundisturbed hstop, hstop, ?_, .inl rfl⟩
    rw [hleft]
    exact ⟨nofun, nofun⟩
  | exhausted => cases h

/-- A run that came to its end before the first reading that would have stopped it does not depend on that one or any
later one. -/
theorem streamThrough_done {schedule : Schedule} {counters : Counters}
    (h : streamThrough options surroundings patience schedule device = .ok (.finished counters, after))
    (hstops : options.StopsAt surroundings point) (hothers : ∀ index < point, others index = surroundings index) :
    streamThrough options others patience schedule device = .ok (.finished counters, after) := by
  rw [streamThrough] at h
  obtain ⟨⟨feed, started⟩, hstart, h⟩ := bind_eq_ok_iff.mp h
  obtain ⟨⟨ended, worked⟩, hwork, h⟩ := bind_eq_ok_iff.mp h
  cases ended with
  | exhausted => cases h
  | stopped reason =>
    obtain ⟨_, _, h⟩ := bind_eq_ok_iff.mp h
    cases h
  | done =>
    rw [work] at hwork
    obtain ⟨⟨ended, asks, fed, pushed⟩, hfeed, hwork⟩ := bind_eq_ok_iff.mp hwork
    cases ended with
    | exhausted => cases hwork
    | stopped reason => cases hwork
    | done =>
      obtain ⟨_, hfed, _, hsameFed⟩ := feedAll_done hfeed
      obtain ⟨last, hle, hwaited, hsameWaited⟩ := awaitResult_done hwork
      have hlast := hstops.le_of_undisturbed (hfed.append hwaited)
      have hagree (index : Nat) (hindex : index < last) : others index = surroundings index :=
        hothers index (Nat.lt_of_lt_of_le hindex hlast)
      rw [streamThrough]
      refine bind_eq_ok_iff.mpr ⟨_, hstart, bind_eq_ok_iff.mpr ⟨(.done, worked), ?_, h⟩⟩
      rw [work]
      have hfedAgree (index : Nat) (hindex : index < asks) := hagree index (Nat.lt_of_lt_of_le hindex hle)
      refine bind_eq_ok_iff.mpr ⟨_, hsameFed others hfedAgree, ?_⟩
      exact hsameWaited others hagree

end Session

end BitSerial
