import BitSerial.Proofs.Feeding
import BitSerial.Proofs.Recorded

/-! # Streaming seen through a view

A view shows one accelerator as another: every access does through the view what it does before it. The loops of a run
use nothing but accesses, so a whole run is seen through a view too. The recorder is left out of a recorded device in
this way.
-/

namespace BitSerial

/-- Every access shows through the view as the same access. -/
structure Accelerator.View {σ τ : Type} [Accelerator σ] [Accelerator τ] (view : σ → τ) : Prop where
  poll : ∀ stream state, (Transport.poll stream state).map (fun (full, after) => (full, view after)) =
    Transport.poll stream (view state)
  push : ∀ entry state, (Transport.push entry state).map view = Transport.push entry (view state)
  outstanding : ∀ stage state, (Accelerator.outstanding stage state).map (fun (count, after) => (count, view after)) =
    Accelerator.outstanding stage (view state)
  setEnabled : ∀ enabled state, (Accelerator.setEnabled enabled state).map view =
    Accelerator.setEnabled enabled (view state)
  setCounting : ∀ counting state, (Accelerator.setCounting counting state).map view =
    Accelerator.setCounting counting (view state)
  stateCycles : ∀ stage control state,
    (Accelerator.stateCycles stage control state).map (fun (count, after) => (count, view after)) =
      Accelerator.stateCycles stage control (view state)
  cycleCount : ∀ state, (Accelerator.cycleCount state).map (fun (count, after) => (count, view after)) =
    Accelerator.cycleCount (view state)
  reset : ∀ state, view (Accelerator.reset state) = Accelerator.reset (view state)

namespace Accelerator.View

variable {σ τ : Type} [Accelerator σ] [Accelerator τ] {view : σ → τ} (hview : View view)

include hview

theorem transport : Transport.View view := ⟨hview.poll, hview.push⟩

theorem feedAll (options : Options) (surroundings : Surroundings) (patience asked : Nat) (feed : Feed) (state : σ) :
    (Session.feedAll options surroundings patience asked feed state).map
        (fun (ended, asked, feed, after) => (ended, asked, feed, view after)) =
      Session.feedAll options surroundings patience asked feed (view state) := by
  induction patience generalizing asked feed state with
  | zero => rfl
  | succ patience ih =>
    unfold Session.feedAll
    split
    · rfl
    · split
      · rfl
      · exact map_bind_eq (hview.transport.fill feed state) fun _ => ih _ _ _

theorem awaitResult (options : Options) (surroundings : Surroundings) (patience asked : Nat) (state : σ) :
    (Session.awaitResult options surroundings patience asked state).map (fun (ended, after) => (ended, view after)) =
      Session.awaitResult options surroundings patience asked (view state) := by
  induction patience generalizing asked state with
  | zero => rfl
  | succ patience ih =>
    refine map_bind_eq (hview.outstanding .result state) ?_
    rintro ⟨outstanding, polled⟩
    dsimp only
    split
    · rfl
    · split
      · rfl
      · exact ih _ _

theorem start (schedule : Schedule) (state : σ) :
    (Session.start schedule state).map (fun (feed, after) => (feed, view after)) =
      Session.start schedule (view state) := by
  refine map_bind_eq (hview.setEnabled _ state) fun disabled => ?_
  refine map_bind_eq (hview.transport.fill _ disabled) fun ⟨feed, filled⟩ => ?_
  refine map_bind_eq (hview.setCounting _ filled) fun counted => ?_
  exact map_bind_eq (hview.setEnabled _ counted) fun _ => rfl

theorem work (options : Options) (surroundings : Surroundings) (patience : Nat) (feed : Feed) (state : σ) :
    (Session.work options surroundings patience feed state).map (fun (ended, after) => (ended, view after)) =
      Session.work options surroundings patience feed (view state) := by
  refine map_bind_eq (hview.feedAll options surroundings patience 0 feed state) ?_
  rintro ⟨ended, asked, left, fed⟩
  cases ended with
  | done => exact hview.awaitResult options surroundings patience asked fed
  | stopped reason => rfl
  | exhausted => rfl

theorem readStage (state : σ) (stage : Stage) :
    (Session.readStage state stage).map (fun (cycles, after) => (cycles, view after)) =
      Session.readStage (view state) stage := by
  refine map_bind_eq (hview.stateCycles stage .command state) fun _ => ?_
  refine map_bind_eq (hview.stateCycles stage .run _) fun _ => ?_
  refine map_bind_eq (hview.stateCycles stage .send _) fun _ => ?_
  exact map_bind_eq (hview.stateCycles stage .receive _) fun _ => rfl

theorem readCounters (state : σ) :
    (Session.readCounters state).map (fun (counters, after) => (counters, view after)) =
      Session.readCounters (view state) := by
  refine map_bind_eq (hview.readStage state .fetch) fun _ => ?_
  refine map_bind_eq (hview.readStage _ .execute) fun _ => ?_
  refine map_bind_eq (hview.readStage _ .result) fun _ => ?_
  exact map_bind_eq (hview.cycleCount _) fun _ => rfl

theorem halt (state : σ) : (Session.halt state).map view = Session.halt (view state) :=
  map_bind_eq (hview.setEnabled _ state) fun disabled => hview.setCounting _ disabled

/-- A streamed schedule is seen through a view. -/
theorem streamThrough (options : Options) (surroundings : Surroundings) (patience : Nat) (schedule : Schedule)
    (state : σ) :
    (Session.streamThrough options surroundings patience schedule state).map
        (fun (ended, after) => (ended, view after)) =
      Session.streamThrough options surroundings patience schedule (view state) := by
  refine map_bind_eq (hview.start schedule state) fun ⟨feed, started⟩ => ?_
  refine map_bind_eq (hview.work options surroundings patience feed started) fun ⟨ended, worked⟩ => ?_
  cases ended with
  | exhausted => rfl
  | stopped reason =>
    refine map_bind_eq (hview.halt worked) fun halted => ?_
    exact congrArg (fun device => Except.ok (Session.StreamEnd.stopped reason, device)) (hview.reset halted)
  | done =>
    refine map_bind_eq (hview.halt worked) fun halted => ?_
    exact map_bind_eq (hview.readCounters halted) fun _ => rfl

end Accelerator.View

/-- The recorder can be left out. -/
theorem Recorded.view_device : Accelerator.View Recorded.device where
  poll _ recorded := recorded.observe_device _
  push _ recorded := recorded.change_device _
  outstanding _ recorded := recorded.observe_device _
  setEnabled _ recorded := recorded.change_device _
  setCounting _ recorded := recorded.change_device _
  stateCycles _ _ recorded := recorded.observe_device _
  cycleCount recorded := recorded.observe_device _
  reset _ := rfl

end BitSerial
