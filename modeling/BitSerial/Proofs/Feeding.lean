import Mathlib.Algebra.GroupWithZero.Nat
import Mathlib.Logic.Function.Basic
import BitSerial.Feed
import BitSerial.Proofs.Turn

/-! # What feeding keeps

Feeding does two things to a transport: it asks about a stream and is refused, or it asks, finds room, and pushes the
entry that comes next on that stream. What both of these keep, of the transport and of what is left on the streams, is
kept by visits, by passes and by any number of passes. What one pass adds where a stream is not at its end is said by
the refusal that ended the visit of that stream.

Apart from that, feeding conserves entries, goes wrong only where the transport does, and shows through every view of a
transport.
-/

namespace BitSerial

namespace Stream

/-- A sum over all streams in which the summand of one stream is replaced. -/
theorem sum_update (f : Stream → Nat) (stream : Stream) (count : Nat) :
    (all.map (Function.update f stream count)).sum + f stream = (all.map f).sum + count := by
  rcases stream with (_ | _ | _) | (_ | _ | _) <;> simp [all, Function.update] <;> omega

end Stream

namespace Feed

theorem exhausted_iff {feed : Feed} {stream : Stream} : feed.exhausted stream = true ↔ feed.left stream = [] := by
  cases stream <;> simp [exhausted, left]

/-- All is pushed when no stream has anything left. -/
theorem allPushed_iff_left {feed : Feed} : feed.allPushed = true ↔ ∀ stream, feed.left stream = [] := by
  simp only [allPushed, List.all_eq_true, exhausted_iff]
  exact ⟨fun h stream => h stream (Stream.mem_all stream), fun h stream _ => h stream⟩

theorem left_setTokens (feed : Feed) (stage : Stage) (list : List Token) (pushed : Nat) :
    { feed with tokens := feed.tokens.set list stage, pushed }.left =
      Function.update feed.left (.token stage) (list.map (.token stage)) := by
  funext stream
  by_cases hstream : stream = .token stage
  · subst hstream
    simp [left]
  · rw [Function.update_of_ne hstream]
    cases stream with
    | token other =>
      have hother : other ≠ stage := fun h => hstream (h ▸ rfl)
      simp only [left, PerStage.get_set_of_ne feed.tokens list hother]
    | command other => rfl

theorem left_setCommands (feed : Feed) (stage : Stage) (list : List Command) (pushed : Nat) :
    { feed with commands := feed.commands.set list stage, pushed }.left =
      Function.update feed.left (.command stage) (list.map .command) := by
  funext stream
  by_cases hstream : stream = .command stage
  · subst hstream
    simp [left]
  · rw [Function.update_of_ne hstream]
    cases stream with
    | token other => rfl
    | command other =>
      have hother : other ≠ stage := fun h => hstream (h ▸ rfl)
      simp only [left, PerStage.get_set_of_ne feed.commands list hother]

theorem length_left (feed : Feed) (stream : Stream) : (feed.left stream).length = feed.remaining stream := by
  cases stream <;> exact List.length_map _

/-- The entries that were pushed and those that are left. -/
def total (feed : Feed) : Nat := feed.pushed + (Stream.all.map fun stream => (feed.left stream).length).sum

/-- Entries taken from one stream and counted as pushed leave the total. -/
theorem total_eq_of_update {feed fed : Feed} {stream : Stream} {list : List Entry} {pushed : Nat}
    (hleft : fed.left = Function.update feed.left stream list) (hpushed : fed.pushed = feed.pushed + pushed)
    (hlength : list.length + pushed = (feed.left stream).length) : fed.total = feed.total := by
  have hlengths : (fun other => (fed.left other).length) =
      Function.update (fun other => (feed.left other).length) stream list.length := by
    rw [hleft]
    exact Function.comp_update List.length feed.left stream list
  have hsum := Stream.sum_update (fun other => (feed.left other).length) stream list.length
  rw [total, total, hlengths, hpushed]
  omega

variable {σ : Type} [Transport σ]

/-- A number of passes. -/
def fillTimes : Nat → Feed → σ → Except Fault (Feed × σ)
  | 0, feed, transport => .ok (feed, transport)
  | count + 1, feed, transport => do
    let (feed, transport) ← feed.fill transport
    fillTimes count feed transport

/-- Passes as long as something is left, up to a number of them. -/
def drain : Nat → Feed → σ → Except Fault (Feed × σ)
  | 0, feed, transport => .ok (feed, transport)
  | bound + 1, feed, transport =>
    if feed.allPushed then .ok (feed, transport)
    else do
      let (feed, transport) ← feed.fill transport
      drain bound feed transport

theorem fillTimes_succ_eq_ok_iff {count : Nat} {feed last : Feed} {transport after : σ} :
    fillTimes (count + 1) feed transport = .ok (last, after) ↔
      ∃ next middle, feed.fill transport = .ok (next, middle) ∧ fillTimes count next middle = .ok (last, after) := by
  simp only [fillTimes, bind_eq_ok_iff, Prod.exists]

theorem fill_eq_ok_iff {feed fed : Feed} {transport after : σ} :
    feed.fill transport = .ok (fed, after) ↔ ∃ visited, visitStreams Stream.all feed transport = .ok (visited, after) ∧
      fed = { visited with passes := visited.passes + 1 } := by
  simp only [fill, bind_eq_ok_iff, pure_eq_ok_iff, Prod.exists, Prod.mk.injEq]
  constructor
  · rintro ⟨visited, last, hvisited, rfl, rfl⟩
    exact ⟨visited, hvisited, rfl⟩
  · rintro ⟨visited, hvisited, rfl⟩
    exact ⟨visited, after, hvisited, rfl, rfl⟩

/-- A stream with nothing left is not asked about. -/
theorem visitStream_of_nil {feed : Feed} {stream : Stream} (h : feed.left stream = []) (transport : σ) :
    feed.visitStream stream transport = .ok (feed, transport) := by
  cases stream with
  | token stage =>
    have hnil : feed.tokens.get stage = [] := List.map_eq_nil_iff.mp h
    have hsame : feed.tokens.set [] stage = feed.tokens := hnil ▸ feed.tokens.set_get_self stage
    simp only [visitStream, hnil, visit]
    change Except.ok ({ feed with tokens := feed.tokens.set [] stage }, transport) = _
    rw [hsame]
  | command stage =>
    have hnil : feed.commands.get stage = [] := List.map_eq_nil_iff.mp h
    have hsame : feed.commands.set [] stage = feed.commands := hnil ▸ feed.commands.set_get_self stage
    simp only [visitStream, hnil, visit]
    change Except.ok ({ feed with commands := feed.commands.set [] stage }, transport) = _
    rw [hsame]

/-- When all is pushed, a pass leaves the transport alone. -/
theorem fill_of_allPushed {feed : Feed} (h : feed.allPushed = true) (transport : σ) :
    feed.fill transport = .ok ({ feed with passes := feed.passes + 1 }, transport) := by
  rw [allPushed_iff_left] at h
  have hvisit (streams : List Stream) : visitStreams streams feed transport = .ok (feed, transport) := by
    induction streams with
    | nil => rfl
    | cons stream rest ih => exact bind_eq_ok_iff.mpr ⟨_, visitStream_of_nil (h stream) transport, ih⟩
  exact fill_eq_ok_iff.mpr ⟨feed, hvisit _, rfl⟩

section Keeps

/-- What polls and pushes of one stream keep, a visit of that stream keeps. It ends when nothing is left, or with a poll
that says that the queue is full. -/
theorem visit_preserves {α : Type} {stream : Stream} {entry : α → Entry} (keeps : List α → σ → Prop)
    (hrefused : ∀ {list transport after}, keeps list transport → Transport.poll stream transport = .ok (true, after) →
      keeps list after)
    (htaken : ∀ {first rest transport polled after}, keeps (first :: rest) transport →
      Transport.poll stream transport = .ok (false, polled) → Transport.push (entry first) polled = .ok after →
      keeps rest after)
    {list rest : List α} {pushed : Nat} {transport after : σ} (h : keeps list transport)
    (hvisit : visit stream entry list transport = .ok (rest, pushed, after)) :
    keeps rest after ∧ (rest = [] ∨ ∃ before, keeps rest before ∧ Transport.poll stream before = .ok (true, after)) := by
  induction list generalizing transport pushed with
  | nil =>
    cases hvisit
    exact ⟨h, .inl rfl⟩
  | cons first others ih =>
    simp only [visit, bind_eq_ok_iff, Prod.exists] at hvisit
    obtain ⟨full, polled, hpolled, hvisit⟩ := hvisit
    cases full with
    | true =>
      cases hvisit
      exact ⟨hrefused h hpolled, .inr ⟨transport, h, hpolled⟩⟩
    | false =>
      obtain ⟨taken, hpushed, hvisit⟩ := bind_eq_ok_iff.mp hvisit
      obtain ⟨⟨later, count, last⟩, hlater, hvisit⟩ := bind_eq_ok_iff.mp hvisit
      cases hvisit
      exact ih (htaken h hpolled hpushed) hlater

/-- What holds of a transport and of what is left on the streams, however it is fed. -/
structure Keeps (keeps : (Stream → List Entry) → σ → Prop) : Prop where
  /-- A stream is asked about and refused. -/
  refused : ∀ {left transport after stream}, keeps left transport →
    Transport.poll stream transport = .ok (true, after) → keeps left after
  /-- A stream is asked about, has room and takes what comes next. -/
  taken : ∀ {left transport polled after stream entry rest}, keeps left transport → left stream = entry :: rest →
    Transport.poll stream transport = .ok (false, polled) → Transport.push entry polled = .ok after →
    keeps (Function.update left stream rest) after

namespace Keeps

variable {keeps raised : (Stream → List Entry) → σ → Prop} {feed fed : Feed} {transport after : σ}

/-- A visit ends when nothing is left, or when it is refused. -/
theorem visit (hkeeps : Keeps keeps) {α : Type} {stream : Stream} {entry : α → Entry} {left : Stream → List Entry}
    {list rest : List α} {pushed : Nat} (h : keeps (Function.update left stream (list.map entry)) transport)
    (hvisit : Feed.visit stream entry list transport = .ok (rest, pushed, after)) :
    keeps (Function.update left stream (rest.map entry)) after ∧
      (rest = [] ∨ ∃ before, keeps (Function.update left stream (rest.map entry)) before ∧
        Transport.poll stream before = .ok (true, after)) := by
  refine visit_preserves (fun list transport => keeps (Function.update left stream (list.map entry)) transport)
    hkeeps.refused (fun {first rest _ _ _} h hpolled hpushed => ?_) h hvisit
  have hnext := hkeeps.taken h (Function.update_self ..) hpolled hpushed
  rwa [Function.update_idem] at hnext

theorem visitStream (hkeeps : Keeps keeps) {stream : Stream} (h : keeps feed.left transport)
    (hvisit : feed.visitStream stream transport = .ok (fed, after)) :
    keeps fed.left after ∧ (fed.left stream = [] ∨
      ∃ before, keeps fed.left before ∧ Transport.poll stream before = .ok (true, after)) := by
  cases stream with
  | token stage =>
    simp only [Feed.visitStream, bind_eq_ok_iff, pure_eq_ok_iff, Prod.exists, Prod.mk.injEq] at hvisit
    obtain ⟨rest, pushed, last, hvisit, rfl, rfl⟩ := hvisit
    rw [← Function.update_eq_self (.token stage) feed.left] at h
    rw [left_setTokens, Function.update_self, List.map_eq_nil_iff]
    exact hkeeps.visit h hvisit
  | command stage =>
    simp only [Feed.visitStream, bind_eq_ok_iff, pure_eq_ok_iff, Prod.exists, Prod.mk.injEq] at hvisit
    obtain ⟨rest, pushed, last, hvisit, rfl, rfl⟩ := hvisit
    rw [← Function.update_eq_self (.command stage) feed.left] at h
    rw [left_setCommands, Function.update_self, List.map_eq_nil_iff]
    exact hkeeps.visit h hvisit

theorem visitStreams (hkeeps : Keeps keeps) {streams : List Stream} (h : keeps feed.left transport)
    (hvisit : Feed.visitStreams streams feed transport = .ok (fed, after)) : keeps fed.left after := by
  induction streams generalizing feed transport with
  | nil =>
    cases hvisit
    exact h
  | cons stream rest ih =>
    obtain ⟨⟨next, visited⟩, hfirst, hrest⟩ := bind_eq_ok_iff.mp hvisit
    exact ih (hkeeps.visitStream h hfirst).1 hrest

/-- What a stream at its end and a refusal of that stream both bring about, visits of streams bring about if that stream
is among them. -/
theorem visitStreams_raises (hkeeps : Keeps keeps) (hraised : Keeps raised) {stream : Stream} {streams : List Stream}
    (hvisited : stream ∈ streams) (hend : ∀ {left transport}, left stream = [] → raised left transport)
    (hrefused : ∀ {left transport after}, keeps left transport → Transport.poll stream transport = .ok (true, after) →
      raised left after)
    (h : keeps feed.left transport)
    (hvisit : Feed.visitStreams streams feed transport = .ok (fed, after)) : raised fed.left after := by
  induction streams generalizing feed transport with
  | nil => cases hvisited
  | cons first rest ih =>
    obtain ⟨⟨next, visited⟩, hfirst, hrest⟩ := bind_eq_ok_iff.mp hvisit
    obtain ⟨hkept, hended⟩ := hkeeps.visitStream h hfirst
    rcases List.mem_cons.mp hvisited with rfl | hlater
    · refine hraised.visitStreams ?_ hrest
      rcases hended with hnil | ⟨before, hbefore, hpolled⟩
      · exact hend hnil
      · exact hrefused hbefore hpolled
    · exact ih hlater hkept hrest

theorem fill (hkeeps : Keeps keeps) (h : keeps feed.left transport)
    (hfill : feed.fill transport = .ok (fed, after)) : keeps fed.left after := by
  obtain ⟨visited, hvisited, rfl⟩ := fill_eq_ok_iff.mp hfill
  exact (hkeeps.visitStreams h hvisited : keeps visited.left after)

/-- A pass visits every stream. -/
theorem fill_raises (hkeeps : Keeps keeps) (hraised : Keeps raised) {stream : Stream}
    (hend : ∀ {left transport}, left stream = [] → raised left transport)
    (hrefused : ∀ {left transport after}, keeps left transport → Transport.poll stream transport = .ok (true, after) →
      raised left after)
    (h : keeps feed.left transport) (hfill : feed.fill transport = .ok (fed, after)) : raised fed.left after := by
  obtain ⟨visited, hvisited, rfl⟩ := fill_eq_ok_iff.mp hfill
  exact (hkeeps.visitStreams_raises hraised (Stream.mem_all stream) hend hrefused h hvisited : raised visited.left after)

theorem fillTimes (hkeeps : Keeps keeps) {count : Nat} (h : keeps feed.left transport)
    (hfill : Feed.fillTimes count feed transport = .ok (fed, after)) : keeps fed.left after := by
  induction count generalizing feed transport with
  | zero =>
    cases hfill
    exact h
  | succ count ih =>
    obtain ⟨next, middle, hfirst, hrest⟩ := fillTimes_succ_eq_ok_iff.mp hfill
    exact ih (hkeeps.fill h hfirst) hrest

end Keeps

end Keeps

section Total

variable {feed fed : Feed} {transport after : σ}

theorem visit_length {α : Type} {stream : Stream} {entry : α → Entry} {list rest : List α} {pushed : Nat}
    (h : visit stream entry list transport = .ok (rest, pushed, after)) : rest.length + pushed = list.length := by
  induction list generalizing transport pushed with
  | nil =>
    cases h
    rfl
  | cons first others ih =>
    simp only [visit, bind_eq_ok_iff, Prod.exists] at h
    obtain ⟨full, polled, -, h⟩ := h
    cases full with
    | true =>
      cases h
      rfl
    | false =>
      obtain ⟨taken, -, h⟩ := bind_eq_ok_iff.mp h
      obtain ⟨⟨later, count, last⟩, hlater, h⟩ := bind_eq_ok_iff.mp h
      cases h
      have hlength : later.length + count = others.length := ih hlater
      change later.length + (count + 1) = others.length + 1
      omega

theorem visitStream_total {stream : Stream} (h : feed.visitStream stream transport = .ok (fed, after)) :
    fed.total = feed.total := by
  cases stream with
  | token stage =>
    simp only [visitStream, bind_eq_ok_iff, pure_eq_ok_iff, Prod.exists, Prod.mk.injEq] at h
    obtain ⟨rest, pushed, last, hvisit, rfl, rfl⟩ := h
    refine total_eq_of_update (feed.left_setTokens stage rest _) rfl ?_
    rw [List.length_map, left, List.length_map]
    exact visit_length hvisit
  | command stage =>
    simp only [visitStream, bind_eq_ok_iff, pure_eq_ok_iff, Prod.exists, Prod.mk.injEq] at h
    obtain ⟨rest, pushed, last, hvisit, rfl, rfl⟩ := h
    refine total_eq_of_update (feed.left_setCommands stage rest _) rfl ?_
    rw [List.length_map, left, List.length_map]
    exact visit_length hvisit

theorem visitStreams_total {streams : List Stream} (h : visitStreams streams feed transport = .ok (fed, after)) :
    fed.total = feed.total := by
  induction streams generalizing feed transport with
  | nil =>
    cases h
    rfl
  | cons stream rest ih =>
    obtain ⟨⟨next, visited⟩, hfirst, hrest⟩ := bind_eq_ok_iff.mp h
    exact (ih hrest).trans (visitStream_total hfirst)

/-- No entry is lost or made by feeding. -/
theorem fillTimes_total {count : Nat} (h : fillTimes count feed transport = .ok (fed, after)) :
    fed.total = feed.total := by
  induction count generalizing feed transport with
  | zero =>
    cases h
    rfl
  | succ count ih =>
    obtain ⟨next, middle, hfirst, hrest⟩ := fillTimes_succ_eq_ok_iff.mp h
    obtain ⟨visited, hvisited, rfl⟩ := fill_eq_ok_iff.mp hfirst
    exact (ih hrest).trans (visitStreams_total hvisited : visited.total = feed.total)

theorem visitStreams_passes {streams : List Stream} (h : visitStreams streams feed transport = .ok (fed, after)) :
    fed.passes = feed.passes := by
  induction streams generalizing feed transport with
  | nil =>
    cases h
    rfl
  | cons stream rest ih =>
    obtain ⟨⟨next, visited⟩, hfirst, hrest⟩ := bind_eq_ok_iff.mp h
    refine (ih hrest).trans ?_
    cases stream <;>
    · simp only [visitStream, bind_eq_ok_iff, pure_eq_ok_iff, Prod.exists, Prod.mk.injEq] at hfirst
      obtain ⟨-, -, -, -, rfl, -⟩ := hfirst
      rfl

theorem fillTimes_passes {count : Nat} (h : fillTimes count feed transport = .ok (fed, after)) :
    fed.passes = feed.passes + count := by
  induction count generalizing feed transport with
  | zero =>
    cases h
    rfl
  | succ count ih =>
    obtain ⟨next, middle, hfirst, hrest⟩ := fillTimes_succ_eq_ok_iff.mp h
    obtain ⟨visited, hvisited, rfl⟩ := fill_eq_ok_iff.mp hfirst
    have hpasses : fed.passes = visited.passes + 1 + count := ih hrest
    rw [hpasses, visitStreams_passes hvisited]
    omega

end Total

section Faults

/-- Faults that can come out of polls and pushes. -/
def Causes (σ : Type) [Transport σ] (cause : Fault) : Prop :=
  ∃ transport : σ, (∃ stream, Transport.poll stream transport = .error cause) ∨
    ∃ entry, Transport.push entry transport = .error cause

variable {feed : Feed} {transport : σ} {cause : Fault}

theorem visit_fault {α : Type} {stream : Stream} {entry : α → Entry} {list : List α}
    (h : visit stream entry list transport = .error cause) : Causes σ cause := by
  induction list generalizing transport with
  | nil => cases h
  | cons first rest ih =>
    rcases bind_eq_error_iff.mp h with hpoll | ⟨⟨full, polled⟩, -, h⟩
    · exact ⟨transport, .inl ⟨stream, hpoll⟩⟩
    cases full with
    | true => cases h
    | false =>
      rcases bind_eq_error_iff.mp h with hpush | ⟨taken, -, h⟩
      · exact ⟨polled, .inr ⟨entry first, hpush⟩⟩
      · exact ih ((bind_eq_error_iff.mp h).resolve_right nofun)

theorem visitStream_fault {stream : Stream} (h : feed.visitStream stream transport = .error cause) :
    Causes σ cause := by
  cases stream with
  | token stage => exact visit_fault ((bind_eq_error_iff.mp h).resolve_right nofun)
  | command stage => exact visit_fault ((bind_eq_error_iff.mp h).resolve_right nofun)

theorem visitStreams_fault {streams : List Stream} (h : visitStreams streams feed transport = .error cause) :
    Causes σ cause := by
  induction streams generalizing feed transport with
  | nil => cases h
  | cons stream rest ih =>
    rcases bind_eq_error_iff.mp h with hfirst | ⟨_, -, hrest⟩
    · exact visitStream_fault hfirst
    · exact ih hrest

theorem fill_fault (h : feed.fill transport = .error cause) : Causes σ cause :=
  visitStreams_fault ((bind_eq_error_iff.mp h).resolve_right nofun)

/-- Feeding goes wrong only where the transport does. -/
theorem drain_fault {bound : Nat} (h : drain bound feed transport = .error cause) : Causes σ cause := by
  induction bound generalizing feed transport with
  | zero => cases h
  | succ bound ih =>
    unfold drain at h
    split at h
    · cases h
    · rcases bind_eq_error_iff.mp h with hfill | ⟨_, -, hrest⟩
      · exact fill_fault hfill
      · exact ih hrest

end Faults

/-- A drain is a number of passes. It ends early only when all is pushed. -/
theorem drain_eq_ok {bound : Nat} {feed fed : Feed} {transport after : σ}
    (h : drain bound feed transport = .ok (fed, after)) :
    ∃ count ≤ bound, fillTimes count feed transport = .ok (fed, after) ∧ (fed.allPushed = true ∨ count = bound) := by
  induction bound generalizing feed transport with
  | zero =>
    cases h
    exact ⟨0, Nat.le_refl _, rfl, .inr rfl⟩
  | succ bound ih =>
    unfold drain at h
    split at h
    next hpushed =>
      cases h
      exact ⟨0, Nat.zero_le _, rfl, .inl hpushed⟩
    next =>
      obtain ⟨⟨next, middle⟩, hfill, hrest⟩ := bind_eq_ok_iff.mp h
      obtain ⟨count, hcount, hpasses, hended⟩ := ih hrest
      refine ⟨count + 1, Nat.succ_le_succ hcount, ?_, hended.imp_right (congrArg _)⟩
      exact fillTimes_succ_eq_ok_iff.mpr ⟨next, middle, hfill, hpasses⟩

end Feed

/-- Every poll and every push shows through the view as the same poll or push. -/
structure Transport.View {σ τ : Type} [Transport σ] [Transport τ] (view : σ → τ) : Prop where
  poll : ∀ stream state, (Transport.poll stream state).map (fun (full, after) => (full, view after)) =
    Transport.poll stream (view state)
  push : ∀ entry state, (Transport.push entry state).map view = Transport.push entry (view state)

namespace Transport.View

variable {σ τ : Type} [Transport σ] [Transport τ] {view : σ → τ} (hview : View view)

include hview

theorem visit {α : Type} (stream : Stream) (entry : α → Entry) (list : List α) (state : σ) :
    (Feed.visit stream entry list state).map (fun (left, pushed, after) => (left, pushed, view after)) =
      Feed.visit stream entry list (view state) := by
  induction list generalizing state with
  | nil => rfl
  | cons first rest ih =>
    refine map_bind_eq (hview.poll stream state) ?_
    rintro ⟨full, polled⟩
    cases full with
    | true => rfl
    | false =>
      refine map_bind_eq (hview.push (entry first) polled) fun pushed => ?_
      exact map_bind_eq (ih pushed) fun _ => rfl

theorem visitStream (feed : Feed) (stream : Stream) (state : σ) :
    (feed.visitStream stream state).map (fun (feed, after) => (feed, view after)) =
      feed.visitStream stream (view state) := by
  cases stream with
  | token stage => exact map_bind_eq (hview.visit _ _ _ _) fun _ => rfl
  | command stage => exact map_bind_eq (hview.visit _ _ _ _) fun _ => rfl

theorem visitStreams (streams : List Stream) (feed : Feed) (state : σ) :
    (Feed.visitStreams streams feed state).map (fun (feed, after) => (feed, view after)) =
      Feed.visitStreams streams feed (view state) := by
  induction streams generalizing feed state with
  | nil => rfl
  | cons stream rest ih => exact map_bind_eq (hview.visitStream feed stream state) fun _ => ih _ _

theorem fill (feed : Feed) (state : σ) :
    (feed.fill state).map (fun (feed, after) => (feed, view after)) = feed.fill (view state) :=
  map_bind_eq (hview.visitStreams _ feed state) fun _ => rfl

theorem fillTimes (count : Nat) (feed : Feed) (state : σ) :
    (Feed.fillTimes count feed state).map (fun (feed, after) => (feed, view after)) =
      Feed.fillTimes count feed (view state) := by
  induction count generalizing feed state with
  | zero => rfl
  | succ count ih => exact map_bind_eq (hview.fill feed state) fun _ => ih _ _

theorem drain (bound : Nat) (feed : Feed) (state : σ) :
    (Feed.drain bound feed state).map (fun (feed, after) => (feed, view after)) = Feed.drain bound feed (view state) := by
  induction bound generalizing feed state with
  | zero => rfl
  | succ bound ih =>
    unfold Feed.drain
    split
    · rfl
    · exact map_bind_eq (hview.fill feed state) fun _ => ih _ _

end Transport.View

end BitSerial
