import BitSerial.Proofs.FeedDelivery
import BitSerial.Proofs.Placement
import BitSerial.Proofs.Positions

/-! # The pace of a feed

A transport that recovers from every push for a number of polls refuses a stream at most once in a pass. So each entry
of a stream has a pass in which it is due: the first one when the stream is no longer busy, and every other as many
passes after the one before it as the stream takes to recover. The poll that ends a visit is a part of that recovery,
which is why a stream that needs none is taken in a single pass. No stream waits for another.
-/

namespace BitSerial

namespace PacedTransport

/-- The entries that were taken from a stream, in order. -/
def takenFrom (transport : PacedTransport) (stream : Stream) : List Entry :=
  (transport.taken.filter fun entry => entry.stream = stream).reverse

/-- The pass in which an entry of a stream is due, with passes counted from one. -/
def due (transport : PacedTransport) (stream : Stream) (position : Nat) : Nat :=
  transport.busy.get stream + 1 + position * transport.recovery.get stream

/-- The number of entries that are taken from a stream of a given length in a number of passes. -/
def arrived (transport : PacedTransport) (stream : Stream) (length passes : Nat) : Nat :=
  if passes ≤ transport.busy.get stream then 0
  else if transport.recovery.get stream = 0 then length
  else min length (1 + (passes - 1 - transport.busy.get stream) / transport.recovery.get stream)

variable {begin transport polled after : PacedTransport} {stream other : Stream} {length begun ended passes left : Nat}

/-- A stream with a number of entries left, when it was visited a number of times and some of the visits are over. What
is taken was due, and what comes next is due in the visit in which the recovery is over. -/
structure OnTime (begin : PacedTransport) (stream : Stream) (length begun ended left : Nat)
    (transport : PacedTransport) : Prop where
  recovery : transport.recovery = begin.recovery
  left_le : left ≤ length
  taken : ∀ position, position + left < length → begin.due stream position ≤ begun
  next : 0 < left → ended + 1 + transport.busy.get stream = begin.due stream (length - left)

namespace OnTime

theorem start (begin : PacedTransport) (stream : Stream) (length : Nat) :
    begin.OnTime stream length 0 0 length begin where
  recovery := rfl
  left_le := Nat.le_refl length
  taken position hposition := absurd hposition (by omega)
  next _ := by
    rw [due, Nat.sub_self]
    omega

/-- A stream that is left alone stays where it is. -/
theorem congr (h : begin.OnTime stream length begun ended left transport)
    (hrecovery : after.recovery = transport.recovery) (hbusy : after.busy.get stream = transport.busy.get stream) :
    begin.OnTime stream length begun ended left after where
  recovery := hrecovery.trans h.recovery
  left_le := h.left_le
  taken := h.taken
  next hleft := hbusy ▸ h.next hleft

/-- A visit begins. -/
theorem visited (h : begin.OnTime stream length passes passes left transport) :
    begin.OnTime stream length (passes + 1) passes left transport where
  recovery := h.recovery
  left_le := h.left_le
  taken position hposition := Nat.le_succ_of_le (h.taken position hposition)
  next := h.next

/-- A visit ends because nothing is left. -/
theorem exhausted (h : begin.OnTime stream length begun ended 0 transport) (passes : Nat) :
    begin.OnTime stream length begun passes 0 transport where
  recovery := h.recovery
  left_le := h.left_le
  taken := h.taken
  next hleft := absurd hleft (Nat.lt_irrefl 0)

/-- A visit ends with a refusal, which is a part of the recovery. -/
theorem refused (h : begin.OnTime stream length begun passes left transport)
    (hpoll : transport.poll stream = (true, after)) : begin.OnTime stream length begun (passes + 1) left after := by
  obtain ⟨hrecovery, hbusy, -⟩ := poll_busy hpoll
  refine ⟨hrecovery.trans h.recovery, h.left_le, h.taken, fun hleft => ?_⟩
  have hnext := h.next hleft
  rw [hbusy rfl] at hnext
  omega

/-- What is taken in a visit is due in it, and the entry after it is due when the stream has recovered once more. -/
theorem pushed (h : begin.OnTime stream length (passes + 1) passes (left + 1) transport)
    (hpoll : transport.poll stream = (false, polled)) {entry : Entry} (hentry : entry.stream = stream) :
    begin.OnTime stream length (passes + 1) passes left (polled.push entry) := by
  obtain ⟨hrecovery, -, hfree, -⟩ := poll_busy hpoll
  have hleft := h.left_le
  have hnext := h.next (Nat.succ_pos left)
  rw [hfree rfl] at hnext
  refine ⟨hrecovery.trans h.recovery, by omega, fun position hposition => ?_, fun _ => ?_⟩
  · rcases Nat.lt_or_ge (position + (left + 1)) length with hearlier | hlast
    · exact h.taken position hearlier
    · obtain rfl : position = length - (left + 1) := by omega
      exact Nat.le_of_eq hnext.symm
  · have hrecovers : (polled.push entry).busy.get stream = begin.recovery.get stream := by
      rw [push, hentry, PerStream.get_set_self, hrecovery, h.recovery]
    have hposition : length - left = length - (left + 1) + 1 := by omega
    rw [hrecovers, hposition, due, Nat.succ_mul]
    rw [due] at hnext
    omega

/-- One visit of a stream. -/
theorem visit {α : Type} {entry : α → Entry} {list rest : List α} {pushed : Nat}
    (h : begin.OnTime stream length (passes + 1) passes list.length transport)
    (hentry : ∀ given ∈ list, (entry given).stream = stream)
    (hvisit : Feed.visit stream entry list transport = .ok (rest, pushed, after)) :
    begin.OnTime stream length (passes + 1) (passes + 1) rest.length after := by
  induction list generalizing transport pushed with
  | nil =>
    cases hvisit
    exact h.exhausted (passes + 1)
  | cons first others ih =>
    simp only [Feed.visit, bind_eq_ok_iff, Prod.exists] at hvisit
    obtain ⟨full, polled, hpolled, hvisit⟩ := hvisit
    cases full with
    | true =>
      cases hvisit
      exact h.refused (poll_eq_ok_iff.mp hpolled)
    | false =>
      obtain ⟨taken, hpushed, hvisit⟩ := bind_eq_ok_iff.mp hvisit
      obtain ⟨⟨later, count, last⟩, hlater, hvisit⟩ := bind_eq_ok_iff.mp hvisit
      cases hvisit
      cases hpushed
      refine ih (h.pushed (poll_eq_ok_iff.mp hpolled) (hentry first List.mem_cons_self)) (fun given hgiven => ?_) hlater
      exact hentry given (List.mem_cons_of_mem first hgiven)

end OnTime

/-- A visit of one stream leaves the other streams alone. -/
theorem visit_frame {α : Type} {entry : α → Entry} {list rest : List α} {pushed : Nat} (hother : other ≠ stream)
    (hentry : ∀ given ∈ list, (entry given).stream = stream)
    (hvisit : Feed.visit stream entry list transport = .ok (rest, pushed, after)) :
    after.recovery = transport.recovery ∧ after.busy.get other = transport.busy.get other := by
  refine (Feed.visit_preserves (fun list later => (∀ given ∈ list, (entry given).stream = stream) ∧
    later.recovery = transport.recovery ∧ later.busy.get other = transport.busy.get other) ?_ ?_ ⟨hentry, rfl, rfl⟩
    hvisit).1.2
  · intro _ _ _ h hpoll
    obtain ⟨hrecovery, -, -, hothers⟩ := poll_busy (poll_eq_ok_iff.mp hpoll)
    exact ⟨h.1, hrecovery.trans h.2.1, (hothers other (.inl hother)).trans h.2.2⟩
  · intro first rest _ polled _ h hpoll hpush
    obtain ⟨hrecovery, -, -, hothers⟩ := poll_busy (poll_eq_ok_iff.mp hpoll)
    cases hpush
    refine ⟨fun given hgiven => h.1 given (List.mem_cons_of_mem first hgiven), hrecovery.trans h.2.1, ?_⟩
    rw [push, h.1 first List.mem_cons_self, PerStream.get_set_of_ne _ _ hother]
    exact (hothers other (.inl hother)).trans h.2.2

/-- What was taken and what is left make up the streams, each with its own entries. -/
structure Sorted (whole left : Stream → List Entry) (transport : PacedTransport) : Prop where
  entries : ∀ stream, transport.takenFrom stream ++ left stream = whole stream
  stream_eq : ∀ stream, ∀ entry ∈ left stream, entry.stream = stream

theorem takenFrom_poll {full : Bool} (h : transport.poll stream = (full, after)) (other : Stream) :
    after.takenFrom other = transport.takenFrom other := by
  unfold poll at h
  dsimp only at h
  split at h <;> cases h <;> rfl

theorem takenFrom_push (transport : PacedTransport) (entry : Entry) (stream : Stream) :
    (transport.push entry).takenFrom stream =
      transport.takenFrom stream ++ if entry.stream = stream then [entry] else [] := by
  unfold takenFrom push
  dsimp only
  rw [List.filter_cons]
  by_cases h : entry.stream = stream
  · simp [h]
  · simp [h]

theorem Sorted.keeps (whole : Stream → List Entry) : Feed.Keeps (Sorted whole) where
  refused h hpoll := ⟨fun stream => takenFrom_poll (poll_eq_ok_iff.mp hpoll) stream ▸ h.entries stream, h.stream_eq⟩
  taken {left _ polled _ stream entry rest} h hnext hpoll hpush := by
    cases hpush
    have hentry : entry.stream = stream := h.stream_eq stream entry (hnext ▸ List.mem_cons_self)
    constructor
    · intro other
      rw [takenFrom_push, takenFrom_poll (poll_eq_ok_iff.mp hpoll), hentry, ← h.entries other]
      by_cases hother : stream = other
      · subst hother
        rw [if_pos rfl, Function.update_self, hnext, List.append_assoc, List.singleton_append]
      · rw [if_neg hother, Function.update_of_ne (Ne.symm hother), List.append_nil]
    · intro other given hgiven
      by_cases hother : stream = other
      · subst hother
        rw [Function.update_self] at hgiven
        exact h.stream_eq stream given (hnext ▸ List.mem_cons_of_mem entry hgiven)
      · rw [Function.update_of_ne (Ne.symm hother)] at hgiven
        exact h.stream_eq other given hgiven

section Passes

variable {whole : Stream → List Entry} {feed fed : Feed}

/-- A visit of a stream brings that stream a pass further. -/
theorem OnTime.visitStream (h : begin.OnTime stream length passes passes (feed.remaining stream) transport)
    (hsorted : Sorted whole feed.left transport) (hvisit : feed.visitStream stream transport = .ok (fed, after)) :
    begin.OnTime stream length (passes + 1) (passes + 1) (fed.remaining stream) after := by
  have hstream := hsorted.stream_eq stream
  cases stream with
  | token stage =>
    simp only [Feed.visitStream, bind_eq_ok_iff, pure_eq_ok_iff, Prod.exists, Prod.mk.injEq] at hvisit
    obtain ⟨rest, pushed, last, hvisit, rfl, rfl⟩ := hvisit
    rw [Feed.remaining, PerStage.get_set_self]
    exact h.visited.visit (fun given hgiven => hstream _ (List.mem_map_of_mem hgiven)) hvisit
  | command stage =>
    simp only [Feed.visitStream, bind_eq_ok_iff, pure_eq_ok_iff, Prod.exists, Prod.mk.injEq] at hvisit
    obtain ⟨rest, pushed, last, hvisit, rfl, rfl⟩ := hvisit
    rw [Feed.remaining, PerStage.get_set_self]
    exact h.visited.visit (fun given hgiven => hstream _ (List.mem_map_of_mem hgiven)) hvisit

/-- A visit of a stream leaves every other stream where it is. -/
theorem OnTime.visitOther (h : begin.OnTime other length begun ended (feed.remaining other) transport)
    (hother : other ≠ stream) (hsorted : Sorted whole feed.left transport)
    (hvisit : feed.visitStream stream transport = .ok (fed, after)) :
    begin.OnTime other length begun ended (fed.remaining other) after := by
  have hstream := hsorted.stream_eq stream
  rw [← Feed.length_left] at h ⊢
  cases stream with
  | token stage =>
    simp only [Feed.visitStream, bind_eq_ok_iff, pure_eq_ok_iff, Prod.exists, Prod.mk.injEq] at hvisit
    obtain ⟨rest, pushed, last, hvisit, rfl, rfl⟩ := hvisit
    obtain ⟨hrecovery, hbusy⟩ := visit_frame hother (fun given hgiven => hstream _ (List.mem_map_of_mem hgiven)) hvisit
    rw [Feed.left_setTokens, Function.update_of_ne hother]
    exact h.congr hrecovery hbusy
  | command stage =>
    simp only [Feed.visitStream, bind_eq_ok_iff, pure_eq_ok_iff, Prod.exists, Prod.mk.injEq] at hvisit
    obtain ⟨rest, pushed, last, hvisit, rfl, rfl⟩ := hvisit
    obtain ⟨hrecovery, hbusy⟩ := visit_frame hother (fun given hgiven => hstream _ (List.mem_map_of_mem hgiven)) hvisit
    rw [Feed.left_setCommands, Function.update_of_ne hother]
    exact h.congr hrecovery hbusy

/-- Visits of other streams leave a stream where it is. -/
theorem OnTime.visitOthers {streams : List Stream} (hother : stream ∉ streams)
    (h : begin.OnTime stream length begun ended (feed.remaining stream) transport)
    (hsorted : Sorted whole feed.left transport)
    (hvisit : Feed.visitStreams streams feed transport = .ok (fed, after)) :
    begin.OnTime stream length begun ended (fed.remaining stream) after := by
  induction streams generalizing feed transport with
  | nil =>
    cases hvisit
    exact h
  | cons first rest ih =>
    obtain ⟨⟨next, middle⟩, hfirst, hrest⟩ := bind_eq_ok_iff.mp hvisit
    have hnext := h.visitOther (List.ne_of_not_mem_cons hother) hsorted hfirst
    exact ih (List.not_mem_of_not_mem_cons hother) hnext ((Sorted.keeps whole).visitStream hsorted hfirst).1 hrest

/-- Visits of different streams bring each of them one pass further. -/
theorem OnTime.visitStreams {streams : List Stream} (hdistinct : streams.Nodup) (hmem : stream ∈ streams)
    (h : begin.OnTime stream length passes passes (feed.remaining stream) transport)
    (hsorted : Sorted whole feed.left transport)
    (hvisit : Feed.visitStreams streams feed transport = .ok (fed, after)) :
    begin.OnTime stream length (passes + 1) (passes + 1) (fed.remaining stream) after := by
  induction streams generalizing feed transport with
  | nil => cases hmem
  | cons first rest ih =>
    obtain ⟨⟨next, middle⟩, hfirst, hrest⟩ := bind_eq_ok_iff.mp hvisit
    obtain ⟨hfirstOnce, hdistinct⟩ := List.nodup_cons.mp hdistinct
    have hnext := ((Sorted.keeps whole).visitStream hsorted hfirst).1
    rcases List.mem_cons.mp hmem with rfl | hlater
    · exact (h.visitStream hsorted hfirst).visitOthers hfirstOnce hnext hrest
    · have hother : stream ≠ first := fun heq => hfirstOnce (heq ▸ hlater)
      exact ih hdistinct hlater (h.visitOther hother hsorted hfirst) hnext hrest

/-- Every pass visits a stream once. -/
theorem OnTime.fillTimes {count : Nat} (h : begin.OnTime stream length passes passes (feed.remaining stream) transport)
    (hsorted : Sorted whole feed.left transport) (hfill : Feed.fillTimes count feed transport = .ok (fed, after)) :
    begin.OnTime stream length (passes + count) (passes + count) (fed.remaining stream) after := by
  induction count generalizing feed transport passes with
  | zero =>
    cases hfill
    exact h
  | succ count ih =>
    obtain ⟨next, middle, hfirst, hrest⟩ := Feed.fillTimes_succ_eq_ok_iff.mp hfill
    have hnext := (Sorted.keeps whole).fill hsorted hfirst
    obtain ⟨visited, hvisited, hnextFeed⟩ := Feed.fill_eq_ok_iff.mp hfirst
    have hvisit := h.visitStreams (by decide) (Stream.mem_all stream) hsorted hvisited
    have hremaining : next.remaining stream = visited.remaining stream := by rw [hnextFeed]; rfl
    rw [← hremaining] at hvisit
    rw [Nat.add_comm count 1, ← Nat.add_assoc]
    exact ih hvisit hnext hrest

/-- Nothing goes wrong in any number of passes. -/
theorem fillTimes_comes_through (count : Nat) (feed : Feed) (transport : PacedTransport) :
    ∃ fed after, Feed.fillTimes count feed transport = .ok (fed, after) := by
  induction count generalizing feed transport with
  | zero => exact ⟨feed, transport, rfl⟩
  | succ count ih =>
    cases hfill : feed.fill transport with
    | error cause => exact absurd (Feed.fill_fault hfill) (not_causes cause)
    | ok next =>
      obtain ⟨fed, after, hrest⟩ := ih next.1 next.2
      exact ⟨fed, after, Feed.fillTimes_succ_eq_ok_iff.mpr ⟨next.1, next.2, hfill, hrest⟩⟩

end Passes

/-- The passes in which entries were due say how many were taken. -/
theorem OnTime.left_eq (h : begin.OnTime stream length passes passes left transport) :
    left = length - begin.arrived stream length passes := by
  have hleft := h.left_le
  -- the last entry that was taken, if any, was due; the next one, if any, is not due yet
  have hlast (htaken : left < length) :
      begin.busy.get stream + 1 + (length - left - 1) * begin.recovery.get stream ≤ passes :=
    h.taken (length - left - 1) (by omega)
  have hnext (hmore : 0 < left) : passes ≤ begin.busy.get stream + (length - left) * begin.recovery.get stream := by
    have hdue := h.next hmore
    rw [due] at hdue
    omega
  unfold arrived
  split_ifs with hearly hrecovery
  · by_contra htaken
    have := hlast (by omega)
    omega
  · rw [hrecovery] at hnext
    omega
  · have hslow : 0 < begin.recovery.get stream := Nat.pos_of_ne_zero hrecovery
    have htaken : 0 < length → left < length := by
      intro hlength
      by_contra hnone
      obtain rfl : left = length := by omega
      have := hnext hlength
      rw [Nat.sub_self, Nat.zero_mul] at this
      omega
    generalize hrecoveries : (passes - 1 - begin.busy.get stream) / begin.recovery.get stream = recoveries
    have hatLeast : left < length → length - left - 1 ≤ recoveries := by
      intro htaken
      have := hlast htaken
      rw [← hrecoveries, Nat.le_div_iff_mul_le hslow]
      omega
    have hatMost : 0 < left → recoveries < length - left := by
      intro hmore
      have := hnext hmore
      rw [← hrecoveries, Nat.div_lt_iff_lt_mul hslow]
      omega
    omega

/-- A stream is at its end when its last entry was due. -/
theorem OnTime.left_eq_zero_iff (h : begin.OnTime stream length passes passes left transport) (hlength : 0 < length) :
    left = 0 ↔ begin.due stream (length - 1) ≤ passes := by
  constructor
  · rintro rfl
    exact h.taken (length - 1) (by omega)
  · intro hlast
    by_contra hmore
    have hnext := h.next (Nat.pos_of_ne_zero hmore)
    have hposition : length - left ≤ length - 1 := by omega
    have hlater := Nat.mul_le_mul_right (begin.recovery.get stream) hposition
    rw [due] at hlast hnext
    omega

/-- The pass in which the last entry of a schedule is due. -/
def lastDue (transport : PacedTransport) (schedule : Schedule) : Nat :=
  (Stream.all.map fun stream => transport.due stream ((schedule.entries stream).length - 1)).foldr max 0

theorem lastDue_le_iff {schedule : Schedule} : transport.lastDue schedule ≤ passes ↔
    ∀ stream, transport.due stream ((schedule.entries stream).length - 1) ≤ passes := by
  constructor
  · intro h stream
    rcases stream with (_ | _ | _) | (_ | _ | _) <;>
      simp only [lastDue, Stream.all, List.map, List.foldr, Nat.max_le] at h <;> simp only [h]
  · intro h
    simp only [lastDue, Stream.all, List.map, List.foldr, Nat.max_le, h, Nat.zero_le, and_self]

end PacedTransport

/-- Every stream of a schedule has entries. -/
theorem Layout.entries_pos {layout : Layout} (hplan : TilePlan.ofGemm layout.geometry layout.gemm = .ok layout.plan)
    {start last : Residency} {schedule : Schedule} (hschedule : layout.schedule start = .ok (schedule, last))
    (stream : Stream) : 0 < (schedule.entries stream).length := by
  have hcuts := TilePlan.ofGemm_cuts hplan
  obtain ⟨bandPairs, steps, results, hwritten⟩ := Layout.schedule_written hschedule
  have hrotates := hwritten.rotates
  have hresult : 0 < schedule.result.length := hwritten.result_length ▸ hcuts.outputCount_pos
  have hexecute : 0 < schedule.execute.length := hrotates.execute_length ▸ Nat.mul_pos hresult hcuts.stepCount_pos
  have hprogram (stage : Stage) : 0 < (schedule.program stage).length := by
    cases stage with
    | fetch => rwa [schedule.program_fetch_length, hrotates.fetch_length]
    | execute => rwa [schedule.program_execute_length]
    | result => rwa [schedule.program_result_length]
  cases stream with
  | token stage => exact (List.length_map _).symm ▸ hprogram stage
  | command stage => exact (List.length_map _).symm ▸ hprogram stage

/-- A schedule that is fed to a transport that recovers from its pushes arrives at a pace that each stream sets for
itself. After any number of passes, what has arrived on a stream follows from its length, from how long it was busy and
from how long it takes to recover, whatever the other streams do. All is pushed as soon as the last entry of every
stream was due. -/
theorem feeding_paced {layout : Layout} (hplan : TilePlan.ofGemm layout.geometry layout.gemm = .ok layout.plan)
    {start last : Residency} {schedule : Schedule} (hschedule : layout.schedule start = .ok (schedule, last))
    (transport : PacedTransport) (passes : Nat) :
    ∃ feed after, Feed.fillTimes passes (.ofSchedule schedule) transport = .ok (feed, after) ∧
      (∀ stream,
        let arrived := transport.arrived stream (schedule.entries stream).length passes
        after.takenFrom stream = transport.takenFrom stream ++ (schedule.entries stream).take arrived ∧
          feed.left stream = (schedule.entries stream).drop arrived) ∧
      (feed.allPushed = true ↔ transport.lastDue schedule ≤ passes) := by
  obtain ⟨feed, after, hfill⟩ := PacedTransport.fillTimes_comes_through passes (.ofSchedule schedule) transport
  have hstart : PacedTransport.Sorted (fun stream => transport.takenFrom stream ++ schedule.entries stream)
      (Feed.ofSchedule schedule).left transport := by
    rw [schedule.left_ofSchedule]
    exact ⟨fun _ => rfl, fun stream _ => schedule.stream_of_mem_entries⟩
  have hsorted := (PacedTransport.Sorted.keeps _).fillTimes hstart hfill
  have hontime (stream : Stream) : transport.OnTime stream (schedule.entries stream).length passes passes
      (feed.remaining stream) after := by
    have hfirst := PacedTransport.OnTime.start transport stream (schedule.entries stream).length
    rw [← schedule.left_ofSchedule, Feed.length_left] at hfirst ⊢
    simpa only [Nat.zero_add] using hfirst.fillTimes hstart hfill
  refine ⟨feed, after, hfill, fun stream => ?_, ?_⟩
  · have hlength := (hontime stream).left_eq
    rw [← Feed.length_left, ← List.length_drop] at hlength
    refine List.append_inj' ?_ hlength
    rw [List.append_assoc, List.take_append_drop]
    exact hsorted.entries stream
  · rw [Feed.allPushed_iff_left, PacedTransport.lastDue_le_iff]
    refine forall_congr' fun stream => ?_
    rw [← (hontime stream).left_eq_zero_iff (Layout.entries_pos hplan hschedule stream), ← Feed.length_left,
      List.length_eq_zero_iff]

/-- A transport whose streams recover at different paces. -/
def unevenTransport : PacedTransport where
  recovery := ⟨⟨3, 0, 1⟩, ⟨1, 2, 0⟩⟩
  busy := ⟨⟨0, 5, 2⟩, ⟨4, 0, 7⟩⟩
  polls := 0
  taken := []

/-- The fetch tokens of the tiled product are the last to arrive: the pass before they are due is one too few. -/
theorem feeding_paced_tiled :
    ∃ schedule last, tiledLayout.schedule .fresh = .ok (schedule, last) ∧ unevenTransport.lastDue schedule = 70 ∧
      (∃ feed after, Feed.fillTimes 69 (.ofSchedule schedule) unevenTransport = .ok (feed, after) ∧
        feed.allPushed = false) ∧
      ∃ feed after, Feed.fillTimes 70 (.ofSchedule schedule) unevenTransport = .ok (feed, after) ∧
        feed.allPushed = true := by
  have hdue : (tiledLayout.schedule .fresh).toOption.map (fun written => unevenTransport.lastDue written.1) =
      some 70 := by decide +kernel
  obtain ⟨⟨schedule, last⟩, hwritten, hdue⟩ := Option.map_eq_some_iff.mp hdue
  have hschedule := toOption_eq_some_iff.mp hwritten
  obtain ⟨feed, after, hfill, -, hpushed⟩ := feeding_paced tiledLayout_plan hschedule unevenTransport 70
  obtain ⟨earlyFeed, earlyAfter, hearly, -, hunfinished⟩ := feeding_paced tiledLayout_plan hschedule unevenTransport 69
  rw [hdue] at hpushed hunfinished
  refine ⟨schedule, last, hschedule, hdue, ⟨earlyFeed, earlyAfter, hearly, ?_⟩, feed, after, hfill, hpushed.mpr le_rfl⟩
  exact Bool.eq_false_iff.mpr fun hall => absurd (hunfinished.mp hall) (by decide)

end BitSerial
