import BitSerial.Proofs.Feeding

/-! # The conversation of a feed and a transport

A feed and a transport talk through polls and pushes. Listening to them makes no difference, and what is heard says all
that a schedule asks of its feed: whatever a transport answers, and however it changes while it is asked, the entries of
each stream arrive once and in order, and none of them is pushed without a word that there is room for it.

That a transport has room again and again is also a matter of what is heard: it is patient with a feed if no stream is
refused too often in a row. Such a feed comes to its end within a number of passes that the longest stream gives.
-/

namespace BitSerial

/-- A call of a transport, with the answer. -/
inductive Call where
  | polled (stream : Stream) (full : Bool)
  | pushed (entry : Entry)
  deriving DecidableEq, Repr

namespace Call

/-- The entry that a call pushes on a stream. -/
def pushed? (stream : Stream) : Call → Option Entry
  | .polled _ _ => none
  | .pushed entry => if entry.stream = stream then some entry else none

/-- What a call is told about a stream. -/
def answer? (stream : Stream) : Call → Option Bool
  | .polled other full => if other = stream then some full else none
  | .pushed _ => none

end Call

/-- A transport with the calls that were made of it, in order. -/
structure Overheard (σ : Type) where
  transport : σ
  calls : List Call

namespace Overheard

variable {σ : Type}

/-- The entries that were pushed on a stream. -/
def pushedOn (overheard : Overheard σ) (stream : Stream) : List Entry := overheard.calls.filterMap (Call.pushed? stream)

/-- What was said about a stream. -/
def answers (overheard : Overheard σ) (stream : Stream) : List Bool := overheard.calls.filterMap (Call.answer? stream)

/-- Directly before each push the transport said that the stream of the entry has room. -/
def AskedFirst (overheard : Overheard σ) : Prop :=
  ∀ position entry, overheard.calls[position]? = some (.pushed entry) →
    ∃ before, position = before + 1 ∧ overheard.calls[before]? = some (.polled entry.stream false)

/-- No stream was refused more than a number of times in a row. -/
def Patient (patience : Nat) (overheard : Overheard σ) : Prop :=
  ∀ stream, ¬List.replicate (patience + 1) true <:+: overheard.answers stream

/-- Who was patient so far was patient before. -/
theorem Patient.of_prefix {patience : Nat} {overheard after : Overheard σ} (h : after.Patient patience)
    (hanswers : ∀ stream, overheard.answers stream <+: after.answers stream) : overheard.Patient patience :=
  fun stream hrefused => h stream (hrefused.trans (hanswers stream).isInfix)

theorem Patient.refusals_le {patience refusals : Nat} {overheard : Overheard σ} {stream : Stream}
    (h : overheard.Patient patience) (hrefusals : List.replicate refusals true <:+ overheard.answers stream) :
    refusals ≤ patience := by
  by_contra hmany
  obtain ⟨more, rfl⟩ := Nat.exists_eq_add_of_lt (Nat.not_le.mp hmany)
  have hwithin : List.replicate (patience + 1) true <:+: List.replicate (patience + more + 1) true :=
    ⟨[], List.replicate more true, by rw [List.nil_append, List.replicate_append_replicate, Nat.add_right_comm]⟩
  exact h stream (hwithin.trans hrefusals.isInfix)

variable [Transport σ]

instance : Transport (Overheard σ) where
  poll stream overheard := (Transport.poll stream overheard.transport).map fun (full, transport) =>
    (full, ⟨transport, overheard.calls ++ [.polled stream full]⟩)
  push entry overheard := (Transport.push entry overheard.transport).map fun transport =>
    ⟨transport, overheard.calls ++ [.pushed entry]⟩

/-- Listening makes no difference. -/
theorem view_transport : Transport.View (transport : Overheard σ → σ) where
  poll stream overheard := by
    change Except.map _ (Except.map _ (Transport.poll stream overheard.transport)) = _
    cases Transport.poll stream overheard.transport <;> rfl
  push entry overheard := by
    change Except.map _ (Except.map _ (Transport.push entry overheard.transport)) = _
    cases Transport.push entry overheard.transport <;> rfl

variable {overheard polled after : Overheard σ} {stream other : Stream} {entry : Entry} {full : Bool}

theorem poll_eq_ok_iff : Transport.poll stream overheard = .ok (full, after) ↔
    Transport.poll stream overheard.transport = .ok (full, after.transport) ∧
      after.calls = overheard.calls ++ [.polled stream full] := by
  change Except.map _ (Transport.poll stream overheard.transport) = _ ↔ _
  simp only [map_eq_ok_iff, Prod.exists, Prod.mk.injEq]
  constructor
  · rintro ⟨_, transport, hpoll, rfl, rfl⟩
    exact ⟨hpoll, rfl⟩
  · rintro ⟨hpoll, hcalls⟩
    exact ⟨full, after.transport, hpoll, rfl, by rw [← hcalls]⟩

theorem push_eq_ok_iff : Transport.push entry overheard = .ok after ↔
    Transport.push entry overheard.transport = .ok after.transport ∧
      after.calls = overheard.calls ++ [.pushed entry] := by
  change Except.map _ (Transport.push entry overheard.transport) = _ ↔ _
  simp only [map_eq_ok_iff]
  constructor
  · rintro ⟨transport, hpush, rfl⟩
    exact ⟨hpush, rfl⟩
  · rintro ⟨hpush, hcalls⟩
    exact ⟨after.transport, hpush, by rw [← hcalls]⟩

/-- A poll pushes nothing. -/
theorem pushedOn_poll (h : Transport.poll stream overheard = .ok (full, after)) (other : Stream) :
    after.pushedOn other = overheard.pushedOn other := by
  rw [pushedOn, (poll_eq_ok_iff.mp h).2, List.filterMap_append]
  exact List.append_nil _

theorem pushedOn_push (h : Transport.push entry overheard = .ok after) (other : Stream) :
    after.pushedOn other = overheard.pushedOn other ++ if entry.stream = other then [entry] else [] := by
  rw [pushedOn, (push_eq_ok_iff.mp h).2, List.filterMap_append]
  by_cases hstream : entry.stream = other <;> simp [pushedOn, Call.pushed?, hstream]

theorem answers_poll (h : Transport.poll stream overheard = .ok (full, after)) (other : Stream) :
    after.answers other = overheard.answers other ++ if stream = other then [full] else [] := by
  rw [answers, (poll_eq_ok_iff.mp h).2, List.filterMap_append]
  by_cases hstream : stream = other <;> simp [answers, Call.answer?, hstream]

theorem answers_prefix_of_poll (h : Transport.poll stream overheard = .ok (full, after)) (other : Stream) :
    overheard.answers other <+: after.answers other := by
  rw [answers_poll h]
  exact List.prefix_append _ _

/-- A push is told nothing. -/
theorem answers_push (h : Transport.push entry overheard = .ok after) (other : Stream) :
    after.answers other = overheard.answers other := by
  rw [answers, (push_eq_ok_iff.mp h).2, List.filterMap_append]
  exact List.append_nil _

theorem AskedFirst.poll (h : overheard.AskedFirst) (hpoll : Transport.poll stream overheard = .ok (full, after)) :
    after.AskedFirst := by
  intro position entry hentry
  rw [(poll_eq_ok_iff.mp hpoll).2] at hentry ⊢
  rcases Nat.lt_or_ge position overheard.calls.length with hearlier | hlast
  · rw [List.getElem?_append_left hearlier] at hentry
    obtain ⟨before, rfl, hbefore⟩ := h position entry hentry
    exact ⟨before, rfl, (List.getElem?_append_left (by omega)).trans hbefore⟩
  · rw [List.getElem?_append_right hlast, List.getElem?_singleton] at hentry
    split at hentry <;> cases hentry

theorem AskedFirst.push (h : overheard.AskedFirst)
    (hpoll : Transport.poll entry.stream overheard = .ok (false, polled))
    (hpush : Transport.push entry polled = .ok after) : after.AskedFirst := by
  have hpolled := h.poll hpoll
  have hcalls := (poll_eq_ok_iff.mp hpoll).2
  intro position pushed hpushed
  rw [(push_eq_ok_iff.mp hpush).2] at hpushed ⊢
  rcases Nat.lt_or_ge position polled.calls.length with hearlier | hlast
  · rw [List.getElem?_append_left hearlier] at hpushed
    obtain ⟨before, rfl, hbefore⟩ := hpolled position pushed hpushed
    exact ⟨before, rfl, (List.getElem?_append_left (by omega)).trans hbefore⟩
  · rw [List.getElem?_append_right hlast, List.getElem?_singleton] at hpushed
    split at hpushed
    next hposition =>
      cases hpushed
      have hlength : polled.calls.length = overheard.calls.length + 1 := by rw [hcalls, List.length_append]; rfl
      refine ⟨overheard.calls.length, by omega, ?_⟩
      rw [List.getElem?_append_left (by omega), hcalls, List.getElem?_concat_length]
    next => cases hpushed

end Overheard

namespace Schedule

variable (schedule : Schedule)

/-- The entries of a schedule on one stream. -/
def entries : Stream → List Entry
  | .token stage => (schedule.program stage).map fun instruction => .token stage instruction.token
  | .command stage => (schedule.program stage).map fun instruction => .command instruction.command

/-- The length of the longest stream. -/
def longest : Nat := (Stream.all.map fun stream => (schedule.entries stream).length).foldr max 0

theorem length_le_longest (stream : Stream) : (schedule.entries stream).length ≤ schedule.longest := by
  rcases stream with (_ | _ | _) | (_ | _ | _) <;> simp only [longest, Stream.all, List.map, List.foldr] <;> omega

theorem left_ofSchedule : (Feed.ofSchedule schedule).left = schedule.entries := by
  funext stream
  rcases stream with (_ | _ | _) | (_ | _ | _) <;>
    simp [Feed.left, Feed.ofSchedule, entries, program, PerStage.get, Instruction.map, Function.comp_def]

/-- The entries of a stream belong to it. -/
theorem stream_of_mem_entries {stream : Stream} {entry : Entry} (h : entry ∈ schedule.entries stream) :
    entry.stream = stream := by
  cases stream with
  | token stage =>
    obtain ⟨instruction, -, rfl⟩ := List.mem_map.mp h
    rfl
  | command stage =>
    obtain ⟨instruction, hinstruction, rfl⟩ := List.mem_map.mp h
    refine congrArg Stream.command ?_
    cases stage <;>
    · obtain ⟨_, -, rfl⟩ := List.mem_map.mp hinstruction
      rfl

variable {schedule} {σ : Type}

/-- What was pushed and what is left make up the streams of a schedule, and no push was a blind one. -/
structure Parted (schedule : Schedule) (left : Stream → List Entry) (overheard : Overheard σ) : Prop where
  entries : ∀ stream, schedule.entries stream = overheard.pushedOn stream ++ left stream
  askedFirst : overheard.AskedFirst

namespace Parted

theorem start (schedule : Schedule) (transport : σ) : schedule.Parted schedule.entries ⟨transport, []⟩ :=
  ⟨fun _ => rfl, fun _ _ h => nomatch h⟩

theorem stream_eq {left : Stream → List Entry} {overheard : Overheard σ} {stream : Stream} {entry : Entry}
    {rest : List Entry} (h : schedule.Parted left overheard) (hnext : left stream = entry :: rest) :
    entry.stream = stream := by
  refine schedule.stream_of_mem_entries ?_
  rw [h.entries stream, hnext]
  exact List.mem_append_right _ List.mem_cons_self

theorem keeps [Transport σ] : Feed.Keeps (schedule.Parted (σ := σ)) where
  refused h hpoll := by
    refine ⟨fun stream => ?_, h.askedFirst.poll hpoll⟩
    rw [Overheard.pushedOn_poll hpoll]
    exact h.entries stream
  taken {left _ _ _ stream entry rest} h hnext hpoll hpush := by
    obtain rfl := h.stream_eq hnext
    refine ⟨fun other => ?_, h.askedFirst.push hpoll hpush⟩
    rw [Overheard.pushedOn_push hpush, Overheard.pushedOn_poll hpoll, h.entries other]
    split
    next hother =>
      subst hother
      rw [Function.update_self, hnext, List.append_assoc]
      rfl
    next hother => rw [Function.update_of_ne (Ne.symm hother), List.append_nil]

end Parted

/-- What was delivered while a feed went through a schedule, and what is left. -/
structure Delivered (schedule : Schedule) (feed : Feed) [Transport σ] (overheard : Overheard σ) : Prop where
  /-- The entries of a stream arrive once and in order, up to those that are left. -/
  pushedOn : ∀ stream, feed.remaining stream ≤ (schedule.entries stream).length ∧
    overheard.pushedOn stream =
      (schedule.entries stream).take ((schedule.entries stream).length - feed.remaining stream)
  askedFirst : overheard.AskedFirst
  pushed : feed.pushed = (Stream.all.map fun stream => (overheard.pushedOn stream).length).sum
  allPushed : feed.allPushed = true ↔ ∀ stream, overheard.pushedOn stream = schedule.entries stream
  /-- When all is delivered, nothing more is said. -/
  silent : feed.allPushed = true → feed.fill overheard = .ok ({ feed with passes := feed.passes + 1 }, overheard)

theorem Parted.delivered [Transport σ] {feed : Feed} {overheard : Overheard σ}
    (h : schedule.Parted feed.left overheard) (htotal : feed.total = (Feed.ofSchedule schedule).total) :
    schedule.Delivered feed overheard := by
  have hlength (stream : Stream) : (schedule.entries stream).length =
      (overheard.pushedOn stream).length + (feed.left stream).length := by
    rw [h.entries stream, List.length_append]
  constructor
  case pushedOn =>
    intro stream
    rw [← feed.length_left, hlength stream, Nat.add_sub_cancel, h.entries stream, List.take_left]
    exact ⟨Nat.le_add_left _ _, rfl⟩
  case askedFirst => exact h.askedFirst
  case pushed =>
    simp only [Feed.total, left_ofSchedule, Stream.all, List.map, List.sum_cons, List.sum_nil, hlength] at htotal ⊢
    have hnone : (Feed.ofSchedule schedule).pushed = 0 := rfl
    omega
  case allPushed =>
    rw [Feed.allPushed_iff_left]
    refine forall_congr' fun stream => ?_
    rw [h.entries stream, List.self_eq_append_right]
  case silent => exact fun hpushed => Feed.fill_of_allPushed hpushed overheard

section Waiting

variable {patience passes : Nat} {stream : Stream} {left : Stream → List Entry} {overheard polled after : Overheard σ}

/-- How many passes a stream can have been waiting through: each of its entries allows for as many refusals as the
transport is patient, and the last answers may have been refusals. -/
def Waited (schedule : Schedule) (stream : Stream) (patience passes : Nat) (left : Stream → List Entry)
    (overheard : Overheard σ) : Prop :=
  left stream = [] ∨ (overheard.Patient patience →
    ∃ refusals, List.replicate refusals true <:+ overheard.answers stream ∧
      passes + (patience + 1) * (left stream).length ≤ (patience + 1) * (schedule.entries stream).length + refusals)

namespace Waited

/-- With something left, fewer passes were made than the longest stream allows for. -/
theorem left_eq_nil (h : schedule.Waited stream patience ((patience + 1) * schedule.longest) left overheard)
    (hpatient : overheard.Patient patience) : left stream = [] := by
  refine List.eq_nil_iff_length_eq_zero.mpr ?_
  by_contra hleft
  rcases h with hnil | h
  · exact hleft (congrArg List.length hnil)
  obtain ⟨refusals, hrefusals, hpasses⟩ := h hpatient
  have hfew := hpatient.refusals_le hrefusals
  have hlongest := Nat.mul_le_mul_left (patience + 1) (schedule.length_le_longest stream)
  have hsome := Nat.mul_le_mul_left (patience + 1) (Nat.one_le_iff_ne_zero.mpr hleft)
  omega

variable [Transport σ]

/-- A refusal of the stream allows for one more pass. -/
theorem refused (h : schedule.Waited stream patience passes left overheard)
    (hpoll : Transport.poll stream overheard = .ok (true, after)) :
    schedule.Waited stream patience (passes + 1) left after := by
  refine h.imp_right fun h hpatient => ?_
  obtain ⟨refusals, hrefusals, hpasses⟩ := h (hpatient.of_prefix (Overheard.answers_prefix_of_poll hpoll))
  obtain ⟨earlier, hearlier⟩ := hrefusals
  refine ⟨refusals + 1, ⟨earlier, ?_⟩, by omega⟩
  rw [Overheard.answers_poll hpoll, if_pos rfl, List.replicate_succ', ← List.append_assoc, hearlier]

/-- An entry that is taken makes up for all refusals before it. -/
theorem taken {entry : Entry} {rest : List Entry} (h : schedule.Waited stream patience passes left overheard)
    (hnext : left stream = entry :: rest) (hpoll : Transport.poll stream overheard = .ok (false, polled))
    (hpush : Transport.push entry polled = .ok after) :
    schedule.Waited stream patience passes (Function.update left stream rest) after := by
  refine .inr fun hpatient => ⟨0, List.nil_suffix, ?_⟩
  have hbefore := hpatient.of_prefix fun other =>
    (Overheard.answers_prefix_of_poll hpoll other).trans (Overheard.answers_push hpush other ▸ List.prefix_rfl)
  rcases h with hnil | h
  · rw [hnext] at hnil
    cases hnil
  · obtain ⟨refusals, hrefusals, hpasses⟩ := h hbefore
    have hfew := hbefore.refusals_le hrefusals
    rw [hnext, List.length_cons, Nat.mul_succ] at hpasses
    rw [Function.update_self]
    omega

theorem keeps : Feed.Keeps (schedule.Waited (σ := σ) stream patience passes) where
  refused {left before after asked} h hpoll := by
    by_cases hasked : asked = stream
    · subst hasked
      refine (h.refused hpoll).imp_right fun h hpatient => ?_
      obtain ⟨refusals, hrefusals, hpasses⟩ := h hpatient
      exact ⟨refusals, hrefusals, by omega⟩
    · refine h.imp_right fun h hpatient => ?_
      have hanswers := Overheard.answers_poll hpoll stream
      rw [if_neg hasked, List.append_nil] at hanswers
      rw [hanswers]
      exact h (hpatient.of_prefix (Overheard.answers_prefix_of_poll hpoll))
  taken {left before polled after asked entry rest} h hnext hpoll hpush := by
    by_cases hasked : asked = stream
    · subst hasked
      exact h.taken hnext hpoll hpush
    · have hleft : Function.update left asked rest stream = left stream :=
        Function.update_of_ne (Ne.symm hasked) rest left
      have hanswers := Overheard.answers_poll hpoll stream
      rw [if_neg hasked, List.append_nil] at hanswers
      unfold Waited at h ⊢
      rw [hleft, Overheard.answers_push hpush, hanswers]
      refine h.imp_right fun h hpatient => h <| hpatient.of_prefix fun other =>
        (Overheard.answers_prefix_of_poll hpoll other).trans (Overheard.answers_push hpush other ▸ List.prefix_rfl)

/-- Every pass is allowed for. -/
theorem fillTimes {count : Nat} {feed fed : Feed} (h : schedule.Waited stream patience passes feed.left overheard)
    (hfill : Feed.fillTimes count feed overheard = .ok (fed, after)) :
    schedule.Waited stream patience (passes + count) fed.left after := by
  induction count generalizing feed overheard passes with
  | zero =>
    cases hfill
    exact h
  | succ count ih =>
    obtain ⟨next, middle, hfirst, hrest⟩ := Feed.fillTimes_succ_eq_ok_iff.mp hfill
    rw [Nat.add_comm count 1, ← Nat.add_assoc]
    exact ih (keeps.fill_raises keeps .inl refused h hfirst) hrest

end Waited

variable [Transport σ]

/-- A transport that is patient while a schedule is fed to it: at no time was a stream refused too often in a row. -/
def PatientlyFed (schedule : Schedule) (patience : Nat) (transport : σ) : Prop :=
  ∀ count feed overheard, Feed.fillTimes count (.ofSchedule schedule) (⟨transport, []⟩ : Overheard σ) =
    .ok (feed, overheard) → overheard.Patient patience

/-- What feeding a schedule to a transport comes to. -/
structure FedTo (schedule : Schedule) (transport : σ) : Prop where
  /-- Listening makes no difference. -/
  heard : ∀ count, (Feed.fillTimes count (.ofSchedule schedule) (⟨transport, []⟩ : Overheard σ)).map
    (fun (feed, overheard) => (feed, overheard.transport)) = Feed.fillTimes count (.ofSchedule schedule) transport
  delivered : ∀ count feed overheard, Feed.fillTimes count (.ofSchedule schedule) (⟨transport, []⟩ : Overheard σ) =
    .ok (feed, overheard) → schedule.Delivered feed overheard
  /-- Passes as long as something is left come to an end, unless the transport itself goes wrong. -/
  ends : ∀ patience, schedule.PatientlyFed patience transport →
    (∃ feed after, Feed.drain ((patience + 1) * schedule.longest) (.ofSchedule schedule) transport = .ok (feed, after) ∧
      feed.allPushed = true ∧ feed.passes ≤ (patience + 1) * schedule.longest) ∨
    ∃ cause, Feed.drain ((patience + 1) * schedule.longest) (.ofSchedule schedule) transport = .error cause ∧
      Feed.Causes σ cause

/-- A drain with enough passes is over. -/
theorem allPushed_of_drain {transport : σ} (hpatient : schedule.PatientlyFed patience transport) {feed : Feed}
    (hdrain : Feed.drain ((patience + 1) * schedule.longest) (.ofSchedule schedule) (⟨transport, []⟩ : Overheard σ) =
      .ok (feed, after)) :
    feed.allPushed = true ∧ feed.passes ≤ (patience + 1) * schedule.longest := by
  obtain ⟨count, hcount, hfill, hended⟩ := Feed.drain_eq_ok hdrain
  have hpasses : feed.passes = 0 + count := Feed.fillTimes_passes hfill
  refine ⟨?_, by omega⟩
  rcases hended with hpushed | rfl
  · exact hpushed
  rw [Feed.allPushed_iff_left]
  intro stream
  have hstart : schedule.Waited stream patience 0 (Feed.ofSchedule schedule).left (⟨transport, []⟩ : Overheard σ) := by
    refine .inr fun _ => ⟨0, List.nil_suffix, ?_⟩
    rw [left_ofSchedule, Nat.zero_add]
    exact Nat.le_add_right _ _
  have hwaited := hstart.fillTimes hfill
  rw [Nat.zero_add] at hwaited
  exact hwaited.left_eq_nil (hpatient _ _ _ hfill)

theorem fedTo (schedule : Schedule) (transport : σ) : schedule.FedTo transport where
  heard count := Overheard.view_transport.fillTimes count _ _
  delivered count feed overheard hfill := by
    have hstart := schedule.left_ofSchedule ▸ Parted.start schedule transport
    exact (Parted.keeps.fillTimes hstart hfill).delivered (Feed.fillTimes_total hfill)
  ends patience hpatient := by
    have hview := (Overheard.view_transport (σ := σ)).drain ((patience + 1) * schedule.longest) (.ofSchedule schedule)
      ⟨transport, []⟩
    rw [← hview]
    cases hdrain : Feed.drain ((patience + 1) * schedule.longest) (.ofSchedule schedule)
      (⟨transport, []⟩ : Overheard σ) with
    | ok found =>
      obtain ⟨feed, overheard⟩ := found
      exact .inl ⟨feed, overheard.transport, rfl, allPushed_of_drain hpatient hdrain⟩
    | error cause =>
      rw [hdrain] at hview
      exact .inr ⟨cause, rfl, Feed.drain_fault hview.symm⟩

end Waiting

end Schedule

end BitSerial
