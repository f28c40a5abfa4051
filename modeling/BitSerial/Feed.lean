import BitSerial.Schedule
import BitSerial.Transport

/-! # Feeding a schedule into the queues

A feed holds what is left of a schedule on each of the six streams. One pass visits the streams in a fixed order; a
visit pushes entries until the queue is full or the stream is at its end. Nothing waits: a full queue is visited again
on the next pass.
-/

namespace BitSerial

/-- What is left to push, and how far the feed has come. -/
structure Feed where
  tokens : PerStage (List Token)
  commands : PerStage (List Command)
  passes : Nat
  /-- Entries pushed on all streams. -/
  pushed : Nat
  deriving DecidableEq, Repr

namespace Feed

/-- A feed with all of a schedule before it. -/
def ofSchedule (schedule : Schedule) : Feed where
  tokens := ⟨schedule.fetch.map (·.token), schedule.execute.map (·.token), schedule.result.map (·.token)⟩
  commands := ⟨schedule.fetch.map (.fetch ·.command), schedule.execute.map (.execute ·.command),
    schedule.result.map (.result ·.command)⟩
  passes := 0
  pushed := 0

/-- The entries left on a stream. -/
def left (feed : Feed) : Stream → List Entry
  | .token stage => (feed.tokens.get stage).map (.token stage)
  | .command stage => (feed.commands.get stage).map .command

/-- The number of entries left on a stream. -/
def remaining (feed : Feed) : Stream → Nat
  | .token stage => (feed.tokens.get stage).length
  | .command stage => (feed.commands.get stage).length

/-- Whether a stream is at its end. -/
def exhausted (feed : Feed) : Stream → Bool
  | .token stage => (feed.tokens.get stage).isEmpty
  | .command stage => (feed.commands.get stage).isEmpty

/-- Whether all streams are at their end. -/
def allPushed (feed : Feed) : Bool := Stream.all.all feed.exhausted

variable {σ : Type} [Transport σ]

/-- Pushes entries of one stream until its queue is full or none is left. Every push directly follows an answer that
the queue is not full. The result is what is left and the number of entries pushed. -/
def visit {α : Type} (stream : Stream) (entry : α → Entry) :
    List α → σ → Except Fault (List α × Nat × σ)
  | [], transport => .ok ([], 0, transport)
  | first :: rest, transport => do
    let (full, transport) ← Transport.poll stream transport
    if full then
      return (first :: rest, 0, transport)
    else
      let transport ← Transport.push (entry first) transport
      let (left, pushed, transport) ← visit stream entry rest transport
      return (left, pushed + 1, transport)

/-- Visits one stream. -/
def visitStream (feed : Feed) (stream : Stream) (transport : σ) : Except Fault (Feed × σ) :=
  match stream with
  | .token stage => do
    let (left, pushed, transport) ← visit stream (.token stage) (feed.tokens.get stage) transport
    return ({ feed with tokens := feed.tokens.set left stage, pushed := feed.pushed + pushed }, transport)
  | .command stage => do
    let (left, pushed, transport) ← visit stream .command (feed.commands.get stage) transport
    return ({ feed with commands := feed.commands.set left stage, pushed := feed.pushed + pushed }, transport)

/-- Visits streams one after the other. -/
def visitStreams : List Stream → Feed → σ → Except Fault (Feed × σ)
  | [], feed, transport => .ok (feed, transport)
  | stream :: rest, feed, transport => do
    let (feed, transport) ← feed.visitStream stream transport
    visitStreams rest feed transport

/-- One pass over all streams. -/
def fill (feed : Feed) (transport : σ) : Except Fault (Feed × σ) := do
  let (feed, transport) ← visitStreams Stream.all feed transport
  return ({ feed with passes := feed.passes + 1 }, transport)

end Feed

end BitSerial
