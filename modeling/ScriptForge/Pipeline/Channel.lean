/-!
# Broadcast channels

A channel hands each message to every subscriber that was there when it was sent. It retains the
latest messages only, as many as its capacity, which is a power of two. A subscriber that has fallen
further behind is told once how many messages it has lost and goes on with the oldest one retained.
-/

namespace ScriptForge.Pipeline

/-- A channel with all messages sent so far and, for each subscriber, how many of them it has seen
or lost. -/
structure Channel (α : Type) where
  capacity : Nat
  sent : Array α
  cursors : Array Nat

/-- The answer to a subscriber that asks for a message. -/
inductive Received (α : Type)
  | message (a : α)
  /-- There is nothing new. -/
  | empty
  /-- Some messages are lost. -/
  | lagged (count : Nat)
  deriving Repr

namespace Channel

/-- The channel that retains at least as many messages as asked for, and at least one. -/
def ofCapacity (capacity : Nat) : Channel α :=
  ⟨(max capacity 1).nextPowerOfTwo, #[], #[]⟩

/-- The capacity of a channel when none is asked for. -/
def defaultCapacity : Nat := 256

/-- The number of messages that are no longer retained. -/
def lost (channel : Channel α) : Nat :=
  channel.sent.size - channel.capacity

/-- Adds a subscriber, which will see what is sent from now on. -/
def subscribe (channel : Channel α) : Channel α :=
  { channel with cursors := channel.cursors.push channel.sent.size }

/-- Sends a message. -/
def send (channel : Channel α) (a : α) : Channel α :=
  { channel with sent := channel.sent.push a }

/-- Moves a subscriber to a message. -/
def moveTo (channel : Channel α) (subscriber cursor : Nat) : Channel α :=
  { channel with cursors := channel.cursors.setIfInBounds subscriber cursor }

/-- What a subscriber receives next; nothing for one that does not exist. -/
def receive (channel : Channel α) (subscriber : Nat) : Option (Received α × Channel α) := do
  let cursor ← channel.cursors[subscriber]?
  if cursor < channel.lost then
    return (.lagged (channel.lost - cursor), channel.moveTo subscriber channel.lost)
  match channel.sent[cursor]? with
  | some a => return (.message a, channel.moveTo subscriber (cursor + 1))
  | none => return (.empty, channel)

end Channel

end ScriptForge.Pipeline
