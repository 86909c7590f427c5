import Mathlib.Data.List.Basic

/-!
# uORB device nodes and subscriptions

The core of `platforms/common/uORB`: `DeviceNode` keeps the last `o_queue` messages of a topic in a
ring indexed by a wrapping 32-bit generation counter, and every `Subscription` keeps the generation
it has to read next.

Callbacks, poll waiters and the remote communicator only observe a node, so they are left out.
-/

namespace Px4.Uorb

/-- The bytes of one message. -/
abbrev Message := List UInt8

/-- The fields of `orb_metadata` that a node reads. -/
structure OrbMetadata where
  oSize : UInt16
  oQueue : UInt8

/-- The negated error codes of `DeviceNode::write`. -/
inductive WriteError where
  | enomem
  | eio

/-- `uORB::DeviceNode`: one topic instance; `data` has an entry for each slot, once allocated. -/
structure DeviceNode where
  orbMeta : OrbMetadata
  data : Option (List Message) := none
  dataValid : Bool := false
  generation : BitVec 32 := 0
  advertised : Bool := false

namespace DeviceNode

variable (node : DeviceNode)

def queueSize : ℕ := node.orbMeta.oQueue.toNat

/-- The ring slot that belongs to a generation: `generation % _meta->o_queue`. -/
def slot (generation : BitVec 32) : ℕ :=
  generation.toNat % node.queueSize

def updatesAvailable (generation : BitVec 32) : BitVec 32 :=
  node.generation - generation

/-- `DeviceNode::get_initial_generation`: one message back if there is one to read. -/
def getInitialGeneration : BitVec 32 :=
  node.generation - (if node.dataValid then 1 else 0)

def isInRange (left value right : BitVec 32) : Bool :=
  if right > left then
    left ≤ value && value ≤ right
  else -- the range wraps around
    left ≤ value || value ≤ right

/-- The generation that `copy` reads on a queued topic: one back if the reader has seen everything,
the oldest one if it is too far behind. -/
def copyGeneration (generation : BitVec 32) : BitVec 32 :=
  let current := node.generation
  let queue := BitVec.ofNat 32 node.queueSize
  -- a reader that has seen everything gets the last message again
  let generation := if current = generation then generation - 1 else generation
  if !isInRange (current - queue) generation (current - 1) then current - queue
  else generation

/-- `DeviceNode::copy` into a buffer: the message and the new generation of the reader, or `none`
for false, which leaves the generation alone. -/
def copy (generation : BitVec 32) : Option (Message × BitVec 32) :=
  match node.data with
  | none => none
  | some data =>
    if node.orbMeta.oQueue = 1 then
      some (data.headD [], node.generation)
    else
      let generation := node.copyGeneration generation
      some (data.getD (node.slot generation) [], generation + 1)

/-- The lazy allocation of `write`; `allocOk` is false if it fails or in interrupt context. -/
def allocate (allocOk : Bool) : DeviceNode :=
  match node.data with
  | some _ => node
  | none =>
    if allocOk then
      { node with
        data := some (List.replicate node.queueSize (List.replicate node.orbMeta.oSize.toNat 0)) }
    else node

/-- The atomic copy of `write` to the slot of the generation, which is then advanced. -/
def store (data : List Message) (buffer : Message) : DeviceNode :=
  { node with
    data := some (data.set (node.slot node.generation) buffer)
    generation := node.generation + 1
    dataValid := true }

def write (allocOk : Bool) (buffer : Message) : DeviceNode × Except WriteError ℕ :=
  let node := node.allocate allocOk
  match node.data with
  | none => (node, .error .enomem)
  | some data =>
    if node.orbMeta.oSize.toNat ≠ buffer.length then (node, .error .eio)
    else (node.store data buffer, .ok node.orbMeta.oSize.toNat)

end DeviceNode

def orbDataCopy (node : DeviceNode) (generation : BitVec 32) (onlyIfUpdated : Bool) :
    Option (Message × BitVec 32) :=
  if !node.advertised then none
  else if onlyIfUpdated && node.updatesAvailable generation = 0 then none
  else node.copy generation

/-- `uORB::Subscription` to a node that exists; `subscribed` is `_node != nullptr`. -/
structure Subscription where
  subscribed : Bool := false
  lastGeneration : BitVec 32 := 0

namespace Subscription

/-- `Subscription::subscribe`, with `Manager::orb_add_internal_subscriber` inlined. -/
def subscribe (sub : Subscription) (node : DeviceNode) : Subscription :=
  if sub.subscribed then sub
  else { subscribed := true, lastGeneration := node.getInitialGeneration }

/-- `Subscription::update`: the message written to `dst`, or `none` for false. -/
def update (sub : Subscription) (node : DeviceNode) : Subscription × Option Message :=
  let sub := sub.subscribe node
  match orbDataCopy node sub.lastGeneration true with
  | none => (sub, none)
  | some (message, generation) => ({ sub with lastGeneration := generation }, some message)

/-- `Subscription::copy` and `Manager::orb_copy`: the message for `dst`, or `none` for false. -/
def copy (sub : Subscription) (node : DeviceNode) : Subscription × Option Message :=
  let sub := sub.subscribe node
  match orbDataCopy node sub.lastGeneration false with
  | none => (sub, none)
  | some (message, generation) => ({ sub with lastGeneration := generation }, some message)

end Subscription

end Px4.Uorb
