import Mathlib.Data.Int.Notation
import Mathlib.Data.List.Basic

/-!
# The dynamic sparse parameter layer

`src/lib/parameters/DynamicSparseLayer.h`: the parameters that have been set, sorted in a heap array
that grows on demand. One mutex guards everything; only `_grow` drops it, around its `malloc` and
around the `free` of the old array.

A critical section is a function of the layer. A thread that is inside one of the two windows of
`_grow` is described by `Thread`. The heap is explicit, so that an address may be handed out again
after it was freed.
-/

namespace Px4.Parameters

open Function

abbrev ParamT := UInt16

/-- The address of an array on the heap. -/
abbrev Addr := ℕ

/-- `DynamicSparseLayer::Slot`; `V` is `param_value_u`. -/
structure Slot (V : Type*) where
  param : ParamT
  value : V
deriving DecidableEq

/-- The key by which slots are compared: `(int)slot->param`. -/
def Slot.key {V : Type*} (s : Slot V) : ℕ := s.param.toNat

/-- The unused slot `{UINT16_MAX, param_value_u{}}`. -/
def Slot.unused {V : Type*} [Inhabited V] : Slot V := { param := 65535, value := default }

/-- `qsort` with `_slotCompare`: some sorted rearrangement, with equal ones in any order. -/
structure Qsort (V : Type*) where
  sort : List (Slot V) → List (Slot V)
  perm : ∀ l, (sort l).Perm l
  sorted : ∀ l, (sort l).Pairwise (·.key ≤ ·.key)

/-- The members and their heap; `_slots` is never null once the constructor has succeeded. -/
structure Layer (V : Type*) where
  nextSlot : ℕ
  nSlots : ℕ
  nGrow : ℕ
  slots : Addr
  heap : Addr → Option (List (Slot V))

namespace Layer

variable {V : Type*} [Inhabited V]

/-- The constructor, when its `malloc` returned the array at `addr`. -/
def construct (nPrealloc : ℕ) (nGrow : ℤ) (addr : Addr) : Layer V where
  nextSlot := 0
  nSlots := nPrealloc
  nGrow := if nGrow > 0 then nGrow.toNat else 1
  slots := addr
  heap := update (fun _ => none) addr (some (List.replicate nPrealloc .unused))

/-- The array behind `_slots`. -/
def buffer (l : Layer V) : List (Slot V) :=
  (l.heap l.slots).getD []

/-- Overwrite the array behind `_slots`. -/
def setBuffer (l : Layer V) (buffer : List (Slot V)) : Layer V :=
  { l with heap := update l.heap l.slots (some buffer) }

/-- The loop of `_getIndex`, on the closed range from `left` to `right`, with fuel for its
rounds. -/
def getIndexLoop (slots : List (Slot V)) (nextSlot : ℕ) (param : ParamT) :
    ℕ → ℤ → ℤ → ℕ
  | 0, _, _ => nextSlot
  | fuel + 1, left, right =>
    if left ≤ right then
      let mid := ((left + right) / 2).toNat
      let slot := slots.getD mid .unused
      if slot.param = param then mid
      else if slot.param < param then getIndexLoop slots nextSlot param fuel (mid + 1) right
      else getIndexLoop slots nextSlot param fuel left (mid - 1)
    else nextSlot

/-- `_getIndex`: the index of the parameter, or `_next_slot`; every round drops a slot. -/
def getIndex (l : Layer V) (param : ParamT) : ℕ :=
  getIndexLoop l.buffer l.nextSlot param (l.nextSlot + 1) 0 (l.nextSlot - 1)

def contains (l : Layer V) (param : ParamT) : Bool :=
  l.getIndex param < l.nextSlot

/-- `get`; `parent` is what the layer below answers. -/
def get (l : Layer V) (parent : ParamT → V) (param : ParamT) : V :=
  let index := l.getIndex param
  if index < l.nextSlot then (l.buffer.getD index .unused).value
  else parent param

def size (l : Layer V) : ℕ := l.nextSlot

def sort (l : Layer V) (qsort : Qsort V) : Layer V :=
  l.setBuffer (qsort.sort l.buffer)

def reset (l : Layer V) (qsort : Qsort V) (param : ParamT) : Layer V :=
  let index := l.getIndex param
  if index < l.nextSlot then
    let l := (l.setBuffer (l.buffer.set index .unused)).sort qsort
    { l with nextSlot := l.nextSlot - 1 }
  else l

/-- `store` without growing: update in place, or append and sort; `none` if there is no room. -/
def tryStore (l : Layer V) (qsort : Qsort V) (param : ParamT) (value : V) : Option (Layer V) :=
  let index := l.getIndex param
  if index < l.nextSlot then
    some (l.setBuffer (l.buffer.set index { (l.buffer.getD index .unused) with value }))
  else if l.nextSlot < l.nSlots then
    let l' := l.setBuffer (l.buffer.set l.nextSlot { param, value })
    some ({ l' with nextSlot := l.nextSlot + 1 }.sort qsort)
  else none

/-- The end of a round of `_grow`: the old slots and unused ones in the published new array. -/
def publish (l : Layer V) (newSlots : Addr) : Layer V :=
  let new := (l.heap newSlots).getD []
  let copied := l.buffer.take l.nSlots ++ new.drop l.nSlots
  let filled := copied.take l.nSlots ++ List.replicate l.nGrow .unused
    ++ copied.drop (l.nSlots + l.nGrow)
  { l with
    heap := update l.heap newSlots (some filled)
    slots := newSlots
    nSlots := l.nSlots + l.nGrow }

def free (l : Layer V) (addr : Addr) : Layer V :=
  { l with heap := update l.heap addr none }

end Layer

/-- The public operations; `get` carries the answer of the parent layer at that moment. -/
inductive Op (V : Type*) where
  | store (param : ParamT) (value : V)
  | contains (param : ParamT)
  | get (parent : ParamT → V) (param : ParamT)
  | reset (param : ParamT)
  | size

inductive Result (V : Type*) where
  | bool (b : Bool)
  | value (v : V)
  | nat (n : ℕ)
  | unit

/-- Where a thread is without the mutex: outside, or in one of the windows of `_grow`. -/
inductive Thread (V : Type*) where
  | idle
  /-- unlocked, about to call `malloc` for `alloc_n_slots + _n_grow` slots -/
  | malloc (param : ParamT) (value : V) (allocNSlots : ℕ)
  /-- `malloc` has returned, about to lock again -/
  | allocated (param : ParamT) (value : V) (allocNSlots : ℕ) (newSlots : Option Addr)
  /-- the new array is published and the mutex released, about to free the old one -/
  | free (param : ParamT) (value : V) (previousSlots : Addr)
  /-- the old array is freed, about to lock again -/
  | freed (param : ParamT) (value : V)

/-- A layer and the threads that use it. -/
structure System (T V : Type*) where
  layer : Layer V
  threads : T → Thread V

/-- One thread goes on, by one step; a new array has arbitrary contents. -/
inductive LayerEvent (T V : Type*) where
  | call (t : T) (op : Op V)
  | malloc (t : T) (result : Option (Addr × (ℕ → Slot V)))
  | lock (t : T)
  | free (t : T)

namespace System

variable {T V : Type*} [DecidableEq T] [Inhabited V]

/-- Move a thread and replace the layer. -/
def go (s : System T V) (t : T) (layer : Layer V) (thread : Thread V) : System T V :=
  { layer, threads := update s.threads t thread }

/-- The loop body of `store`: it returns, or enters `_grow`, which gives up without any slots. -/
def storeLoop (s : System T V) (qsort : Qsort V) (t : T) (layer : Layer V) (param : ParamT)
    (value : V) : System T V × Option (Op V × Result V) :=
  match layer.tryStore qsort param value with
  | some layer' => (s.go t layer' .idle, some (.store param value, .bool true))
  | none =>
    if layer.nSlots = 0 then (s.go t layer .idle, some (.store param value, .bool false))
    else (s.go t layer (.malloc param value layer.nSlots), none)

/-- The loop condition of `_grow`: allocate again while full, else go on in `store`. -/
def growLoop (s : System T V) (qsort : Qsort V) (t : T) (layer : Layer V) (param : ParamT)
    (value : V) : System T V × Option (Op V × Result V) :=
  if layer.nextSlot ≥ layer.nSlots then
    (s.go t layer (.malloc param value layer.nSlots), none)
  else s.storeLoop qsort t layer param value

def call (s : System T V) (qsort : Qsort V) (t : T) :
    Op V → System T V × Option (Op V × Result V)
  | .store param value => s.storeLoop qsort t s.layer param value
  | .contains param => (s, some (.contains param, .bool (s.layer.contains param)))
  | .get parent param => (s, some (.get parent param, .value (s.layer.get parent param)))
  | .reset param =>
    ({ s with layer := s.layer.reset qsort param }, some (.reset param, .unit))
  | .size => (s, some (.size, .nat s.layer.size))

/-- `malloc` returns to a thread in the first window; an address in use is no possible answer. -/
def malloc (s : System T V) (t : T) (param : ParamT) (value : V) (allocNSlots : ℕ) :
    Option (Addr × (ℕ → Slot V)) → System T V
  | none => s.go t s.layer (.allocated param value allocNSlots none)
  | some (addr, contents) =>
    if s.layer.heap addr = none then
      let new := (List.range (allocNSlots + s.layer.nGrow)).map contents
      s.go t { s.layer with heap := update s.layer.heap addr (some new) }
        (.allocated param value allocNSlots (some addr))
    else s

/-- The mutex is locked again after `malloc`. -/
def lockAfterMalloc (s : System T V) (qsort : Qsort V) (t : T) (param : ParamT) (value : V)
    (allocNSlots : ℕ) : Option Addr → System T V × Option (Op V × Result V)
  | none => (s.go t s.layer .idle, some (.store param value, .bool false))
  | some newSlots =>
    -- another thread has grown the layer in the meantime
    if s.layer.nSlots ≠ allocNSlots then
      s.growLoop qsort t (s.layer.free newSlots) param value
    else
      (s.go t (s.layer.publish newSlots) (.free param value s.layer.slots), none)

/-- One step, and the operation it completes. Events that do not fit change nothing. -/
def exec (qsort : Qsort V) (s : System T V) :
    LayerEvent T V → System T V × Option (Op V × Result V)
  | .call t op =>
    match s.threads t with
    | .idle => s.call qsort t op
    | _ => (s, none)
  | .malloc t result =>
    match s.threads t with
    | .malloc param value allocNSlots => (s.malloc t param value allocNSlots result, none)
    | _ => (s, none)
  | .lock t =>
    match s.threads t with
    | .allocated param value allocNSlots newSlots =>
      s.lockAfterMalloc qsort t param value allocNSlots newSlots
    | .freed param value => s.growLoop qsort t s.layer param value
    | _ => (s, none)
  | .free t =>
    match s.threads t with
    | .free param value previousSlots =>
      (s.go t (s.layer.free previousSlots) (.freed param value), none)
    | _ => (s, none)

def step (qsort : Qsort V) (s : System T V) (e : LayerEvent T V) : System T V :=
  (s.exec qsort e).1

/-- A newly constructed layer that no thread is using. -/
def init (nPrealloc : ℕ) (nGrow : ℤ) (addr : Addr) : System T V where
  layer := .construct nPrealloc nGrow addr
  threads := fun _ => .idle

end System

end Px4.Parameters
