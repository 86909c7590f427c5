import Px4.Dataman.WriteSync

/-!
# The dataman cache

`DatamanCache` of `src/lib/dataman_client/DatamanClient.cpp`, and the functions of `DatamanClient`
that it uses without waiting. The `_item_counter` entries from `_update_index` on are still to be
processed; `load` queues behind them, at `_load_index`. What the network decides comes as an
argument.
-/

namespace Px4.Dataman

/-! ## Requests that do not wait -/

inductive ClientState where
  | idle
  | requestSent
  | responseReceived
deriving DecidableEq

/-- `DatamanClient::Request` of a read; the buffer is that of an entry of the cache. -/
structure AsyncRequest where
  item : DmItem := .safePoints0
  index : ℕ := 0
  buffer : ℕ := 0
  length : ℕ := 0

structure DatamanClient where
  clientId : UInt8
  state : ClientState := .idle
  activeRequest : AsyncRequest := {}
  responseStatus : Status := .success

namespace DatamanClient

variable (c : DatamanClient)

/-- `readAsync`, if it returns `true`, with the request that it publishes. -/
def readAsync (now : UInt64) (item : DmItem) (index buffer length : ℕ) :
    Option (DatamanClient × Request) :=
  if c.clientId = clientIdNotSet then none
  else if length > perItemSize item then none
  else if c.state = .idle then
    some ({ c with state := .requestSent, activeRequest := ⟨item, index, buffer, length⟩ },
      readRequest c.clientId now item index length)
  else none

variable {now : UInt64} {item : DmItem} {index buffer length : ℕ} {request : Request}

theorem readAsync_eq_some {c c' : DatamanClient}
    (h : c.readAsync now item index buffer length = some (c', request)) :
    c.clientId ≠ clientIdNotSet ∧
      c' = { c with state := .requestSent, activeRequest := ⟨item, index, buffer, length⟩ } ∧
      request = readRequest c.clientId now item index length := by
  unfold readAsync at h
  rw [Option.ite_none_left_eq_some, Option.ite_none_left_eq_some, Option.ite_none_right_eq_some,
    Option.some.injEq, Prod.mk.injEq] at h
  exact ⟨h.1, h.2.2.2.1.symm, h.2.2.2.2.symm⟩

/-- The response is one to the active request. -/
def expects (response : Response) : Bool :=
  response.key = ⟨c.clientId, .read, c.activeRequest.item, c.activeRequest.index⟩

/-- The response that `update` accepts, among those that it may find. -/
def accepted (response : Option Response) : Option Response :=
  if c.state = .requestSent then response.filter c.expects else none

/-- What `update` does: the client, the data that it copies, and the request it repeats. -/
structure Updated where
  client : DatamanClient
  copied : Option Bytes := none
  retry : Option Request := none

/-- `update`, with the response of the topic; `expired`: the last request was long enough ago. -/
def update (now : UInt64) (response : Option Response) (expired : Bool) : Updated :=
  match c.accepted response with
  | some r =>
    { client := { c with state := .responseReceived, responseStatus := r.status }
      copied := some r.data }
  | none =>
    { client := c
      retry :=
        if c.state = .requestSent ∧ expired then
          some (readRequest c.clientId now c.activeRequest.item c.activeRequest.index
            c.activeRequest.length)
        else none }

/-- `lastOperationCompleted`: nothing, or whether it was a success. -/
def lastOperationCompleted : DatamanClient × Option Bool :=
  if c.state = .responseReceived then
    ({ c with state := .idle }, some (c.responseStatus = .success))
  else (c, none)

def abortCurrentOperation : DatamanClient :=
  { c with state := .idle }

end DatamanClient

/-! ## The cache -/

inductive CacheState where
  | idle
  | requestPrepared
  | requestSent
  | responseReceived
  | error
deriving DecidableEq

/-- `DatamanCache::Item`; of its response, the item, the index and the data are used. -/
structure Entry where
  item : DmItem := .safePoints0
  index : ℕ := 0
  data : Bytes := padded []
  state : CacheState := .idle

def Entry.isFor (e : Entry) (item : DmItem) (index : ℕ) : Bool :=
  e.item = item && e.index = index

/-- What `resize` makes of an entry that it keeps. -/
def Entry.kept (e : Entry) : Entry :=
  if e.state = .requestSent then { e with state := .requestPrepared } else e

/-- The class. `_items` is `nullptr` if and only if `_num_items` is zero. -/
structure DatamanCache where
  numItems : ℕ
  items : ℕ → Entry := fun _ => {}
  loadIndex : ℕ := 0
  updateIndex : ℕ := 0
  itemCounter : ℕ := 0

namespace DatamanCache

variable (c : DatamanCache)

def isLoading : Bool := c.itemCounter > 0

def state (i : ℕ) : CacheState := (c.items i).state

def setState (i : ℕ) (state : CacheState) : DatamanCache :=
  { c with items := Function.update c.items i { c.items i with state } }

/-- The first entry with a property. -/
def findEntry (p : Entry → Bool) : Option ℕ :=
  (List.range c.numItems).find? fun i => p (c.items i)

/-- Fill the entry at `_load_index`. -/
def enqueue (e : Entry) : DatamanCache :=
  { c with
    items := Function.update c.items c.loadIndex e
    loadIndex := (c.loadIndex + 1) % c.numItems
    itemCounter := c.itemCounter + 1 }

def load (item : DmItem) (index : ℕ) : DatamanCache × Bool :=
  if c.numItems = 0 then (c, false)
  else
    let duplicate := (c.findEntry fun e =>
      e.state ≠ .idle && e.state ≠ .error && e.isFor item index).isSome
    if !duplicate && c.itemCounter < c.numItems then
      (c.enqueue { c.items c.loadIndex with
        state := .requestPrepared, item, index }, true)
    else (c, false)

/-- The entry that `loadWait` copies. -/
def hit (item : DmItem) (index : ℕ) : Option ℕ :=
  c.findEntry fun e => e.isFor item index && e.state = .responseReceived

/-- `loadWait`, with the data it returns; `read` is the result of `readSync`, if called. -/
def loadWait (item : DmItem) (index length timeout : ℕ) (read : Option Bytes) :
    DatamanCache × Option Bytes :=
  if length > perItemSize item then (c, none)
  else
    match c.hit item index with
    | some i => (c, some ((c.items i).data.take length))
    | none =>
      if timeout > 0 then
        match read with
        | some buffer =>
          let found := (c.findEntry fun e => e.isFor item index).isSome
          if !found && c.itemCounter < c.numItems then
            (c.enqueue { c.items c.loadIndex with
              state := .responseReceived, item, index := index
              data := memcpy (c.items c.loadIndex).data buffer length }, some buffer)
          else (c, some buffer)
        | none => (c, none)
      else (c, none)

/-- `writeWait`; `written` is the result of `writeSync`, if it comes to that. -/
def writeWait (item : DmItem) (index : ℕ) (buffer : Bytes) (length : ℕ)
    (written : Bool) : DatamanCache × Bool :=
  if length > perItemSize item then (c, false)
  else if written then
    match c.findEntry fun e => e.isFor item index &&
        (e.state = .responseReceived || e.state = .requestPrepared) with
    | some i =>
      ({ c with items := Function.update c.items i { c.items i with
          data := memcpy (c.items i).data buffer length, state := .responseReceived } }, true)
    | none => (c, true)
  else (c, false)

def changeUpdateIndex : DatamanCache :=
  if c.numItems = 0 then { c with updateIndex := 0, itemCounter := 0 }
  else
    { c with
      updateIndex := (c.updateIndex + 1) % c.numItems
      itemCounter := c.itemCounter - 1 }

/-- The cache, the client and the request after `update`; the flag: responses are read first. -/
structure Updated where
  cache : DatamanCache
  client : DatamanClient
  outgoing : Option (Request × Bool) := none

/-- The `switch` of `update`. -/
def switch (client : DatamanClient) (now : UInt64) : Updated :=
  match c.state c.updateIndex with
  | .idle | .error => { cache := c, client }
  | .responseReceived => { cache := c.changeUpdateIndex, client }
  | .requestPrepared =>
    match client.readAsync now (c.items c.updateIndex).item (c.items c.updateIndex).index
        c.updateIndex (perItemSize (c.items c.updateIndex).item) with
    | some (client, request) =>
      { cache := c.setState c.updateIndex .requestSent, client := client
        outgoing := some (request, true) }
    | none => { cache := c.setState c.updateIndex .error, client }
  | .requestSent =>
    match client.lastOperationCompleted with
    | (client, some true) =>
      { cache := (c.setState c.updateIndex .responseReceived).changeUpdateIndex
        client := client }
    | (client, some false) => { cache := c.setState c.updateIndex .error, client }
    | (client, none) => { cache := c, client }

/-- The error handling at the end of `update`; the entry is at the index the `switch` leaves. -/
def skipError : DatamanCache :=
  if c.state c.updateIndex = .error then c.changeUpdateIndex else c

/-- The `memcpy` of `DatamanClient::update` to the buffer of the active request. -/
def copyTo (request : AsyncRequest) : Option Bytes → DatamanCache
  | some data =>
    { c with items := Function.update c.items request.buffer { c.items request.buffer with
        data := memcpy (c.items request.buffer).data data request.length } }
  | none => c

def update (client : DatamanClient) (now : UInt64) (response : Option Response)
    (expired : Bool) : Updated :=
  if c.itemCounter > 0 then
    let u := client.update now response expired
    let r := (c.copyTo client.activeRequest u.copied).switch u.client now
    { cache := r.cache.skipError
      client := r.client
      outgoing := r.outgoing.or (u.retry.map fun request => (request, false)) }
  else { cache := c, client }

def invalidate (client : DatamanClient) : DatamanCache × DatamanClient :=
  ({ c with
      items := fun i => if i < c.numItems then { c.items i with state := .idle } else c.items i
      loadIndex := 0
      updateIndex := 0
      itemCounter := 0 }, client.abortCurrentOperation)

/-- `resize`; `allocated` says whether there is memory. -/
def resize (client : DatamanClient) (numItems : ℕ) (allocated : Bool) :
    DatamanCache × DatamanClient :=
  if numItems = 0 then ({ numItems := 0 }, client.abortCurrentOperation)
  else if allocated then
    ({ numItems := numItems
       items := fun i => if i < numItems ∧ i < c.numItems then (c.items i).kept else {}
       loadIndex := if c.loadIndex < numItems then c.loadIndex else 0
       updateIndex := if c.updateIndex < numItems then c.updateIndex else 0
       itemCounter := if c.itemCounter < numItems then c.itemCounter else numItems },
      client.abortCurrentOperation)
  else (c, client)

end DatamanCache

end Px4.Dataman
