import Px4.Dataman.CacheEntries

/-!
# The cache and the storage

A `DatamanCache` whose client is the only writer of the storage, with the network in between. What
`loadWait` returns is what was last written, as long as every write is answered by its own response,
and `update` never leaves an entry behind the window.
-/

namespace Px4.Dataman

open DatamanCache Exchange List Option SyncCall

inductive CacheCall where
  | load (item : DmItem) (index : ℕ)
  | loadWait (item : DmItem) (index length timeout : ℕ)
  | writeWait (item : DmItem) (index : ℕ) (buffer : Bytes) (length : ℕ)
  | update (expired : Bool)
  | invalidate

/-- A call that waits for `readSync` or `writeSync`. -/
inductive Waiting where
  | read (item : DmItem) (index length timeout : ℕ)
  | write (item : DmItem) (index : ℕ) (buffer : Bytes) (length : ℕ)

/-- The cache, its client and the network, with the last written and the last loaded data. -/
structure CacheSystem where
  exchange : Exchange := {}
  client : DatamanClient
  cache : DatamanCache
  waiting : Option Waiting := none
  written : Values := fun item _ => replicate (perItemSize item) 0
  loaded : Option (DmItem × ℕ × Bytes) := none

inductive CacheEvent where
  | call (now : UInt64) (call : CacheCall)
  | exchange (e : ExchangeEvent)
  /-- the call goes on after `readSync` or `writeSync` -/
  | resume

namespace CacheSystem

variable (s : CacheSystem)

def init (numItems : ℕ) (clientId : UInt8) : CacheSystem where
  client := { clientId }
  cache := { numItems }

/-- No call runs. -/
def ready : Bool := s.waiting.isNone && s.exchange.phase = .idle

/-- The response that `DatamanClient::update` finds, if it looks for one. -/
def response : Option Response :=
  if s.cache.itemCounter > 0 ∧ s.client.state = .requestSent then s.exchange.net.responses.head?
  else none

/-- The network after `DatamanClient::update` has looked for a response. -/
def received : Network :=
  if s.cache.itemCounter > 0 ∧ s.client.state = .requestSent then s.exchange.net.receive
  else s.exchange.net

/-- Publish the request of a function that does not wait. -/
def send : Option (Request × Bool) → Phase
  | some (request, true) => .draining request false
  | some (request, false) => .publishing request false
  | none => .idle

def finishLoad (item : DmItem) (index length timeout : ℕ) (read : Option Bytes) : CacheSystem :=
  { s with
    cache := (s.cache.loadWait item index length timeout read).1
    loaded := (s.cache.loadWait item index length timeout read).2.map fun data =>
      (item, index, data) }

def finishWrite (item : DmItem) (index : ℕ) (buffer : Bytes) (length : ℕ)
    (written : Bool) : CacheSystem :=
  { s with
    cache := (s.cache.writeWait item index buffer length written).1
    written := if written then Write.target s.written (some ⟨item, index, buffer.take length⟩)
      else s.written
    loaded := none }

/-- Wait for the response to a request. -/
def wait (request : Request) (waiting : Waiting) : CacheSystem :=
  { s with exchange.phase := .draining request true, waiting := some waiting }

/-- A call begins, and returns if it does not wait. -/
def begin (now : UInt64) : CacheCall → CacheSystem
  | .load item index => { s with cache := (s.cache.load item index).1 }
  | .loadWait item index length timeout =>
    if (s.cache.hit item index).isNone && timeout > 0 then
      match request s.client.clientId now (.readSync item index length) with
      | some request => s.wait request (.read item index length timeout)
      | none => s.finishLoad item index length timeout none
    else s.finishLoad item index length timeout none
  | .writeWait item index buffer length =>
    match request s.client.clientId now (.writeSync item index buffer length) with
    | some request => s.wait request (.write item index buffer length)
    | none => s.finishWrite item index buffer length false
  | .update expired =>
    let r := s.cache.update s.client now s.response expired
    { s with
      exchange := ⟨s.received, send r.outgoing⟩
      cache := r.cache
      client := r.client }
  | .invalidate =>
    { s with
      cache := (s.cache.invalidate s.client).1
      client := (s.cache.invalidate s.client).2 }

/-- `readSync` and `writeSync` check the status of the response. -/
def successful (answer : Option Response) : Option Response :=
  answer.filter fun r => r.status = .success

variable {answer : Option Response} {r : Response}

theorem mem_successful : r ∈ successful answer ↔ answer = some r ∧ r.status = .success := by
  unfold successful
  rw [mem_def, filter_eq_some_iff, decide_eq_true_iff]

def step (cfg : Config) (s : CacheSystem) : CacheEvent → CacheSystem
  | .call now call => if s.ready then begin { s with loaded := none } now call else s
  | .exchange e => { s with exchange := s.exchange.step cfg s.client.clientId e }
  | .resume =>
    match s.waiting, s.exchange.phase with
    | some (.read item index length timeout), .finished _ answer =>
      finishLoad { s with exchange.phase := .idle, waiting := none } item index length timeout
        ((successful answer).map fun r => r.data.take length)
    | some (.write item index buffer length), .finished _ answer =>
      finishWrite { s with exchange.phase := .idle, waiting := none } item index buffer length
        (successful answer).isSome
    | _, _ => s

/-- What `loadWait` has returned is what was last written. -/
def Coherent : Prop :=
  ∀ item index data, s.loaded = some (item, index, data) → data = s.written item index

/-- Loads and writes are of whole items, every write succeeds, and no other client writes. -/
def InScope : CacheEvent → Prop
  | .call _ (.loadWait item _ length _) => length = perItemSize item
  | .call _ (.writeWait item _ buffer length) => length = perItemSize item ∧ buffer.length = length
  | .exchange (.foreign q) => q.requestType ≠ .write ∧ q.requestType ≠ .clear
  | .resume =>
    match s.waiting, s.exchange.phase with
    | some (.write _ _ _ _), .finished _ answer => (successful answer).isSome
    | _, _ => True
  | _ => True

instance (s : CacheSystem) : (e : CacheEvent) → Decidable (s.InScope e)
  | .call _ (.loadWait item _ length _) => inferInstanceAs (Decidable (_ = _))
  | .call _ (.writeWait item _ buffer length) => inferInstanceAs (Decidable (_ ∧ _))
  | .exchange (.foreign q) => inferInstanceAs (Decidable (_ ∧ _))
  | .resume => by
    unfold InScope
    dsimp only
    split <;> infer_instance
  | .call _ (.load ..) | .call _ (.update _) | .call _ .invalidate | .exchange (.thread ..)
  | .exchange .take | .exchange (.execute _) | .exchange .respond =>
    isTrue trivial

/-- A write starts when nothing on its way passes for another answer to it, and `update` does not
leave an entry behind the window. -/
def Safe : CacheEvent → Prop
  | .exchange e => s.exchange.CleanWrite e
  | .call _ (.update _) => s.ready → s.cache.LeavesCleanly s.client s.response
  | _ => True

instance (s : CacheSystem) : (e : CacheEvent) → Decidable (s.Safe e)
  | .exchange e => inferInstanceAs (Decidable (s.exchange.CleanWrite e))
  | .call _ (.update _) => inferInstanceAs (Decidable (_ → _))
  | .call _ (.load ..) | .call _ (.loadWait ..) | .call _ (.writeWait ..)
  | .call _ .invalidate | .resume => isTrue trivial

end CacheSystem

/-! ## The network during a call -/

/-- Where a call of the cache is, and what is on the network meanwhile. -/
inductive InCall (clientId : UInt8) (n : Network) (v : Values) : Option Waiting → Phase → Prop
  | idle (h : Tracks clientId n v none) : InCall clientId n v none .idle
  /-- `update` publishes a read request -/
  | sending {phase : Phase} {request : Request} (hphase : phase.unpublished = some (request, false))
      (hread : request.requestType = .read) (h : Tracks clientId n v none) :
      InCall clientId n v none phase
  | reading {phase : Phase} {request : Request} {item : DmItem} {index timeout : ℕ}
      (hphase : phase.unpublished = some (request, true) ∨ phase.published = some request)
      (hkey : request.key = readKey clientId item index) (hid : clientId ≠ clientIdNotSet)
      (h : Tracks clientId n v none) :
      InCall clientId n v (some (.read item index (perItemSize item) timeout)) phase
  | read {request : Request} {answer : Option Response} {item : DmItem} {index timeout : ℕ}
      (hanswer : ∀ r ∈ CacheSystem.successful answer, r.data.take (perItemSize item) = v item index)
      (h : Tracks clientId n v none) :
      InCall clientId n v (some (.read item index (perItemSize item) timeout))
        (.finished request answer)
  | writing {phase : Phase} {now : UInt64} {item : DmItem} {index : ℕ} {buffer : Bytes}
      (hphase : phase.unpublished =
        some (writeRequest clientId now item index buffer (perItemSize item), true))
      (hbuffer : (buffer.take (perItemSize item)).length = perItemSize item)
      (hid : clientId ≠ clientIdNotSet) (h : Tracks clientId n v none) :
      InCall clientId n v (some (.write item index buffer (perItemSize item))) phase
  | confirming {phase : Phase} {now : UInt64} {item : DmItem} {index : ℕ} {buffer : Bytes}
      (hphase : phase.published =
        some (writeRequest clientId now item index buffer (perItemSize item)))
      (hbuffer : (buffer.take (perItemSize item)).length = perItemSize item)
      (hid : clientId ≠ clientIdNotSet)
      (h : Tracks clientId n v (some ⟨item, index, buffer.take (perItemSize item)⟩)) :
      InCall clientId n v (some (.write item index buffer (perItemSize item))) phase
  | written {request : Request} {answer : Option Response} {item : DmItem} {index : ℕ}
      {buffer : Bytes} (hbuffer : (buffer.take (perItemSize item)).length = perItemSize item)
      (h : (CacheSystem.successful answer).isSome → Tracks clientId n
        (Write.target v (some ⟨item, index, buffer.take (perItemSize item)⟩)) none) :
      InCall clientId n v (some (.write item index buffer (perItemSize item)))
        (.finished request answer)

theorem payload_writeRequest {clientId now item index buffer length} :
    (writeRequest clientId now item index buffer length).payload = buffer.take length := by
  unfold Request.payload writeRequest
  rw [take_take, Nat.min_self]

variable {v : Values} {w : Option Write} {now : UInt64} {buffer : Bytes}

theorem Request.tracked_of_read {clientId} {q : Request} (h : q.requestType = .read) :
    q.Tracked clientId v w := by
  unfold Request.Tracked
  rw [h]
  exact ⟨nofun, nofun⟩

theorem Request.tracked_writeRequest {clientId item index}
    (hbuffer : (buffer.take (perItemSize item)).length = perItemSize item) :
    (writeRequest clientId now item index buffer (perItemSize item)).Tracked clientId v
      (some ⟨item, index, buffer.take (perItemSize item)⟩) := by
  refine ⟨nofun, fun _ => ⟨rfl, rfl, ?_, ?_⟩⟩
  · rw [payload_writeRequest]
    exact hbuffer
  · rw [payload_writeRequest]
    exact (Write.target_of_isFor (x := ⟨item, index, buffer.take (perItemSize item)⟩)).symm

namespace InCall

variable {cfg : Config} {clientId : UInt8} {n n' : Network} {v : Values} {waiting : Option Waiting}
  {phase : Phase}

theorem of_network (h : InCall clientId n v waiting phase)
    (htracks : ∀ v w, Tracks clientId n v w → Tracks clientId n' v w) :
    InCall clientId n' v waiting phase := by
  cases h with
  | idle h => exact .idle (htracks _ _ h)
  | sending hphase hread h => exact .sending hphase hread (htracks _ _ h)
  | reading hphase hkey hid h => exact .reading hphase hkey hid (htracks _ _ h)
  | read hanswer h => exact .read hanswer (htracks _ _ h)
  | writing hphase hbuffer hid h => exact .writing hphase hbuffer hid (htracks _ _ h)
  | confirming hphase hbuffer hid h => exact .confirming hphase hbuffer hid (htracks _ _ h)
  | written hbuffer h => exact .written hbuffer fun hanswer => htracks _ _ (h hanswer)

variable {item : DmItem} {index : ℕ}

theorem thread_reading {request timeout} (hphase : phase.published = some request)
    (hkey : request.key = readKey clientId item index) (hid : clientId ≠ clientIdNotSet)
    (h : Tracks clientId n v none) {expired} {poll : Poll} :
    let y := advance cfg ⟨n, phase⟩ expired poll phase
    InCall clientId y.net v (some (.read item index (perItemSize item) timeout)) y.phase := by
  obtain ⟨n', phase', heq, hphase', hn⟩ | heq | ⟨response, responses, hresponses, haccepts, heq⟩ :=
    advance_published cfg n expired poll hphase
  · rw [heq]
    have hread : request.requestType = .read := congrArg Key.requestType hkey
    exact .reading (.inr hphase') hkey hid (h.of_published (Request.tracked_of_read hread) hn)
  · rw [heq]
    exact .read nofun h
  · rw [heq]
    refine .read (fun r hr => ?_) h.receive
    obtain ⟨hr, hstatus⟩ := CacheSystem.mem_successful.mp hr
    cases hr
    have hset : request.clientId ≠ clientIdNotSet :=
      (congrArg Key.clientId hkey).trans_ne hid
    exact h.answer hresponses ⟨((accepts_iff hset).mp haccepts).trans hkey, hstatus⟩

theorem thread_confirming (hphase : phase.published =
      some (writeRequest clientId now item index buffer (perItemSize item)))
    (hbuffer : (buffer.take (perItemSize item)).length = perItemSize item)
    (hid : clientId ≠ clientIdNotSet)
    (h : Tracks clientId n v (some ⟨item, index, buffer.take (perItemSize item)⟩)) (expired poll) :
    let y := advance cfg ⟨n, phase⟩ expired poll phase
    InCall clientId y.net v (some (.write item index buffer (perItemSize item))) y.phase := by
  obtain ⟨n', phase', heq, hphase', hn⟩ | heq | ⟨response, responses, hresponses, haccepts, heq⟩ :=
    advance_published cfg n expired poll hphase
  · rw [heq]
    exact .confirming hphase' hbuffer hid (h.of_published (Request.tracked_writeRequest hbuffer) hn)
  · rw [heq]
    exact .written hbuffer nofun
  · rw [heq]
    refine .written hbuffer fun hanswer => ?_
    obtain ⟨r, hr⟩ := isSome_iff_exists.mp hanswer
    obtain ⟨hr, hstatus⟩ := CacheSystem.mem_successful.mp hr
    cases hr
    exact h.finish hresponses ⟨(accepts_iff hid).mp haccepts, hstatus⟩

theorem thread (cfg : Config) (h : InCall clientId n v waiting phase) (expired : Bool) (poll : Poll)
    (hclean : Exchange.CleanWrite ⟨n, phase⟩ (.thread expired poll)) :
    let r := advance cfg ⟨n, phase⟩ expired poll phase
    InCall clientId r.net v waiting r.phase := by
  cases h with
  | idle h => exact .idle h
  | read hanswer h => exact .read hanswer h
  | written hbuffer h => exact .written hbuffer h
  | sending hphase hread h =>
    obtain ⟨n', phase', heq, hphase', hn⟩ | ⟨rfl, heq⟩ :=
      advance_unpublished cfg n expired poll hphase
    · rw [heq]
      exact .sending hphase' hread (h.of_unpublished hn)
    · exact .idle (h.publish (Request.tracked_of_read hread))
  | reading hphase hkey hid h =>
    obtain hphase | hphase := hphase
    · obtain ⟨n', phase', heq, hphase', hn⟩ | ⟨rfl, heq⟩ :=
        advance_unpublished cfg n expired poll hphase
      · rw [heq]
        exact .reading (.inl hphase') hkey hid (h.of_unpublished hn)
      · exact .reading (.inr rfl) hkey hid
          (h.publish (Request.tracked_of_read (congrArg Key.requestType hkey)))
    · exact thread_reading hphase hkey hid h
  | writing hphase hbuffer hid h =>
    obtain ⟨n', phase', heq, hphase', hn⟩ | ⟨rfl, heq⟩ :=
      advance_unpublished cfg n expired poll hphase
    · rw [heq]
      exact .writing hphase' hbuffer hid (h.of_unpublished hn)
    · -- the write starts
      refine .confirming rfl hbuffer hid (Tracks.publish ?_ (Request.tracked_writeRequest hbuffer))
      exact h.start rfl (payload_writeRequest ..) (hclean rfl)
  | confirming hphase hbuffer hid h => exact thread_confirming hphase hbuffer hid h expired poll

theorem exchange (cfg : Config) {x : Exchange} (h : InCall clientId x.net v waiting x.phase)
    (e : ExchangeEvent) (hclean : x.CleanWrite e)
    (hforeign : ∀ q, e = .foreign q → q.requestType ≠ .write ∧ q.requestType ≠ .clear) :
    InCall clientId (x.step cfg clientId e).net v waiting (x.step cfg clientId e).phase := by
  cases e with
  | thread expired poll => exact h.thread cfg expired poll hclean
  | take => exact h.of_network fun _ _ => Tracks.take
  | execute ok => exact h.of_network fun _ _ htracks => htracks.execute ok
  | respond => exact h.of_network fun _ _ => Tracks.respond
  | foreign q =>
    obtain ⟨hwrite, hclear⟩ := hforeign q rfl
    unfold Exchange.step
    dsimp only
    split
    · exact h
    · exact h.of_network fun _ _ htracks => htracks.publish ⟨hclear, fun hq => absurd hq hwrite⟩

theorem tracks (h : InCall clientId n v none .idle) : Tracks clientId n v none := by
  cases h with
  | idle h => exact h
  | sending hphase => cases hphase

end InCall

/-! ## Runs -/

namespace CacheSystem

variable {cfg : Config} {s : CacheSystem}

structure Inv (s : CacheSystem) : Prop where
  length : ∀ item index, (s.written item index).length = perItemSize item
  cache : CacheInv s.cache s.client s.written
  call : InCall s.client.clientId s.exchange.net s.written s.waiting s.exchange.phase
  coherent : s.Coherent

theorem ready_iff : s.ready ↔ s.waiting = none ∧ s.exchange.phase = .idle := by
  unfold ready
  rw [Bool.and_eq_true, isNone_iff_eq_none, decide_eq_true_iff]

variable {item : DmItem} {index : ℕ} {clientId : UInt8} {n : Network}
  {outgoing : Option (Request × Bool)}

theorem Inv.finishLoad (h : s.Inv) (timeout) {read}
    (hread : ∀ buffer ∈ read, buffer = s.written item index) :
    (s.finishLoad item index (perItemSize item) timeout read).Inv where
  __ := h
  cache := h.cache.loadWait timeout (h.length item index) hread
  coherent item' index' data hloaded := by
    obtain ⟨data', hdata, heq⟩ := map_eq_some_iff.mp hloaded
    cases heq
    exact h.cache.loadWait_data hread hdata

theorem inCall_send (h : Tracks clientId n v none)
    (hread : ∀ q ∈ outgoing, q.1.requestType = .read) :
    InCall clientId n v none (send outgoing) := by
  cases outgoing with
  | none => exact .idle h
  | some q =>
    obtain ⟨request, drain⟩ := q
    cases drain <;> exact .sending rfl (hread _ rfl) h

section

variable (h : Tracks s.client.clientId s.exchange.net v none)
include h

theorem tracks_received : Tracks s.client.clientId s.received v none := by
  unfold received
  split
  · exact h.receive
  · exact h

variable {r : Response}

/-- A response that `update` accepts has the data that was last written. -/
theorem accepted_response (hr : r ∈ s.client.accepted s.response) (hstatus : r.status = .success) :
    r.data.take (perItemSize s.client.activeRequest.item) =
      v s.client.activeRequest.item s.client.activeRequest.index := by
  unfold DatamanClient.accepted response at hr
  rw [mem_def, ite_none_right_eq_some, filter_eq_some_iff,
    ite_none_right_eq_some, head?_eq_some_iff] at hr
  obtain ⟨-, ⟨-, responses, hresponses⟩, hexpects⟩ := hr
  exact h.answer hresponses ⟨of_decide_eq_true hexpects, hstatus⟩

end

theorem Inv.update (h : s.Inv) (htracks : Tracks s.client.clientId s.exchange.net s.written none)
    (hwaiting : s.waiting = none) (now expired)
    (hcleanly : s.cache.LeavesCleanly s.client s.response) :
    (s.begin now (.update expired)).Inv := by
  have hsends : (s.cache.update s.client now s.response expired).client.clientId =
      s.client.clientId ∧ ∀ q ∈ (s.cache.update s.client now s.response expired).outgoing,
        q.1.requestType = .read := by
    by_cases hloading : 0 < s.cache.itemCounter
    · exact (update_move h.cache.window h.cache.linked hloading now s.response expired).sends_read
    · rw [update_of_not_loading hloading]
      exact ⟨rfl, nofun⟩
  refine ⟨h.length, ?_, ?_, h.coherent⟩
  · exact h.cache.update h.length now expired (fun r => accepted_response htracks) hcleanly
  · dsimp only [CacheSystem.begin]
    rw [hsends.1, hwaiting]
    exact inCall_send (tracks_received htracks) hsends.2

theorem Inv.begin (h : s.Inv) (hready : s.ready) (now call) (hscope : s.InScope (.call now call))
    (hsafe : s.Safe (.call now call)) : (s.begin now call).Inv := by
  obtain ⟨hwaiting, hphase⟩ := ready_iff.mp hready
  have htracks : Tracks s.client.clientId s.exchange.net s.written none := by
    have hcall := h.call
    rw [hwaiting, hphase] at hcall
    exact hcall.tracks
  cases call with
  | load item index => exact { h with cache := h.cache.load item index }
  | loadWait item index length timeout =>
    obtain rfl : length = perItemSize item := hscope
    unfold CacheSystem.begin
    dsimp only
    split
    · cases hrequest : request s.client.clientId now
          (.readSync item index (perItemSize item)) with
      | none => exact h.finishLoad timeout nofun
      | some request =>
        obtain ⟨hid, rfl⟩ := request_readSync hrequest
        exact { h with call := .reading (.inl rfl) rfl hid htracks }
    · exact h.finishLoad timeout nofun
  | writeWait item index buffer length =>
    obtain ⟨rfl, hbuffer⟩ : length = perItemSize item ∧ buffer.length = length := hscope
    unfold CacheSystem.begin
    dsimp only
    cases hrequest : request s.client.clientId now
        (.writeSync item index buffer (perItemSize item)) with
    | none =>
      refine ⟨h.length, ?_, h.call, nofun⟩
      dsimp only [finishWrite]
      rw [writeWait_false]
      exact h.cache
    | some request =>
      obtain ⟨hid, rfl⟩ := request_writeSync hrequest
      refine { h with call := .writing rfl ?_ hid htracks }
      rw [← hbuffer, take_length]
  | update expired => exact h.update htracks hwaiting now expired (hsafe hready)
  | invalidate => exact { h with cache := h.cache.invalidate }

theorem Inv.resume (h : s.Inv) (hscope : s.InScope .resume) : (s.step cfg .resume).Inv := by
  obtain ⟨⟨net, phase⟩, client, cache, waiting, written, loaded⟩ := s
  have hcall := h.call
  cases hcall with
  | idle | sending => exact h
  | read hanswer htracks =>
    have hidle : Inv ⟨⟨net, .idle⟩, client, cache, none, written, loaded⟩ :=
      { h with call := .idle htracks }
    refine hidle.finishLoad _ fun buffer hbuffer => ?_
    obtain ⟨r, hr, rfl⟩ := map_eq_some_iff.mp hbuffer
    exact hanswer r hr
  | @written _ answer item index buffer hbuffer htracks =>
    have hanswer : (successful answer).isSome := hscope
    unfold CacheSystem.step finishWrite
    dsimp only
    rw [hanswer]
    exact ⟨Write.length_target h.length hbuffer, h.cache.writeWait hbuffer,
      .idle (htracks hanswer), nofun⟩
  | reading hphase =>
    cases phase with
    | finished => exact hphase.elim nofun nofun
    | idle | draining | publishing | checking | polling | resending => exact h
  | writing hphase | confirming hphase =>
    cases phase with
    | finished => cases hphase
    | idle | draining | publishing | checking | polling | resending => exact h

theorem Inv.step (h : s.Inv) (e : CacheEvent) (hscope : s.InScope e) (hsafe : s.Safe e) :
    (s.step cfg e).Inv := by
  cases e with
  | call now call =>
    unfold CacheSystem.step
    dsimp only
    split
    · have hcall : Inv { s with loaded := none } := ⟨h.length, h.cache, h.call, nofun⟩
      exact hcall.begin ‹_› now call hscope hsafe
    · exact h
  | exchange e =>
    refine { h with call := h.call.exchange cfg e hsafe fun q hq => ?_ }
    subst hq
    exact hscope
  | resume => exact h.resume hscope

theorem inv_init (numItems clientId) : (init numItems clientId).Inv where
  length _ _ := length_replicate
  cache := .init numItems clientId _
  call := .idle (.init clientId)
  coherent := nofun

/-- In every run of a cache, its client, the task, and other clients that do not write, with loads
and writes of whole items and writes that succeed: what `loadWait` returns is what was last written
to the place, if each write starts when nothing on its way passes for another answer to it, and
`update` never leaves an entry behind the window. -/
theorem cache_coherent (cfg : Config) (numItems : ℕ) (clientId : UInt8) (events : List CacheEvent)
    (h : Run.Along (step cfg) (fun s e => s.InScope e ∧ s.Safe e) (init numItems clientId) events) :
    Run.Always (step cfg) Coherent (init numItems clientId) events :=
  Run.always_of_invariant (fun _ e hinv hstep => hinv.step e hstep.1 hstep.2)
    (fun _ hinv => hinv.coherent) (inv_init numItems clientId) h

/-! ## Examples of runs -/

/-- The client goes on, and reads a response if there is one. -/
def go : CacheEvent := .exchange (.thread false .ready)

/-- The task handles one request. -/
def serve : List CacheEvent := [.exchange .take, .exchange (.execute true), .exchange .respond]

def loads (item : DmItem) (index : ℕ) : List CacheEvent :=
  [.call 0 (.load item index), .call 0 (.update false), go, go] ++ serve ++
    [.call 0 (.update false)]

def writes (item : DmItem) (b : UInt8) : List CacheEvent :=
  [.call 0 (.writeWait item 0 (replicate 8 b) 8), go, go, go] ++ serve ++ [go, .resume]

/-- A write during a read of its place: the response comes too early, and `update` asks again. -/
def prefetched : List CacheEvent :=
  writes .compat 1 ++ [.call 0 (.load .compat 0), .call 0 (.update false), go, go, .exchange .take,
      .call 0 (.writeWait .compat 0 (replicate 8 2) 8), go, go, go, .exchange (.execute true),
      .exchange .respond, go, go] ++ serve ++ [go, .resume] ++
    [.call 0 (.update true), go] ++ serve ++
    [.call 0 (.update false), .call 0 (.loadWait .compat 0 8 0)]

theorem cache_coherent_prefetched :
    (Run.after (step ⟨1, 0⟩) (init 1 1) prefetched).loaded =
        some (.compat, 0, replicate 8 2) ∧
      Run.Always (step ⟨1, 0⟩) Coherent (init 1 1) prefetched :=
  ⟨by decide +kernel, cache_coherent ⟨1, 0⟩ 1 1 prefetched (by decide +kernel)⟩

/-- A write is published twice, and its second answer passes for that of the next write. -/
def doubled : List CacheEvent :=
  [.call 0 (.writeWait .compat 0 (replicate 8 1) 8), go, go, go, .exchange .take,
    .exchange (.thread false .timeout), go, go, .exchange (.execute true), .exchange .respond, go,
    .resume] ++
  [.exchange .take, .call 0 (.load .compat 0), .call 0 (.update false), go, go,
    .call 0 (.writeWait .compat 0 (replicate 8 2) 8), go, .exchange (.execute true),
    .exchange .respond, .exchange .take, go, go, go, .resume] ++
  [.exchange (.execute true), .exchange .respond, .call 0 (.update false),
    .call 0 (.loadWait .compat 0 8 0)]

/-- A failed request leaves an entry with an error, and `update` leaves that entry when it has left
the last one. The next entry is filled again while its request is active, and then gets the data of
that request. -/
def skipped : List CacheEvent :=
  writes .compat 1 ++ writes .safePointsState 2 ++ loads .compat 9 ++ loads .missionState 0 ++
  [.call 0 (.load .compat 0), .call 0 (.load .fencePointsState 0), .call 0 (.update false), go,
    go] ++ serve ++
  [.call 0 (.update false), .call 0 (.update false), go, go, .exchange .take,
    .call 0 (.loadWait .safePointsState 0 8 1), go, go, .exchange (.execute true),
    .exchange .respond, .exchange .take, go, go, go, .exchange (.execute true), .exchange .respond,
    go, .resume] ++
  [.call 0 (.update true), go] ++ serve ++
  [.call 0 (.update false), .call 0 (.loadWait .safePointsState 0 8 0)]

/-- Both defects make `loadWait` return other data than was last written. -/
theorem cache_not_coherent :
    (Run.Along (step ⟨1, 0⟩) InScope (init 1 1) doubled ∧
      (Run.after (step ⟨1, 0⟩) (init 1 1) doubled).loaded =
        some (.compat, 0, replicate 8 1) ∧
      (Run.after (step ⟨1, 0⟩) (init 1 1) doubled).written .compat 0 = replicate 8 2) ∧
    (Run.Along (step ⟨1, 0⟩) InScope (init 2 1) skipped ∧
      (Run.after (step ⟨1, 0⟩) (init 2 1) skipped).loaded =
        some (.safePointsState, 0, replicate 8 1) ∧
      (Run.after (step ⟨1, 0⟩) (init 2 1) skipped).written .safePointsState 0 = replicate 8 2) :=
  ⟨⟨by decide +kernel, by decide +kernel, by decide +kernel⟩,
    ⟨by decide +kernel, by decide +kernel, by decide +kernel⟩⟩

end CacheSystem

end Px4.Dataman
