import Px4.Common.Run
import Px4.Dataman.Exchange

/-!
# Synchronous writes

`readSync`, `writeSync` and `clearSync` of `src/lib/dataman_client/DatamanClient.cpp`. A request
that has been published twice is answered twice, and the second answer passes for the answer to the
next write to the same place.
-/

namespace Px4.Dataman

open Exchange List Network Option Phase

/-- The calls that wait. `clearSync` publishes whatever `index` is before it is set. -/
inductive SyncCall where
  | readSync (item : DmItem) (index length : ℕ)
  | writeSync (item : DmItem) (index : ℕ) (buffer : Bytes) (length : ℕ)
  | clearSync (item : DmItem) (uninitialized : ℕ)

/-- The request of `readSync` and `readAsync`. -/
def readRequest (clientId : UInt8) (now : UInt64) (item : DmItem) (index length : ℕ) : Request where
  timestamp := now
  clientId := clientId
  requestType := .read
  item := item
  index := index
  dataLength := length

/-- The request of `writeSync`. -/
def writeRequest (clientId : UInt8) (now : UInt64) (item : DmItem) (index : ℕ) (buffer : Bytes)
    (length : ℕ) : Request where
  timestamp := now
  clientId := clientId
  requestType := .write
  item := item
  index := index
  data := buffer.take length
  dataLength := length

/-- The request that a call publishes, unless it returns `false` at once. -/
def SyncCall.request (clientId : UInt8) (now : UInt64) : SyncCall → Option Request
  | readSync item index length =>
    if clientId = clientIdNotSet then none
    else if length > perItemSize item then none
    else some (readRequest clientId now item index length)
  | writeSync item index buffer length =>
    if clientId = clientIdNotSet then none
    else if length > perItemSize item then none
    else some (writeRequest clientId now item index buffer length)
  | clearSync item uninitialized =>
    if clientId = clientIdNotSet then none
    else some { timestamp := now, clientId, requestType := .clear, item,
                index := uninitialized }

variable {clientId : UInt8} {now : UInt64} {request : Request}

theorem SyncCall.request_clientId {call : SyncCall} (h : call.request clientId now = some request) :
    request.clientId = clientId ∧ request.clientId ≠ clientIdNotSet := by
  by_cases hset : clientId = clientIdNotSet
  · cases call <;> exact absurd h (by simp [SyncCall.request, hset])
  suffices hid : request.clientId = clientId from ⟨hid, hid ▸ hset⟩
  cases call with
  | readSync | writeSync =>
    simp only [SyncCall.request, if_neg hset, ite_none_left_eq_some, some.injEq] at h
    rw [← h.2]
    rfl
  | clearSync =>
    simp only [SyncCall.request, if_neg hset, some.injEq] at h
    rw [← h]

variable {item : DmItem} {index : ℕ} {buffer : Bytes}

theorem SyncCall.request_readSync {index length}
    (h : (readSync item index length).request clientId now = some request) :
    clientId ≠ clientIdNotSet ∧ request = readRequest clientId now item index length := by
  rw [SyncCall.request, ite_none_left_eq_some, ite_none_left_eq_some, some.injEq] at h
  exact ⟨h.1, h.2.2.symm⟩

theorem SyncCall.request_writeSync {length}
    (h : (writeSync item index buffer length).request clientId now = some request) :
    clientId ≠ clientIdNotSet ∧
      request = writeRequest clientId now item index buffer length := by
  rw [SyncCall.request, ite_none_left_eq_some, ite_none_left_eq_some, some.injEq] at h
  exact ⟨h.1, h.2.2.symm⟩

/-- A client and its network, with the successful writes since its last call. -/
structure SyncClient where
  clientId : UInt8
  exchange : Exchange := {}
  executed : List Request := []

inductive SyncEvent where
  | call (now : UInt64) (call : SyncCall)
  | exchange (e : ExchangeEvent)

namespace SyncClient

/-- The write that a step executes, if it succeeds. -/
def executes (cfg : Config) (n : Network) : ExchangeEvent → List Request
  | .execute ok =>
    match n.task with
    | .handling request =>
      if request.requestType = .write ∧
          (n.data.handle cfg.numMissionItems request ok).2.status = .success then [request]
      else []
    | _ => []
  | _ => []

/-- One step. A call is made only when no other one runs. -/
def step (cfg : Config) (s : SyncClient) : SyncEvent → SyncClient
  | .call now call =>
    if s.exchange.phase.busy then s
    else
      { s with
        exchange.phase :=
          match call.request s.clientId now with
          | some request => .draining request true
          | none => .idle
        executed := [] }
  | .exchange e =>
    { s with
      exchange := s.exchange.step cfg s.clientId e
      executed := s.executed ++ executes cfg s.exchange.net e }

/-- The call that published the request has returned `true`. -/
def Succeeded (s : SyncClient) (request : Request) : Prop :=
  ∃ answer, s.exchange.phase = .finished request (some answer) ∧ answer.status = .success

/-- The task has written, since the last call, what the request says. -/
def Executed (executed : List Request) (request : Request) : Prop :=
  ∃ w ∈ executed, w.key = request.key ∧ w.payload = request.payload
deriving Decidable

/-- If `writeSync` has returned `true`, its data has been written in the meantime. -/
def WritesDone (s : SyncClient) : Prop :=
  ∀ request, s.Succeeded request → request.requestType = .write → Executed s.executed request

end SyncClient

/-- Nothing on its way passes for another answer: no request for the same place with other data, and
no good news about an earlier one. -/
def Network.Clean (n : Network) (request : Request) : Prop :=
  (∀ q ∈ n.unexecuted, q.key = request.key → q.payload = request.payload) ∧
    ∀ r ∈ n.unread, r.key = request.key → r.status ≠ .success
deriving Decidable

/-- At the first publishing of a write request, nothing on its way passes for an answer to it. -/
def Exchange.CleanWrite (x : Exchange) : ExchangeEvent → Prop
  | .thread _ _ =>
    match x.phase with
    | .publishing request true => request.requestType = .write → x.net.Clean request
    | _ => True
  | _ => True

instance (x : Exchange) : (e : ExchangeEvent) → Decidable (x.CleanWrite e)
  | .thread .. => by
    unfold Exchange.CleanWrite
    dsimp only
    split <;> infer_instance
  | .take | .execute _ | .respond | .foreign _ => isTrue trivial

namespace SyncClient

/-- The condition on a step of the client. -/
def CleanWrite (s : SyncClient) : SyncEvent → Prop
  | .call _ _ => True
  | .exchange e => s.exchange.CleanWrite e

instance (s : SyncClient) : (e : SyncEvent) → Decidable (s.CleanWrite e)
  | .call .. => isTrue trivial
  | .exchange e => inferInstanceAs (Decidable (s.exchange.CleanWrite e))

/-! ## While a write waits for its response -/

variable {cfg : Config} {n n' : Network} {executed : List Request} {request : Request}

theorem Executed.append (h : Executed executed request) (more) :
    Executed (executed ++ more) request := by
  obtain ⟨w, hw, h⟩ := h
  exact ⟨w, mem_append_left more hw, h⟩

/-- Whatever passes for an answer to the request is one to a request with the same data. -/
structure Waits (n : Network) (executed : List Request) (request : Request) : Prop where
  pending : ∀ q ∈ n.unexecuted, q.key = request.key → q.payload = request.payload
  answered : ∀ r ∈ n.unread, r.key = request.key → r.status = .success →
    Executed executed request

section

variable (h : Waits n executed request)
include h

theorem Waits.mono (hrequests : ∀ q ∈ n'.unexecuted, q ∈ n.unexecuted)
    (hresponses : ∀ r ∈ n'.unread, r ∈ n.unread) :
    Waits n' executed request where
  pending q hq := h.pending q (hrequests q hq)
  answered r hr := h.answered r (hresponses r hr)

theorem Waits.receive : Waits n.receive executed request :=
  h.mono (fun _ hq => hq) fun _ hr => n.unread_receive.subset hr

variable {q : Request}

/-- Another request is published, for another place or with the same data. -/
theorem Waits.publish (hq : q.key = request.key → q.payload = request.payload) :
    Waits (n.publish cfg q) executed request where
  pending p hp := by
    obtain hp | rfl := mem_unexecuted_publish hp
    · exact h.pending p hp
    · exact hq
  answered := h.answered

theorem Waits.execute (hwrite : request.requestType = .write) (ok) :
    Waits (n.execute cfg ok) (executed ++ executes cfg n (.execute ok)) request := by
  obtain ⟨requests, task, responses, data⟩ := n
  cases task with
  | waiting | answering =>
    exact ⟨h.pending, fun r hr hkey hok => (h.answered r hr hkey hok).append _⟩
  | handling q =>
    refine ⟨fun p hp => h.pending p (mem_cons_of_mem _ hp), fun r hr hkey hok => ?_⟩
    obtain hr | hr := mem_append.mp hr
    · exact (h.answered r hr hkey hok).append _
    -- the new response is one to `q`, which has been executed with success
    obtain rfl := mem_singleton.mp hr
    have htype : q.requestType = .write := by
      rw [← requestType_handle cfg.numMissionItems data q ok, ← hwrite]
      exact congrArg Key.requestType hkey
    have hq : q.key = request.key := by
      rw [← hkey, key_handle (by rw [htype]; decide)]
    refine ⟨q, mem_append_right _ ?_, hq, h.pending q (mem_cons_self ..) hq⟩
    unfold executes
    dsimp only
    rw [if_pos ⟨htype, hok⟩]
    exact mem_singleton_self q

end

/-! ## Runs -/

structure Inv (s : SyncClient) : Prop where
  clientId : ∀ request, s.exchange.phase.request = some request →
    request.clientId = s.clientId ∧ request.clientId ≠ clientIdNotSet
  waits : ∀ request, s.exchange.phase.published = some request → request.requestType = .write →
    Waits s.exchange.net s.executed request
  done : s.WritesDone

variable {s : SyncClient} {clientId : UInt8} {phase : Phase}

/-- `syncHandler` waits for the response to its request. -/
theorem Inv.of_published (hphase : phase.published = some request)
    (hid : request.clientId = clientId ∧ request.clientId ≠ clientIdNotSet)
    (hwaits : request.requestType = .write → Waits n executed request) :
    Inv ⟨clientId, ⟨n, phase⟩, executed⟩ where
  clientId r hr := by
    rw [request_of_published hphase] at hr
    cases hr
    exact hid
  waits r hr := by
    rw [hphase] at hr
    cases hr
    exact hwaits
  done r hr := by
    obtain ⟨answer, rfl, _⟩ := hr
    cases hphase

theorem Inv.of_silent (hphase : phase.published = none) (hanswer : phase.answer = none)
    (hid : ∀ request, phase.request = some request →
      request.clientId = clientId ∧ request.clientId ≠ clientIdNotSet) :
    Inv ⟨clientId, ⟨n, phase⟩, executed⟩ where
  clientId := hid
  waits r hr := by
    rw [hphase] at hr
    cases hr
  done r hr := by
    obtain ⟨answer, rfl, _⟩ := hr
    cases hanswer

theorem Inv.of_idle : Inv ⟨clientId, ⟨n, .idle⟩, executed⟩ :=
  .of_silent rfl rfl fun _ hr => by cases hr

theorem Inv.of_network (h : s.Inv) (more)
    (hwaits : ∀ request, request.clientId = s.clientId → request.requestType = .write →
      Waits s.exchange.net s.executed request → Waits n (s.executed ++ more) request) :
    Inv ⟨s.clientId, ⟨n, s.exchange.phase⟩, s.executed ++ more⟩ where
  clientId := h.clientId
  waits request hphase hwrite :=
    hwaits request (h.clientId request (request_of_published hphase)).1 hwrite
      (h.waits request hphase hwrite)
  done request hok hwrite := (h.done request hok hwrite).append _

section

variable (h : Inv ⟨clientId, ⟨n, phase⟩, executed⟩)
include h

variable {sync expired : Bool} {poll : Poll}

theorem Inv.unpublished (hphase : phase.unpublished = some (request, sync))
    (hclean : Exchange.CleanWrite ⟨n, phase⟩ (.thread expired poll)) :
    Inv ⟨clientId, advance cfg ⟨n, phase⟩ expired poll phase, executed⟩ := by
  have hid := h.clientId request (of_unpublished hphase).1
  obtain ⟨n', phase', heq, hphase', -⟩ | ⟨rfl, heq⟩ :=
    advance_unpublished cfg n expired poll hphase
  · obtain ⟨hrequest, hpublished, hanswer⟩ := of_unpublished hphase'
    rw [heq]
    refine .of_silent hpublished hanswer fun r hr => ?_
    rw [hrequest] at hr
    cases hr
    exact hid
  · cases sync with
    | false => exact .of_idle
    | true =>
      refine .of_published rfl hid fun hwrite => ?_
      obtain ⟨hrequests, hresponses⟩ := hclean hwrite
      have hwaits : Waits n executed request :=
        ⟨hrequests, fun r hr hkey hok => absurd hok (hresponses r hr hkey)⟩
      exact hwaits.publish fun _ => rfl

/-- While `syncHandler` waits: a response that it accepts says what has been done. -/
theorem Inv.published (hphase : phase.published = some request) (expired poll) :
    Inv ⟨clientId, advance cfg ⟨n, phase⟩ expired poll phase, executed⟩ := by
  have hid := h.clientId request (request_of_published hphase)
  have hwaits := h.waits request hphase
  obtain ⟨n', phase', heq, hphase', hn⟩ | heq | ⟨response, responses, hresponses, haccepts, heq⟩ :=
    advance_published cfg n expired poll hphase
  · rw [heq]
    refine .of_published hphase' hid fun hwrite => ?_
    obtain rfl | rfl | rfl := hn
    · exact hwaits hwrite
    · exact (hwaits hwrite).receive
    · exact (hwaits hwrite).publish fun _ => rfl
  · rw [heq]
    refine .of_silent rfl rfl fun r hr => ?_
    cases hr
    exact hid
  · rw [heq]
    refine ⟨fun r hr => ?_, nofun, fun r ⟨answer, hanswer, hok⟩ hwrite => ?_⟩
    · cases hr
      exact hid
    · cases hanswer
      refine (hwaits hwrite).answered response ?_ ((accepts_iff hid.2).mp haccepts) hok
      rw [unread_eq_cons hresponses]
      exact mem_cons_self ..

end

theorem Inv.thread (cfg) (h : Inv ⟨clientId, ⟨n, phase⟩, executed⟩) (expired poll)
    (hclean : Exchange.CleanWrite ⟨n, phase⟩ (.thread expired poll)) :
    Inv ⟨clientId, advance cfg ⟨n, phase⟩ expired poll phase, executed⟩ := by
  cases phase with
  | idle | finished => exact h
  | draining | publishing => exact h.unpublished rfl hclean
  | checking | polling | resending => exact h.published rfl expired poll

theorem Inv.step (h : s.Inv) (e : SyncEvent) (hclean : s.CleanWrite e) : (s.step cfg e).Inv := by
  cases e with
  | call now call =>
    unfold SyncClient.step
    dsimp only
    split
    · exact h
    cases hrequest : call.request s.clientId now with
    | none => exact .of_idle
    | some request =>
      exact .of_silent rfl rfl fun r hr =>
        some.inj hr ▸ SyncCall.request_clientId hrequest
  | exchange e =>
    cases e with
    | thread expired poll =>
      have hthread := h.thread cfg expired poll hclean
      unfold SyncClient.step executes
      dsimp only
      rwa [append_nil]
    | take =>
      refine h.of_network [] fun request _ _ hwaits => ?_
      rw [append_nil]
      exact hwaits.mono (fun q hq => by rwa [unexecuted_take] at hq)
        fun r hr => by rwa [unread_take] at hr
    | execute ok =>
      exact h.of_network _ fun request _ hwrite hwaits => hwaits.execute hwrite ok
    | respond =>
      refine h.of_network [] fun request _ _ hwaits => ?_
      rw [append_nil]
      exact hwaits.mono (fun q hq => by rwa [unexecuted_respond] at hq)
        fun r hr => (unread_respond _).subset hr
    | foreign q =>
      unfold SyncClient.step Exchange.step executes
      dsimp only
      split
      · rwa [append_nil]
      rename_i hown
      refine h.of_network [] fun request hid _ hwaits => ?_
      rw [append_nil]
      exact hwaits.publish fun hkey => absurd ((congrArg Key.clientId hkey).trans hid) hown

theorem inv_init (clientId n) : Inv { clientId, exchange.net := n } :=
  .of_idle

/-- In every run of a client, the task, and other clients, in which each write starts when nothing
on its way passes for another answer to it: when `writeSync` returns `true`, the task has written
the data of this very call since it was made. -/
theorem write_sync_done (cfg : Config) (clientId : UInt8) (n : Network) (events : List SyncEvent)
    (hclean : Run.Along (SyncClient.step cfg) CleanWrite
      { clientId, exchange.net := n } events) :
    Run.Always (SyncClient.step cfg) WritesDone
      { clientId, exchange.net := n } events :=
  Run.always_of_invariant (fun _ e h hclean => h.step e hclean) (fun _ h => h.done)
    (inv_init clientId n) hclean

/-- A write whose first poll times out, so that its request is published twice. -/
def impatientWrite (buffer : Bytes) : List SyncEvent :=
  let go := .exchange (.thread false .ready)
  [.call 0 (.writeSync .compat 0 buffer buffer.length), go, go, go, .exchange .take,
    .exchange (.thread false .timeout), go, go, .exchange (.execute true), .exchange .respond, go]

/-- The next write starts after the second response has come. -/
def patientWrites (first second : Bytes) : List SyncEvent :=
  let go := .exchange (.thread false .ready)
  impatientWrite first ++ [.exchange .take, .exchange (.execute true), .exchange .respond,
      .call 0 (.writeSync .compat 0 second second.length), go, go, go, go,
      .exchange .take, .exchange (.execute true), .exchange .respond, go]

/-- The next write starts while the task handles the second request. -/
def impatientWrites (first second : Bytes) : List SyncEvent :=
  let go := .exchange (.thread false .ready)
  impatientWrite first ++
    [.exchange .take, .call 0 (.writeSync .compat 0 second second.length), go, go, go,
      .exchange (.execute true), .exchange .respond, go]

theorem write_sync_done_patient :
    (Run.after (SyncClient.step ⟨1, 0⟩) { clientId := 1 } (patientWrites [1] [2])).Succeeded
        (writeRequest 1 0 .compat 0 [2] 1) ∧
      Run.Always (SyncClient.step ⟨1, 0⟩) WritesDone { clientId := 1 } (patientWrites [1] [2]) :=
  ⟨⟨⟨1, .write, .compat, 0, .success, padded []⟩, by decide +kernel, rfl⟩,
    write_sync_done ⟨1, 0⟩ 1 {} (patientWrites [1] [2]) (by decide +kernel)⟩

/-- `writeSync` has returned `true` for the second write. The task has not executed it, and if the
medium then fails, the data of the first one stays in the storage. -/
theorem write_sync_stale_answer :
    (Run.after (SyncClient.step ⟨1, 0⟩) { clientId := 1 } (impatientWrites [1] [2])).Succeeded
        (writeRequest 1 0 .compat 0 [2] 1) ∧
      ¬Executed (Run.after (SyncClient.step ⟨1, 0⟩) { clientId := 1 }
        (impatientWrites [1] [2])).executed (writeRequest 1 0 .compat 0 [2] 1) ∧
      (Run.after (SyncClient.step ⟨1, 0⟩) { clientId := 1 } (impatientWrites [1] [2] ++
        [.exchange .take, .exchange (.execute false)])).exchange.net.data.store .compat 0 = [1] :=
  ⟨⟨⟨1, .write, .compat, 0, .success, padded []⟩, by decide +kernel, rfl⟩, by decide +kernel,
    by decide +kernel⟩

end SyncClient

end Px4.Dataman
