import Px4.Common.DroppingQueue
import Px4.Dataman.Task

/-!
# Requests and responses

How a client in `src/lib/dataman_client/DatamanClient.cpp` exchanges messages with the dataman task.
Each access to a topic is a step of its own, and the steps of the client, of the task and of the
other clients interleave freely. A topic keeps the last `queueSize` messages that its reader has not
read; the two topics of dataman have no queue, so that the size is one.
-/

namespace Px4.Dataman

open DroppingQueue

/-- The build options: the queue of the two topics, and the number of mission items. -/
structure Config where
  queueSize : ℕ
  numMissionItems : ℕ

/-- Where the request loop of the task is. -/
inductive TaskPhase where
  | waiting
  /-- with a request that it has copied from the topic -/
  | handling (request : Request)
  /-- about to publish a response -/
  | answering (response : Response)

/-- The two topics, as their readers see them, and the task. -/
structure Network where
  requests : List Request := []
  task : TaskPhase := .waiting
  responses : List Response := []
  data : TaskData := {}

namespace Network

/-- The requests that the task has not executed, the oldest first. -/
def unexecuted (n : Network) : List Request :=
  match n.task with
  | .handling request => request :: n.requests
  | _ => n.requests

/-- The responses that the client has not read, the oldest first. -/
def unread (n : Network) : List Response :=
  match n.task with
  | .answering response => n.responses ++ [response]
  | _ => n.responses

/-- `_dataman_request_pub.publish`. -/
def publish (cfg : Config) (n : Network) (request : Request) : Network :=
  { n with requests := push cfg.queueSize n.requests request }

/-- `orb_copy` from the responses, after `orb_check`. -/
def receive (n : Network) : Network :=
  { n with responses := n.responses.tail }

/-- The task copies the next request. -/
def take (n : Network) : Network :=
  match n.task, n.requests with
  | .waiting, request :: requests => { n with task := .handling request, requests }
  | _, _ => n

/-- The task executes the request; `ok` says whether the medium works. -/
def execute (cfg : Config) (n : Network) (ok : Bool) : Network :=
  match n.task with
  | .handling request =>
    { n with
      task := .answering (n.data.handle cfg.numMissionItems request ok).2
      data := (n.data.handle cfg.numMissionItems request ok).1 }
  | _ => n

def respond (cfg : Config) (n : Network) : Network :=
  match n.task with
  | .answering response =>
    { n with
      task := .waiting
      responses := push cfg.queueSize n.responses response }
  | _ => n

end Network

/-- The test of `syncHandler` for the response that it waits for. -/
def accepts (request : Request) (response : Response) : Bool :=
  if response.clientId = request.clientId then
    response.requestType = request.requestType && response.item = request.item &&
      response.index = request.index
  else
    request.clientId = clientIdNotSet &&
      response.data.take 8 = LittleEndian.toBytes 8 request.timestamp.toNat

/-- What a response has to share with a request: client, type, item and index. -/
structure Key where
  clientId : UInt8
  requestType : DmFunction
  item : DmItem
  index : ℕ
deriving DecidableEq

def Request.key (request : Request) : Key :=
  ⟨request.clientId, request.requestType, request.item, request.index⟩

def Response.key (response : Response) : Key :=
  ⟨response.clientId, response.requestType, response.item, response.index⟩

variable {response : Response} {numMissionItems : ℕ} {ok : Bool}

theorem accepts_iff {request : Request} (h : request.clientId ≠ clientIdNotSet) :
    accepts request response ↔ response.key = request.key := by
  unfold accepts Request.key Response.key
  by_cases hid : response.clientId = request.clientId
  · rw [if_pos hid, Bool.and_eq_true, Bool.and_eq_true, decide_eq_true_iff, decide_eq_true_iff,
      decide_eq_true_iff, Key.mk.injEq]
    exact ⟨fun ⟨⟨ht, hi⟩, hx⟩ => ⟨hid, ht, hi, hx⟩, fun ⟨_, ht, hi, hx⟩ => ⟨⟨ht, hi⟩, hx⟩⟩
  · rw [if_neg hid, Bool.and_eq_true, decide_eq_true_iff]
    exact ⟨fun hset => absurd hset.1 h, fun hkey => absurd (congrArg Key.clientId hkey) hid⟩

/-- The task answers with the key of the request, but for the client id that was asked for. -/
theorem key_handle {request : Request} {d : TaskData} (h : request.requestType ≠ .getId) :
    (d.handle numMissionItems request ok).2.key = request.key := by
  unfold TaskData.handle Response.key Request.key
  cases htype : request.requestType with
  | getId => exact absurd htype h
  | write | read | clear => simp [TaskData.blank, htype]

theorem requestType_handle (numMissionItems : ℕ) (d : TaskData) (request ok) :
    (d.handle numMissionItems request ok).2.requestType = request.requestType := by
  unfold TaskData.handle
  cases htype : request.requestType with
  | getId =>
    dsimp only
    split
    · exact htype
    · exact htype
  | write | read | clear => exact htype

/-- Where the client is; `sync` says whether it waits for the response in `syncHandler`. -/
inductive Phase where
  | idle
  /-- in `clearPendingResponse` -/
  | draining (request : Request) (sync : Bool)
  | publishing (request : Request) (sync : Bool)
  /-- in `syncHandler`, about to compare the time with the timeout -/
  | checking (request : Request)
  | polling (request : Request)
  /-- after a poll that has timed out -/
  | resending (request : Request)
  /-- `syncHandler` has returned, with a response if it has received one -/
  | finished (request : Request) (answer : Option Response)
deriving DecidableEq

namespace Phase

/-- The request that the client works on. -/
def request : Phase → Option Request
  | idle => none
  | draining request _ | publishing request _ | checking request | polling request
  | resending request | finished request _ => some request

/-- The request that is still to be published for the first time, and whether `syncHandler` runs. -/
def unpublished : Phase → Option (Request × Bool)
  | draining request sync | publishing request sync => some (request, sync)
  | _ => none

/-- The request that `syncHandler` has published and waits for. -/
def published : Phase → Option Request
  | checking request | polling request | resending request => some request
  | _ => none

/-- The response that `syncHandler` has returned with. -/
def answer : Phase → Option Response
  | finished _ answer => answer
  | _ => none

/-- A function of the client runs. -/
def busy : Phase → Bool
  | idle | finished _ _ => false
  | _ => true

variable {r : Request} {sync : Bool}

theorem of_unpublished {phase : Phase} (h : phase.unpublished = some (r, sync)) :
    phase.request = some r ∧ phase.published = none ∧ phase.answer = none := by
  cases phase with
  | draining | publishing =>
    cases h
    exact ⟨rfl, rfl, rfl⟩
  | idle | checking | polling | resending | finished => cases h

theorem request_of_published {phase : Phase} (h : phase.published = some r) :
    phase.request = some r := by
  cases phase with
  | checking | polling | resending => exact h
  | idle | draining | publishing | finished => cases h

end Phase

/-- The results of `px4_poll`. -/
inductive Poll where
  | error
  | timeout
  | ready

/-- The network, with one client. -/
structure Exchange where
  net : Network := {}
  phase : Phase := .idle

/-- What can happen next. -/
inductive ExchangeEvent where
  /-- the client goes on; the time and `px4_poll` decide where two ways are open -/
  | thread (expired : Bool) (poll : Poll)
  | take
  | execute (ok : Bool)
  | respond
  /-- another client publishes a request -/
  | foreign (request : Request)

namespace Exchange

/-- `orb_check` and `orb_copy` of `syncHandler`, and the comparison with the request. -/
def receive (x : Exchange) (request : Request) : Exchange where
  net := x.net.receive
  phase :=
    match x.net.responses with
    | [] => .checking request
    | response :: _ =>
      if accepts request response then .finished request (some response) else .checking request

def advance (cfg : Config) (x : Exchange) (expired : Bool) (poll : Poll) : Phase → Exchange
  | .idle | .finished _ _ => x
  | .draining request sync =>
    if x.net.responses.isEmpty then { x with phase := .publishing request sync }
    else { x with net := x.net.receive }
  | .publishing request sync =>
    { net := x.net.publish cfg request
      phase := if sync then .checking request else .idle }
  | .checking request =>
    { x with phase := if expired then .finished request none else .polling request }
  | .polling request =>
    match poll with
    | .error => { x with phase := .finished request none }
    | .timeout =>
      -- a poll does not time out if there is a response
      if x.net.responses.isEmpty then { x with phase := .resending request } else x
    | .ready => x.receive request
  | .resending request =>
    { net := x.net.publish cfg request
      phase := .checking request }

/-- One step, for the client with the given id. -/
def step (cfg : Config) (clientId : UInt8) (x : Exchange) : ExchangeEvent → Exchange
  | .thread expired poll => x.advance cfg expired poll x.phase
  | .take => { x with net := x.net.take }
  | .execute ok => { x with net := x.net.execute cfg ok }
  | .respond => { x with net := x.net.respond cfg }
  | .foreign request =>
    if request.clientId = clientId then x else { x with net := x.net.publish cfg request }

end Exchange

/-! ## What a step does to the messages on their way -/

namespace Network

variable {cfg : Config} {n : Network}

theorem unexecuted_take : n.take.unexecuted = n.unexecuted := by
  obtain ⟨requests, task, responses, data⟩ := n
  cases task with
  | waiting => cases requests <;> rfl
  | handling | answering => rfl

theorem unread_take : n.take.unread = n.unread := by
  obtain ⟨requests, task, responses, data⟩ := n
  cases task with
  | waiting => cases requests <;> rfl
  | handling | answering => rfl

theorem data_take (n : Network) : n.take.data = n.data := by
  obtain ⟨requests, task, responses, data⟩ := n
  cases task with
  | waiting => cases requests <;> rfl
  | handling | answering => rfl

variable {q : Request}

theorem mem_unexecuted_publish {request : Request}
    (h : q ∈ (n.publish cfg request).unexecuted) : q ∈ n.unexecuted ∨ q = request := by
  obtain ⟨requests, task, responses, data⟩ := n
  cases task with
  | handling first =>
    obtain rfl | h := List.mem_cons.mp h
    · exact .inl (List.mem_cons_self ..)
    · exact (mem_of_mem_push h).imp_left (List.mem_cons_of_mem _)
  | waiting | answering => exact mem_of_mem_push h

theorem unread_receive (n : Network) : n.receive.unread.Sublist n.unread := by
  obtain ⟨requests, task, responses, data⟩ := n
  cases task with
  | answering response => exact (List.tail_sublist _).append_right _
  | waiting | handling => exact List.tail_sublist _

theorem unread_eq_cons {responses} (h : n.responses = response :: responses) :
    n.unread = response :: n.receive.unread := by
  obtain ⟨requests, task, _, data⟩ := n
  subst h
  cases task <;> rfl

theorem unexecuted_respond : (n.respond cfg).unexecuted = n.unexecuted := by
  obtain ⟨requests, task, responses, data⟩ := n
  cases task <;> rfl

theorem unread_respond (n : Network) : (n.respond cfg).unread.Sublist n.unread := by
  obtain ⟨requests, task, responses, data⟩ := n
  cases task with
  | answering response => exact push_sublist
  | waiting | handling => exact .refl _

theorem data_respond (n : Network) : (n.respond cfg).data = n.data := by
  obtain ⟨requests, task, responses, data⟩ := n
  cases task <;> rfl

theorem execute_cases (cfg : Config) (n : Network) (ok : Bool) :
    (∃ request, n.unexecuted = request :: (n.execute cfg ok).unexecuted ∧
      (n.execute cfg ok).unread =
        n.unread ++ [(n.data.handle cfg.numMissionItems request ok).2] ∧
      (n.execute cfg ok).data = (n.data.handle cfg.numMissionItems request ok).1) ∨
    n.execute cfg ok = n := by
  obtain ⟨requests, task, responses, data⟩ := n
  cases task with
  | handling request => exact .inl ⟨request, rfl, rfl, rfl⟩
  | waiting | answering => exact .inr rfl

end Network

/-! ## What a step of the client does -/

namespace Exchange

variable (cfg : Config) (n : Network) {phase : Phase} {request : Request} (expired : Bool)
  (poll : Poll)

variable {sync : Bool}

/-- Before its request is published, the client reads responses or publishes the request. -/
theorem advance_unpublished (h : phase.unpublished = some (request, sync)) :
    (∃ n' phase', advance cfg ⟨n, phase⟩ expired poll phase = ⟨n', phase'⟩ ∧
      phase'.unpublished = some (request, sync) ∧ (n' = n ∨ n' = n.receive)) ∨
    phase = .publishing request sync ∧ advance cfg ⟨n, phase⟩ expired poll phase =
      ⟨n.publish cfg request, if sync then .checking request else .idle⟩ := by
  cases phase with
  | idle | checking | polling | resending | finished => cases h
  | draining =>
    cases h
    unfold advance
    dsimp only
    split
    · exact .inl ⟨_, _, rfl, rfl, .inl rfl⟩
    · exact .inl ⟨_, _, rfl, rfl, .inr rfl⟩
  | publishing =>
    cases h
    exact .inr ⟨rfl, rfl⟩

/-- `syncHandler` reads responses or publishes again until it gives up or accepts one. -/
theorem advance_published (h : phase.published = some request) :
    (∃ n' phase', advance cfg ⟨n, phase⟩ expired poll phase = ⟨n', phase'⟩ ∧
      phase'.published = some request ∧ (n' = n ∨ n' = n.receive ∨ n' = n.publish cfg request)) ∨
    advance cfg ⟨n, phase⟩ expired poll phase = ⟨n, .finished request none⟩ ∨
    ∃ response responses, n.responses = response :: responses ∧ accepts request response ∧
      advance cfg ⟨n, phase⟩ expired poll phase =
        ⟨n.receive, .finished request (some response)⟩ := by
  cases phase with
  | idle | draining | publishing | finished => cases h
  | checking =>
    cases h
    cases expired with
    | false => exact .inl ⟨_, _, rfl, rfl, .inl rfl⟩
    | true => exact .inr (.inl rfl)
  | polling =>
    cases h
    cases poll with
    | error => exact .inr (.inl rfl)
    | timeout =>
      unfold advance
      dsimp only
      split <;> exact .inl ⟨_, _, rfl, rfl, .inl rfl⟩
    | ready =>
      unfold advance receive
      cases hresponses : n.responses with
      | nil => exact .inl ⟨_, _, rfl, rfl, .inr (.inl rfl)⟩
      | cons response responses =>
        dsimp only
        split
        · exact .inr (.inr ⟨response, responses, rfl, ‹_›, rfl⟩)
        · exact .inl ⟨_, _, rfl, rfl, .inr (.inl rfl)⟩
  | resending =>
    cases h
    exact .inl ⟨_, _, rfl, rfl, .inr (.inr rfl)⟩

end Exchange

end Px4.Dataman
