import Px4.Common.Ring
import Px4.Dataman.Cache

/-!
# The entries that are still to be processed

The entries of a `DatamanCache` form a ring. Those still to be processed are a window of it:
`_item_counter` entries from `_update_index` on, with `_load_index` behind the last one. Two
operations can tear the window: `resize` clamps the three numbers one by one, and `update`, after it
has left the last entry, also leaves the next one if that still has an error.
-/

namespace Px4.Dataman

open Function Option Ring

namespace DatamanCache

variable {c : DatamanCache} {client : DatamanClient} {now : UInt64} {response : Option Response}
  {expired : Bool} {i : ℕ}

/-! ## Small steps -/

variable (c)

@[simp]
theorem state_setState (i j state) :
    (c.setState i state).state j = if j = i then state else c.state j := by
  dsimp only [setState, DatamanCache.state]
  by_cases h : j = i
  · rw [if_pos h, h, update_self]
  · rw [if_neg h, update_of_ne h]

variable {request : AsyncRequest} {data : Option Bytes} {e : Entry} {r : Updated}
  {final : CacheState} {p : Entry → Bool} {item : DmItem} {index length timeout : ℕ}
  {buffer : Bytes}

@[simp]
theorem state_copyTo : (c.copyTo request data).state i = c.state i := by
  cases data with
  | none => rfl
  | some data =>
    dsimp only [copyTo, DatamanCache.state]
    by_cases h : i = request.buffer
    · rw [h, update_self]
    · rw [update_of_ne h]

theorem items_setState_copyTo (request data state) :
    ((c.copyTo request (some data)).setState request.buffer state).items =
      Function.update c.items request.buffer { c.items request.buffer with
        data := memcpy (c.items request.buffer).data data request.length, state } := by
  dsimp only [copyTo, setState]
  rw [update_self, update_idem]

@[simp]
theorem state_changeUpdateIndex : c.changeUpdateIndex.state i = c.state i := by
  unfold changeUpdateIndex
  split <;> rfl

@[simp]
theorem items_changeUpdateIndex : c.changeUpdateIndex.items = c.items := by
  unfold changeUpdateIndex
  split <;> rfl

@[simp]
theorem numItems_changeUpdateIndex : c.changeUpdateIndex.numItems = c.numItems := by
  unfold changeUpdateIndex
  split <;> rfl

@[simp]
theorem items_skipError : c.skipError.items = c.items := by
  unfold skipError
  split
  · exact c.items_changeUpdateIndex
  · rfl

@[simp]
theorem numItems_skipError : c.skipError.numItems = c.numItems := by
  unfold skipError
  split
  · exact c.numItems_changeUpdateIndex
  · rfl

/-! ## The window -/

/-- The entry is one of the `_item_counter` entries from `_update_index` on. -/
def InWindow (i : ℕ) : Prop :=
  i < c.numItems ∧ Ring.dist c.numItems c.updateIndex i < c.itemCounter
deriving Decidable

/-- The states that an entry of the window can have; only the first one can have been requested. -/
def ToProcess (i : ℕ) : Prop :=
  c.state i = .requestPrepared ∨ c.state i = .responseReceived ∨
    c.state i = .requestSent ∧ i = c.updateIndex

/-- The three numbers fit the ring and describe the window. -/
structure Indices (c : DatamanCache) : Prop where
  counter_le : c.itemCounter ≤ c.numItems
  update_lt : c.numItems ≠ 0 → c.updateIndex < c.numItems
  load_eq : c.loadIndex = (c.updateIndex + c.itemCounter) % c.numItems

/-- The window is what the states say: outside of it no entry is prepared or requested. -/
structure Window (c : DatamanCache) : Prop extends c.Indices where
  inside : ∀ i, c.InWindow i → c.ToProcess i
  outside : ∀ i, ¬c.InWindow i → c.state i ≠ .requestPrepared ∧ c.state i ≠ .requestSent

/-- The client has sent the request of the first entry of the window, or none. -/
structure Linked (c : DatamanCache) (client : DatamanClient) : Prop where
  received : client.state ≠ .responseReceived
  sent_iff : ∀ i, c.state i = .requestSent ↔ client.state = .requestSent ∧ i = c.updateIndex

variable {c}

section

variable (h : c.Indices) (hloading : 0 < c.itemCounter)
include h hloading

theorem Indices.pos : c.numItems ≠ 0 := by
  have := h.counter_le
  omega

theorem Indices.head : c.InWindow c.updateIndex :=
  ⟨h.update_lt (h.pos hloading), by rwa [dist_self]⟩

/-- The entries behind the first one form the window after it has been processed. -/
theorem Indices.inWindow_changeUpdateIndex :
    c.changeUpdateIndex.InWindow i ↔ c.InWindow i ∧ i ≠ c.updateIndex := by
  have hpos := h.pos hloading
  have hu := h.update_lt hpos
  have hle := h.counter_le
  unfold changeUpdateIndex InWindow
  rw [if_neg hpos]
  dsimp only
  by_cases hi : i < c.numItems
  · rw [dist_succ hu hi]
    have hzero := dist_eq_zero_iff (i := i) hu
    split <;> omega
  · exact ⟨fun hi' => absurd hi'.1 hi, fun hi' => absurd hi'.1.1 hi⟩

theorem Indices.changeUpdateIndex : c.changeUpdateIndex.Indices := by
  have hpos := h.pos hloading
  have hu := h.update_lt hpos
  have hle := h.counter_le
  unfold DatamanCache.changeUpdateIndex
  rw [if_neg hpos]
  refine ⟨?_, fun _ => add_mod_lt hu, ?_⟩
  · dsimp only
    omega
  · dsimp only
    rw [h.load_eq, Nat.mod_add_mod]
    congr 1
    omega

/-- The window loses its first entry, which is processed. -/
theorem Window.changeUpdateIndex
    (hinside : ∀ i, c.InWindow i → i ≠ c.updateIndex →
      c.state i = .requestPrepared ∨ c.state i = .responseReceived)
    (houtside : ∀ i, ¬c.InWindow i ∨ i = c.updateIndex →
      c.state i ≠ .requestPrepared ∧ c.state i ≠ .requestSent) : c.changeUpdateIndex.Window where
  toIndices := h.changeUpdateIndex hloading
  inside i hi := by
    obtain ⟨hi, hne⟩ := (h.inWindow_changeUpdateIndex hloading).mp hi
    unfold ToProcess
    rw [state_changeUpdateIndex]
    exact (hinside i hi hne).imp_right .inl
  outside i hi := by
    rw [h.inWindow_changeUpdateIndex hloading, not_and, not_not] at hi
    rw [state_changeUpdateIndex]
    by_cases hwindow : c.InWindow i
    · exact houtside i (.inr (hi hwindow))
    · exact houtside i (.inl hwindow)

end

theorem state_enqueue : (c.enqueue e).state i = if i = c.loadIndex then e.state else c.state i := by
  dsimp only [enqueue, DatamanCache.state]
  by_cases h : i = c.loadIndex
  · rw [if_pos h, h, update_self]
  · rw [if_neg h, update_of_ne h]

/-- There is room behind the window if it does not fill the ring. -/
theorem Indices.not_inWindow_loadIndex (h : c.Indices) (hroom : c.itemCounter < c.numItems) :
    ¬c.InWindow c.loadIndex := by
  intro hload
  have hdist := dist_add_mod (h.update_lt (by omega)) hroom
  rw [← h.load_eq] at hdist
  exact absurd hload.2 (by omega)

theorem Indices.inWindow_enqueue (h : c.Indices) (hroom : c.itemCounter < c.numItems) (e i) :
    (c.enqueue e).InWindow i ↔ c.InWindow i ∨ i = c.loadIndex := by
  have hu := h.update_lt (by omega)
  have hload : c.loadIndex < c.numItems := h.load_eq ▸ add_mod_lt hu
  have hdist := dist_add_mod hu hroom
  rw [← h.load_eq] at hdist
  dsimp only [InWindow, enqueue]
  refine ⟨fun ⟨hi, hlt⟩ => ?_, ?_⟩
  · obtain hlt | heq := Nat.lt_succ_iff_lt_or_eq.mp hlt
    · exact .inl ⟨hi, hlt⟩
    · exact .inr (by rw [h.load_eq, ← heq, add_dist_mod hu hi])
  · rintro (⟨hi, hlt⟩ | rfl)
    · exact ⟨hi, by omega⟩
    · exact ⟨hload, by omega⟩

theorem Indices.enqueue (h : c.Indices) (hroom : c.itemCounter < c.numItems) (e) :
    (c.enqueue e).Indices where
  counter_le := hroom
  update_lt := h.update_lt
  load_eq := by
    dsimp only [DatamanCache.enqueue]
    rw [h.load_eq, Nat.mod_add_mod, Nat.add_assoc]

theorem Window.enqueue (h : c.Window) (hroom : c.itemCounter < c.numItems)
    (he : e.state = .requestPrepared ∨ e.state = .responseReceived) : (c.enqueue e).Window where
  toIndices := h.toIndices.enqueue hroom e
  inside i hi := by
    unfold ToProcess
    rw [state_enqueue]
    by_cases hload : i = c.loadIndex
    · rw [if_pos hload]
      exact he.imp_right .inl
    · rw [if_neg hload]
      exact h.inside i (((h.inWindow_enqueue hroom e i).mp hi).resolve_right hload)
  outside i hi := by
    rw [h.inWindow_enqueue hroom, not_or] at hi
    rw [state_enqueue, if_neg hi.2]
    exact h.outside i hi.1

theorem Linked.enqueue (h : c.Linked client) (hwindow : c.Window)
    (hroom : c.itemCounter < c.numItems)
    (he : e.state = .requestPrepared ∨ e.state = .responseReceived) :
    (c.enqueue e).Linked client where
  received := h.received
  sent_iff i := by
    rw [state_enqueue]
    by_cases hload : i = c.loadIndex
    · -- the entry that is overwritten is not the one that has been requested
      rw [if_pos hload]
      have hidle := (hwindow.outside i (hload ▸ hwindow.not_inWindow_loadIndex hroom)).2
      refine ⟨fun hsent => ?_, fun hsent => absurd ((h.sent_iff i).mpr hsent) hidle⟩
      rw [hsent] at he
      exact he.elim nofun nofun
    · rw [if_neg hload]
      exact h.sent_iff i

variable {c' : DatamanCache} {client' : DatamanClient}

theorem Window.of_received (h : c.Window) (hindices : c' = { c with items := c'.items })
    (hstate : ∀ i, c'.state i = c.state i ∨
      c.state i = .requestPrepared ∧ c'.state i = .responseReceived) : c'.Window := by
  have hwindow : ∀ i, c'.InWindow i ↔ c.InWindow i := by
    rw [hindices]
    exact fun _ => Iff.rfl
  refine ⟨?_, fun i hi => ?_, fun i hi => ?_⟩
  · rw [hindices]
    exact { h with }
  · have hinside := h.inside i ((hwindow i).mp hi)
    unfold ToProcess at hinside ⊢
    obtain hsame | ⟨_, hreceived⟩ := hstate i
    · rw [hsame, hindices]
      exact hinside
    · exact .inr (.inl hreceived)
  · have houtside := h.outside i fun hi' => hi ((hwindow i).mpr hi')
    obtain hsame | ⟨hprepared, _⟩ := hstate i
    · rwa [hsame]
    · exact absurd hprepared houtside.1

theorem Linked.of_received (h : c.Linked client) (hindices : c' = { c with items := c'.items })
    (hstate : ∀ i, c'.state i = c.state i ∨
      c.state i = .requestPrepared ∧ c'.state i = .responseReceived) : c'.Linked client where
  received := h.received
  sent_iff i := by
    have hupdate : c'.updateIndex = c.updateIndex := by rw [hindices]
    rw [hupdate]
    obtain hsame | ⟨hprepared, hreceived⟩ := hstate i
    · rw [hsame]
      exact h.sent_iff i
    rw [hreceived]
    refine ⟨nofun, fun hsent => ?_⟩
    rw [(h.sent_iff i).mpr hsent] at hprepared
    cases hprepared

/-! ## One call of `update` -/

/-- What a call of `update` can do while there are entries to process. -/
inductive UpdateMove (c : DatamanCache) (client : DatamanClient) (now : UInt64)
    (response : Option Response) (expired : Bool) : Updated → Prop
  /-- the request has not been answered -/
  | waits (hsent : c.state c.updateIndex = .requestSent) (hclient : client.state = .requestSent)
      (hresponse : client.accepted response = none) :
      UpdateMove c client now response expired
        { cache := c, client := client
          outgoing := (client.update now response expired).retry.map fun r => (r, false) }
  | sends {client' : DatamanClient} {request : Request}
      (hprepared : c.state c.updateIndex = .requestPrepared) (hclient : client.state = .idle)
      (hread : client.readAsync now (c.items c.updateIndex).item (c.items c.updateIndex).index
        c.updateIndex (perItemSize (c.items c.updateIndex).item) = some (client', request)) :
      UpdateMove c client now response expired
        { cache := c.setState c.updateIndex .requestSent, client := client'
          outgoing := some (request, true) }
  /-- the client has no id -/
  | refused (hprepared : c.state c.updateIndex = .requestPrepared)
      (hclient : client.state = .idle) :
      UpdateMove c client now response expired
        { cache := (c.setState c.updateIndex .error).changeUpdateIndex, client }
  | skips (hreceived : c.state c.updateIndex = .responseReceived) (hclient : client.state = .idle) :
      UpdateMove c client now response expired
        { cache := c.changeUpdateIndex.skipError, client }
  | receives {r : Response} (hsent : c.state c.updateIndex = .requestSent)
      (hclient : client.state = .requestSent) (hresponse : client.accepted response = some r)
      (hstatus : r.status = .success) :
      UpdateMove c client now response expired
        { cache := (((c.copyTo client.activeRequest (some r.data)).setState c.updateIndex
            .responseReceived).changeUpdateIndex).skipError
          client := { client with state := .idle, responseStatus := r.status } }
  | fails {r : Response} (hsent : c.state c.updateIndex = .requestSent)
      (hclient : client.state = .requestSent) (hresponse : client.accepted response = some r)
      (hstatus : r.status ≠ .success) :
      UpdateMove c client now response expired
        { cache := ((c.copyTo client.activeRequest (some r.data)).setState c.updateIndex
            .error).changeUpdateIndex
          client := { client with state := .idle, responseStatus := r.status } }

theorem update_of_not_loading (hloading : ¬0 < c.itemCounter) :
    c.update client now response expired = { cache := c, client } :=
  if_neg hloading

theorem update_of_idle (hclient : client.state = .idle) :
    client.update now response expired = { client } := by
  unfold DatamanClient.update DatamanClient.accepted
  rw [hclient]
  rfl

theorem skipError_of_ne (h : c.state c.updateIndex ≠ .error) : c.skipError = c :=
  if_neg h

theorem Linked.idle_of_ne (h : c.Linked client) (hstate : c.state c.updateIndex ≠ .requestSent) :
    client.state = .idle := by
  cases hclient : client.state with
  | idle => rfl
  | requestSent => exact absurd ((h.sent_iff _).mpr ⟨hclient, rfl⟩) hstate
  | responseReceived => exact absurd hclient h.received

theorem update_prepared (hprepared : c.state c.updateIndex = .requestPrepared)
    (hclient : client.state = .idle) (hloading : 0 < c.itemCounter) :
    UpdateMove c client now response expired (c.update client now response expired) := by
  unfold update
  rw [if_pos hloading, update_of_idle hclient]
  dsimp only [copyTo]
  unfold switch
  rw [hprepared]
  cases hread : client.readAsync now (c.items c.updateIndex).item (c.items c.updateIndex).index
      c.updateIndex (perItemSize (c.items c.updateIndex).item) with
  | none =>
    have herror : (c.setState c.updateIndex .error).state c.updateIndex = .error := by
      rw [state_setState, if_pos rfl]
    have hskip : (c.setState c.updateIndex .error).skipError = _ := if_pos herror
    rw [hskip]
    exact .refused hprepared hclient
  | some sent =>
    have hsent : (c.setState c.updateIndex .requestSent).state c.updateIndex = .requestSent := by
      rw [state_setState, if_pos rfl]
    have hskip : (c.setState c.updateIndex .requestSent).skipError = _ :=
      skipError_of_ne (by rw [show (c.setState c.updateIndex .requestSent).updateIndex =
        c.updateIndex from rfl, hsent]; decide)
    rw [hskip]
    exact .sends hprepared hclient hread

section

variable (hsent : c.state c.updateIndex = .requestSent) (hclient : client.state = .requestSent)
include hsent hclient

theorem update_unanswered (hresponse : client.accepted response = none)
    (hloading : 0 < c.itemCounter) :
    UpdateMove c client now response expired (c.update client now response expired) := by
  have hcompleted : client.lastOperationCompleted = (client, none) :=
    if_neg (by rw [hclient]; decide)
  have hmove : UpdateMove c client now response expired _ := .waits hsent hclient hresponse
  unfold DatamanClient.update at hmove
  unfold update DatamanClient.update
  rw [hresponse] at hmove ⊢
  rw [if_pos hloading]
  dsimp only [copyTo] at hmove ⊢
  unfold switch
  rw [hsent, hcompleted]
  rwa [skipError_of_ne (by rw [hsent]; decide)]

theorem update_answered {r : Response} (hresponse : client.accepted response = some r)
    (hloading : 0 < c.itemCounter) :
    UpdateMove c client now response expired (c.update client now response expired) := by
  -- the cache and the client after the response has been copied
  let c' := c.copyTo client.activeRequest (some r.data)
  let client' : DatamanClient :=
    { client with state := .responseReceived, responseStatus := r.status }
  have hsent' : c'.state c'.updateIndex = .requestSent := (state_copyTo ..).trans hsent
  have hupdate : client.update now response expired =
      { client := client', copied := some r.data } := by
    unfold DatamanClient.update
    rw [hresponse]
  have hcompleted : client'.lastOperationCompleted =
      ({ client with state := .idle, responseStatus := r.status },
        some (decide (r.status = .success))) := rfl
  unfold update
  rw [if_pos hloading, hupdate]
  dsimp only
  by_cases hstatus : r.status = .success
  · rw [decide_eq_true hstatus] at hcompleted
    unfold switch
    rw [hsent', hcompleted]
    exact .receives hsent hclient hresponse hstatus
  · rw [decide_eq_false hstatus] at hcompleted
    unfold switch
    rw [hsent', hcompleted]
    have hskip : (c'.setState c'.updateIndex .error).skipError = _ :=
      if_pos (by rw [state_setState]; exact if_pos rfl)
    rw [hskip]
    exact .fails hsent hclient hresponse hstatus

end

theorem update_received (hreceived : c.state c.updateIndex = .responseReceived)
    (hclient : client.state = .idle) (hloading : 0 < c.itemCounter) :
    UpdateMove c client now response expired (c.update client now response expired) := by
  unfold update
  rw [if_pos hloading, update_of_idle hclient]
  dsimp only [copyTo]
  unfold switch
  rw [hreceived]
  exact .skips hreceived hclient

theorem update_move (hwindow : c.Window) (hlinked : c.Linked client) (hloading : 0 < c.itemCounter)
    (now response expired) :
    UpdateMove c client now response expired (c.update client now response expired) := by
  obtain hprepared | hreceived | ⟨hsent, -⟩ := hwindow.inside _ (hwindow.head hloading)
  · exact update_prepared hprepared (hlinked.idle_of_ne (by rw [hprepared]; decide)) hloading
  · exact update_received hreceived (hlinked.idle_of_ne (by rw [hreceived]; decide)) hloading
  · have hclient := ((hlinked.sent_iff _).mp hsent).1
    cases hresponse : client.accepted response with
    | none => exact update_unanswered hsent hclient hresponse hloading
    | some r => exact update_answered hsent hclient hresponse hloading

theorem UpdateMove.sends_read (hmove : UpdateMove c client now response expired r) :
    r.client.clientId = client.clientId ∧ ∀ q ∈ r.outgoing, q.1.requestType = .read := by
  cases hmove with
  | waits hsent hclient hresponse =>
    refine ⟨rfl, fun q hq => ?_⟩
    obtain ⟨request, hrequest, rfl⟩ := map_eq_some_iff.mp hq
    unfold DatamanClient.update at hrequest
    rw [hresponse, ite_none_right_eq_some] at hrequest
    rw [← some.inj hrequest.2]
    rfl
  | sends hprepared hclient hread =>
    obtain ⟨-, rfl, rfl⟩ := DatamanClient.readAsync_eq_some hread
    refine ⟨rfl, fun q hq => ?_⟩
    cases hq
    rfl
  | refused | skips | receives | fails => exact ⟨rfl, nofun⟩

/-- The call leaves the last entry of the window. -/
def LeavesLast (c : DatamanCache) (client : DatamanClient) (response : Option Response) : Prop :=
  c.itemCounter = 1 ∧ (c.state c.updateIndex = .responseReceived ∨
    ∃ r ∈ client.accepted response, r.status = .success)

/-- If the call leaves the last entry of the window, the next entry has no error. -/
def LeavesCleanly (c : DatamanCache) (client : DatamanClient) (response : Option Response) : Prop :=
  c.LeavesLast client response → c.state ((c.updateIndex + 1) % c.numItems) ≠ .error

instance (c : DatamanCache) (client : DatamanClient) (response : Option Response) :
    Decidable (c.LeavesCleanly client response) := by
  unfold LeavesCleanly LeavesLast
  infer_instance

theorem Window.skipError_of_loading (h : c.Window) (hloading : 0 < c.itemCounter) :
    c.skipError = c := by
  refine skipError_of_ne fun herror => ?_
  obtain hstate | hstate | ⟨hstate, -⟩ := h.inside _ (h.head hloading) <;>
    · rw [herror] at hstate
      cases hstate

theorem Window.processed (h : c.Window) (hlinked : c.Linked client) (hloading : 0 < c.itemCounter)
    (hindices : c' = { c with items := c'.items })
    (hstate : ∀ i, i ≠ c.updateIndex → c'.state i = c.state i)
    (hhead : c'.state c.updateIndex = .responseReceived ∨ c'.state c.updateIndex = .error)
    (hidle : client'.state = .idle) :
    c'.changeUpdateIndex.Window ∧ c'.changeUpdateIndex.Linked client' ∧
      ∀ i, c'.changeUpdateIndex.InWindow i ↔ c.InWindow i ∧ i ≠ c.updateIndex := by
  have hc' : c'.Indices := by
    rw [hindices]
    exact { h with }
  have hloading' : 0 < c'.itemCounter := by
    rw [hindices]
    exact hloading
  have hupdate : c'.updateIndex = c.updateIndex := by rw [hindices]
  have hwindow : ∀ i, c'.InWindow i ↔ c.InWindow i := by
    rw [hindices]
    exact fun _ => Iff.rfl
  have hsent : ∀ i, c'.state i ≠ .requestSent := by
    intro i hi
    by_cases hhd : i = c.updateIndex
    · rw [hhd] at hi
      rw [hi] at hhead
      exact hhead.elim nofun nofun
    · rw [hstate i hhd] at hi
      exact hhd ((hlinked.sent_iff i).mp hi).2
  refine ⟨.changeUpdateIndex hc' hloading' (fun i hi hne => ?_) (fun i hi => ?_), ⟨?_, fun i => ?_⟩,
    fun i => ?_⟩
  · rw [hupdate] at hne
    rw [hstate i hne]
    obtain hi | hi | hi := h.inside i ((hwindow i).mp hi)
    · exact .inl hi
    · exact .inr hi
    · exact absurd hi.2 hne
  · refine ⟨fun hprepared => ?_, hsent i⟩
    rw [hupdate, hwindow] at hi
    by_cases hhd : i = c.updateIndex
    · rw [← hhd, hprepared] at hhead
      exact hhead.elim nofun nofun
    · rw [hstate i hhd] at hprepared
      exact (h.outside i (hi.resolve_right hhd)).1 hprepared
  · rw [hidle]
    decide
  · rw [state_changeUpdateIndex, hidle]
    exact ⟨fun hi => absurd hi (hsent i), nofun⟩
  · rw [hc'.inWindow_changeUpdateIndex hloading', hwindow, hupdate]

/-- What `update` leaves: a window without its first entry if the call has settled that one. -/
structure Settles (c : DatamanCache) (r : Updated) : Prop where
  window : r.cache.Window
  linked : r.cache.Linked r.client
  inWindow : ∀ i, r.cache.InWindow i ↔ c.InWindow i ∧ ¬(i = c.updateIndex ∧
    (r.cache.state i = .responseReceived ∨ r.cache.state i = .error))

theorem Settles.of_processed
    (h : c'.changeUpdateIndex.Window ∧ c'.changeUpdateIndex.Linked client' ∧
      ∀ i, c'.changeUpdateIndex.InWindow i ↔ c.InWindow i ∧ i ≠ c.updateIndex)
    (hhead : c'.state c.updateIndex = .responseReceived ∨ c'.state c.updateIndex = .error) :
    c.Settles { cache := c'.changeUpdateIndex, client := client' } where
  window := h.1
  linked := h.2.1
  inWindow i := by
    rw [h.2.2 i, state_changeUpdateIndex]
    refine and_congr_right fun _ => not_congr ⟨fun hi => ?_, fun hi => hi.1⟩
    exact ⟨hi, by rwa [hi]⟩

theorem itemCounter_changeUpdateIndex (c : DatamanCache) :
    c.changeUpdateIndex.itemCounter ≤ c.itemCounter - 1 := by
  unfold changeUpdateIndex
  split
  · exact Nat.zero_le _
  · exact Nat.le_refl _

/-- After the window has lost its first entry, the next one is not left as well. -/
theorem Window.leaves (h : c.Window) (hcleanly : 0 < c.skipError.itemCounter ∨
    (c.itemCounter = 0 → c.state c.updateIndex ≠ .error)) : c.skipError = c := by
  by_cases hloading : 0 < c.itemCounter
  · exact h.skipError_of_loading hloading
  have hzero : c.itemCounter = 0 := by omega
  apply skipError_of_ne
  obtain hcounter | hstate := hcleanly
  · intro herror
    have hle := c.itemCounter_changeUpdateIndex
    unfold skipError at hcounter
    rw [if_pos herror] at hcounter
    omega
  · exact hstate hzero

/-- The next entry, as the call finds it after the first one has got its data. -/
theorem LeavesCleanly.state_ne (h : c.LeavesCleanly client response) (hwindow : c.Window)
    (hloading : 0 < c.itemCounter)
    (hindices : c' = { c with items := c'.items })
    (hstate : ∀ i, i ≠ c.updateIndex → c'.state i = c.state i)
    (hhead : c'.state c.updateIndex = .responseReceived)
    (hreceived : c.state c.updateIndex = .responseReceived ∨
      ∃ r ∈ client.accepted response, r.status = .success)
    (hzero : c'.changeUpdateIndex.itemCounter = 0) :
    c'.changeUpdateIndex.state c'.changeUpdateIndex.updateIndex ≠ .error := by
  have hnext : c'.changeUpdateIndex.updateIndex = (c.updateIndex + 1) % c.numItems ∧
      c'.changeUpdateIndex.itemCounter = c.itemCounter - 1 := by
    rw [hindices]
    unfold DatamanCache.changeUpdateIndex
    rw [if_neg (hwindow.pos hloading)]
    exact ⟨rfl, rfl⟩
  rw [state_changeUpdateIndex, hnext.1]
  by_cases hself : (c.updateIndex + 1) % c.numItems = c.updateIndex
  · rw [hself, hhead]
    decide
  · rw [hstate _ hself]
    exact h ⟨by omega, hreceived⟩

/-- The first entry gets a final state, with or without data from the client. -/
theorem Window.settled (h : c.Window) (hlinked : c.Linked client) (hloading : 0 < c.itemCounter)
    (request data) (hfinal : final = .responseReceived ∨ final = .error)
    (hidle : client'.state = .idle) :
    c.Settles { cache := ((c.copyTo request data).setState c.updateIndex final).changeUpdateIndex
                client := client' } := by
  have hindices : c.copyTo request data = { c with items := (c.copyTo request data).items } := by
    cases data <;> rfl
  have hhead : ((c.copyTo request data).setState c.updateIndex final).state c.updateIndex =
      .responseReceived ∨
      ((c.copyTo request data).setState c.updateIndex final).state c.updateIndex = .error := by
    rwa [state_setState, if_pos rfl]
  refine .of_processed (h.processed hlinked hloading ?_ (fun i hi => ?_) hhead hidle) hhead
  · unfold setState
    rw [hindices]
  · rw [state_setState, if_neg hi, state_copyTo]

/-- While entries are left to process, and after the last one if the next entry has no error. -/
theorem UpdateMove.settles (hmove : UpdateMove c client now response expired r)
    (h : c.Window) (hlinked : c.Linked client) (hloading : 0 < c.itemCounter)
    (hcleanly : 0 < r.cache.itemCounter ∨ c.LeavesCleanly client response) : c.Settles r := by
  cases hmove with
  | waits hsent hclient hresponse =>
    refine ⟨h, hlinked, fun i => ⟨fun hi => ⟨hi, ?_⟩, fun hi => hi.1⟩⟩
    rintro ⟨rfl, hstate⟩
    rw [hsent] at hstate
    exact hstate.elim nofun nofun
  | sends hprepared hclient hread =>
    obtain ⟨-, rfl, -⟩ := DatamanClient.readAsync_eq_some hread
    refine ⟨⟨{ h with }, fun i hi => ?_, fun i hi => ?_⟩,
      ⟨nofun, fun i => ?_⟩, fun i => ⟨fun hi => ⟨hi, ?_⟩, fun hi => hi.1⟩⟩
    · unfold ToProcess
      rw [state_setState]
      split
      · exact .inr (.inr ⟨rfl, ‹_›⟩)
      · exact h.inside i hi
    · rw [state_setState, if_neg fun (hhead : i = c.updateIndex) => hi (hhead ▸ h.head hloading)]
      exact h.outside i hi
    · rw [state_setState]
      by_cases hi : i = c.updateIndex
      · rw [if_pos hi]
        exact ⟨fun _ => ⟨rfl, hi⟩, fun _ => rfl⟩
      · rw [if_neg hi]
        exact ⟨fun hsent => absurd ((hlinked.sent_iff i).mp hsent).2 hi,
          fun hsent => absurd hsent.2 hi⟩
    · rintro ⟨rfl, hstate⟩
      rw [state_setState, if_pos rfl] at hstate
      exact hstate.elim nofun nofun
  | refused hprepared hclient => exact h.settled hlinked hloading {} none (.inr rfl) hclient
  | skips hreceived hclient =>
    have hprocessed := h.processed hlinked hloading rfl (fun _ _ => rfl) (.inl hreceived) hclient
    have hskip := hprocessed.1.leaves (hcleanly.imp_right fun hcleanly hzero =>
      hcleanly.state_ne h hloading rfl (fun _ _ => rfl) hreceived (.inl hreceived) hzero)
    rw [hskip]
    exact .of_processed hprocessed (.inl hreceived)
  | @receives r hsent hclient hresponse hstatus =>
    have hsettled : c.Settles
        { cache := ((c.copyTo client.activeRequest (some r.data)).setState c.updateIndex
            .responseReceived).changeUpdateIndex
          client := { client with state := .idle, responseStatus := r.status } } :=
      h.settled hlinked hloading client.activeRequest (some r.data) (.inl rfl) rfl
    have hskip := hsettled.window.leaves (hcleanly.imp_right fun hcleanly hzero =>
      hcleanly.state_ne h hloading rfl (fun i hi => by rw [state_setState, if_neg hi, state_copyTo])
        (by rw [state_setState, if_pos rfl]) (.inr ⟨r, hresponse, hstatus⟩) hzero)
    rw [hskip]
    exact hsettled
  | @fails r hsent hclient hresponse hstatus =>
    exact h.settled hlinked hloading client.activeRequest (some r.data) (.inr rfl) rfl

/-! ## The other functions -/

theorem findEntry_eq_some (h : c.findEntry p = some i) : i < c.numItems ∧ p (c.items i) := by
  have hp := List.find?_some h
  exact ⟨List.mem_range.mp (List.mem_of_find?_eq_some h), hp⟩

theorem findEntry_eq_none (h : c.findEntry p = none) (hi : i < c.numItems) :
    p (c.items i) = false :=
  Bool.eq_false_iff.mpr (List.find?_eq_none.mp h i (List.mem_range.mpr hi))

theorem load_cases (c : DatamanCache) (item index) :
    (∃ e : Entry, c.itemCounter < c.numItems ∧ (c.load item index).1 = c.enqueue e ∧
      e.state = .requestPrepared ∧ e.isFor item index ∧
      ∀ i < c.numItems, c.state i ≠ .idle → c.state i ≠ .error →
        (c.items i).isFor item index = false) ∨
    (c.load item index).1 = c := by
  unfold load
  split
  · exact .inr rfl
  dsimp only
  split
  · rename_i hnew
    rw [Bool.and_eq_true, Bool.not_eq_true', isSome_eq_false_iff,
      isNone_iff_eq_none, decide_eq_true_iff] at hnew
    refine .inl ⟨_, hnew.2, rfl, rfl, ?_, fun i hi hidle herror => ?_⟩
    · simp [Entry.isFor]
    · have hnone := findEntry_eq_none hnew.1 hi
      simpa [show (c.items i).state ≠ .idle from hidle,
        show (c.items i).state ≠ .error from herror] using hnone
  · exact .inr rfl

theorem loadWait_cases (c : DatamanCache) (item index length timeout read) :
    (∃ buffer, read = some buffer ∧ c.itemCounter < c.numItems ∧
      c.loadWait item index length timeout read = (c.enqueue
        { state := .responseReceived, item, index := index
          data := memcpy (c.items c.loadIndex).data buffer length }, some buffer) ∧
      ∀ i < c.numItems, (c.items i).isFor item index = false) ∨
    (c.loadWait item index length timeout read).1 = c := by
  unfold loadWait
  split
  · exact .inr rfl
  cases c.hit item index with
  | some i => exact .inr rfl
  | none =>
    dsimp only
    split
    · cases read with
      | none => exact .inr rfl
      | some buffer =>
        dsimp only
        split
        · rename_i hnew
          rw [Bool.and_eq_true, Bool.not_eq_true', isSome_eq_false_iff,
            isNone_iff_eq_none, decide_eq_true_iff] at hnew
          exact .inl ⟨buffer, rfl, hnew.2, rfl, fun i hi => findEntry_eq_none hnew.1 hi⟩
        · exact .inr rfl
    · exact .inr rfl

/-- `loadWait` returns the data of an entry or what it has read. -/
theorem loadWait_eq_some {data : Bytes}
    {read} (h : (c.loadWait item index length timeout read).2 = some data) :
    (∃ i < c.numItems, (c.items i).isFor item index ∧ c.state i = .responseReceived ∧
      data = (c.items i).data.take length) ∨ read = some data := by
  unfold loadWait at h
  split at h
  · cases h
  cases hhit : c.hit item index with
  | some i =>
    rw [hhit] at h
    obtain ⟨hi, hentry⟩ := findEntry_eq_some hhit
    rw [Bool.and_eq_true, decide_eq_true_iff] at hentry
    exact .inl ⟨i, hi, hentry.1, hentry.2, (some.inj h).symm⟩
  | none =>
    rw [hhit] at h
    dsimp only at h
    split at h
    · cases read with
      | none => cases h
      | some buffer =>
        dsimp only at h
        split at h <;> exact .inr h
    · cases h

variable (c)

theorem writeWait_cases (item index buffer length written) :
    (∃ i < c.numItems, (c.items i).isFor item index ∧
      (c.state i = .responseReceived ∨ c.state i = .requestPrepared) ∧
      c.writeWait item index buffer length written = ({ c with
        items := Function.update c.items i { c.items i with
          data := memcpy (c.items i).data buffer length, state := .responseReceived } }, true)) ∨
    (c.writeWait item index buffer length written).1 = c ∧
      (length ≤ perItemSize item → written →
        ∀ i < c.numItems, (c.items i).isFor item index →
          c.state i ≠ .responseReceived ∧ c.state i ≠ .requestPrepared) := by
  unfold writeWait
  split
  · exact .inr ⟨rfl, fun hlength => absurd hlength (by omega)⟩
  split
  · cases hfind : c.findEntry fun e => e.isFor item index &&
        (e.state = .responseReceived || e.state = .requestPrepared) with
    | some i =>
      obtain ⟨hi, hentry⟩ := findEntry_eq_some hfind
      rw [Bool.and_eq_true, Bool.or_eq_true, decide_eq_true_iff, decide_eq_true_iff] at hentry
      exact .inl ⟨i, hi, hentry.1, hentry.2, rfl⟩
    | none =>
      refine .inr ⟨rfl, fun _ _ i hi hfor => ?_⟩
      have hnone := findEntry_eq_none hfind hi
      rw [hfor, Bool.true_and, Bool.or_eq_false_iff, decide_eq_false_iff_not,
        decide_eq_false_iff_not] at hnone
      exact hnone
  · exact .inr ⟨rfl, fun _ hwritten => absurd hwritten ‹_›⟩

theorem writeWait_false : (c.writeWait item index buffer length false).1 = c := by
  unfold writeWait
  split <;> rfl

theorem writeWait_received (item index buffer length written) :
    let r := (c.writeWait item index buffer length written).1
    r = { c with items := r.items } ∧ ∀ i, r.state i = c.state i ∨ c.state i = .requestPrepared ∧
      r.state i = .responseReceived := by
  obtain ⟨j, -, -, hstate, heq⟩ | ⟨heq, -⟩ := c.writeWait_cases item index buffer length written
  · refine ⟨by rw [heq], fun i => ?_⟩
    rw [heq]
    dsimp only [DatamanCache.state]
    by_cases hi : i = j
    · rw [hi, Function.update_self]
      obtain hstate | hstate := hstate
      · exact .inl hstate.symm
      · exact .inr ⟨hstate, rfl⟩
    · rw [update_of_ne hi]
      exact .inl rfl
  · rw [heq]
    exact ⟨rfl, fun _ => .inl rfl⟩

variable {c}

theorem Window.of_idle (hcounter : c.itemCounter = 0) (hload : c.loadIndex = c.updateIndex)
    (hupdate : c.numItems ≠ 0 → c.updateIndex < c.numItems)
    (hstate : ∀ i, c.state i ≠ .requestPrepared ∧ c.state i ≠ .requestSent)
    (hclient : client.state = .idle) : c.Window ∧ c.Linked client ∧ ∀ i, ¬c.InWindow i := by
  have hwindow : ∀ i, ¬c.InWindow i := by
    intro i hi
    exact absurd hi.2 (by omega)
  refine ⟨⟨⟨by omega, hupdate, ?_⟩, fun i hi => absurd hi (hwindow i), fun i _ => hstate i⟩,
    ⟨by rw [hclient]; decide, fun i => ?_⟩, hwindow⟩
  · rw [hload, hcounter, Nat.add_zero]
    by_cases hn : c.numItems = 0
    · rw [hn, Nat.mod_zero]
    · rw [Nat.mod_eq_of_lt (hupdate hn)]
  · rw [hclient]
    exact ⟨fun hi => absurd hi (hstate i).2, nofun⟩

theorem Window.invalidate (h : c.Window) :
    let r := c.invalidate client
    r.1.Window ∧ r.1.Linked r.2 ∧ ∀ i, ¬r.1.InWindow i := by
  refine Window.of_idle rfl rfl (fun hn => Nat.pos_of_ne_zero hn) (fun i => ?_) rfl
  dsimp only [DatamanCache.invalidate, DatamanCache.state]
  split
  · exact ⟨nofun, nofun⟩
  · rename_i hi
    exact h.outside i fun hi' => hi hi'.1

end DatamanCache

end Px4.Dataman
