import Px4.Dataman.CacheEntries

/-!
# Where the data of a cache comes from

Each entry that has data has it from a response that was a success and was for its place, also after
`update` has left an entry behind the window.
-/

namespace Px4.Dataman

open DatamanCache

/-- One of the responses has supplied the data of the entry. -/
def Entry.SuppliedBy (e : Entry) (clientId : UInt8) (responses : List Response) : Prop :=
  ∃ r ∈ responses, r.key = ⟨clientId, .read, e.item, e.index⟩ ∧ r.status = .success ∧
    e.data.take (perItemSize e.item) = r.data.take (perItemSize e.item)

variable {clientId : UInt8} {responses responses' : List Response}

theorem Entry.SuppliedBy.mono {e : Entry} (h : e.SuppliedBy clientId responses)
    (hsub : responses ⊆ responses') : e.SuppliedBy clientId responses' := by
  obtain ⟨r, hr, hsupplied⟩ := h
  exact ⟨r, hsub hr, hsupplied⟩

namespace DatamanCache

variable {c c' : DatamanCache} {client : DatamanClient} {clientId : UInt8}
  {responses : List Response}

/-- Every entry with data has it from one of the responses. -/
def Stocked (c : DatamanCache) (clientId : UInt8) (responses : List Response) : Prop :=
  ∀ i < c.numItems, c.state i = .responseReceived → (c.items i).SuppliedBy clientId responses

/-- If the client has sent a request, it is the one of the entry at `_update_index`. -/
structure Attached (c : DatamanCache) (client : DatamanClient) : Prop where
  received : client.state ≠ .responseReceived
  state_sent : client.state = .requestSent → c.state c.updateIndex = .requestSent
  active : client.state = .requestSent → client.activeRequest =
    ⟨(c.items c.updateIndex).item, (c.items c.updateIndex).index, c.updateIndex,
      perItemSize (c.items c.updateIndex).item⟩

theorem Attached.of_idle (h : client.state = .idle) : c.Attached client where
  received := by rw [h]; nofun
  state_sent := by rw [h]; nofun
  active := by rw [h]; nofun

theorem Stocked.mono (h : c.Stocked clientId responses)
    (hsub : responses ⊆ responses') : c.Stocked clientId responses' :=
  fun i hi hstate => (h i hi hstate).mono hsub

theorem Stocked.of_none (h : ∀ i < c.numItems, c.state i ≠ .responseReceived) :
    c.Stocked clientId responses :=
  fun i hi hstate => absurd hstate (h i hi)

variable {i : ℕ} {e : Entry} {dst : Bytes}

theorem Stocked.fill (h : c.Stocked clientId responses)
    (hitems : c'.items = Function.update c.items i e) (hnum : c'.numItems = c.numItems)
    (he : e.state = .responseReceived → e.SuppliedBy clientId responses) :
    c'.Stocked clientId responses := by
  intro j hj hstate
  unfold state at hstate
  rw [hitems] at hstate ⊢
  by_cases hji : j = i
  · rw [hji, Function.update_self] at hstate ⊢
    exact he hstate
  · rw [Function.update_of_ne hji] at hstate ⊢
    exact h j (hnum ▸ hj) hstate

theorem Stocked.of_items_eq (h : c.Stocked clientId responses) (hitems : c'.items = c.items)
    (hnum : c'.numItems = c.numItems) : c'.Stocked clientId responses := by
  intro i hi hstate
  unfold state at hstate
  rw [hitems] at hstate ⊢
  exact h i (hnum ▸ hi) hstate

/-! ## The calls -/

theorem stocked_invalidate (c : DatamanCache) (client clientId responses) :
    (c.invalidate client).1.Stocked clientId responses := by
  refine .of_none fun i hi => ?_
  dsimp only [invalidate, state] at hi ⊢
  rw [if_pos hi]
  nofun

theorem Stocked.load (h : c.Stocked clientId responses) (item index) :
    (c.load item index).1.Stocked clientId responses := by
  obtain ⟨e, -, heq, hstate, -, -⟩ | heq := c.load_cases item index
  · rw [heq]
    refine h.fill rfl rfl fun hreceived => ?_
    rw [hstate] at hreceived
    cases hreceived
  · rwa [heq]

theorem Stocked.resize (h : c.Stocked clientId responses) (client numItems allocated) :
    (c.resize client numItems allocated).1.Stocked clientId responses := by
  unfold DatamanCache.resize
  split
  · exact .of_none nofun
  split
  · intro i _ hstate
    dsimp only [state] at hstate ⊢
    by_cases hkept : i < numItems ∧ i < c.numItems
    · rw [if_pos hkept] at hstate ⊢
      unfold Entry.kept at hstate ⊢
      split at hstate
      · cases hstate
      · rename_i hsent
        rw [if_neg hsent]
        exact h i hkept.2 hstate
    · rw [if_neg hkept] at hstate
      cases hstate
  · exact h

theorem client_resize (c : DatamanCache) (client numItems allocated) :
    (c.resize client numItems allocated).2 = client.abortCurrentOperation ∨
      (c.resize client numItems allocated).2 = client := by
  unfold DatamanCache.resize
  split
  · exact .inl rfl
  · split
    · exact .inl rfl
    · exact .inr rfl

/-- A response that is accepted supplies the entry that was requested. -/
theorem Attached.supplied {response : Option Response} {r : Response} (h : c.Attached client)
    (hclient : client.state = .requestSent)
    (hr : client.accepted response = some r)
    (hstatus : r.status = .success) (hsize : ∀ r ∈ response, r.data.length = dataSize) {e : Entry}
    (hitem : e.item = (c.items c.updateIndex).item)
    (hindex : e.index = (c.items c.updateIndex).index)
    (hdata : e.data = memcpy dst r.data (perItemSize e.item)) :
    e.SuppliedBy client.clientId response.toList := by
  unfold DatamanClient.accepted at hr
  rw [if_pos hclient, Option.filter_eq_some_iff] at hr
  obtain ⟨rfl, hexpects⟩ := hr
  have hkey := of_decide_eq_true hexpects
  rw [h.active hclient] at hkey
  refine ⟨r, List.mem_singleton_self r, ?_, hstatus, ?_⟩
  · rw [hitem, hindex]
    exact hkey
  · have hle := perItemSize_le_dataSize e.item
    rw [hdata, take_memcpy]
    rw [List.length_take, hsize r rfl]
    omega

section Update

variable {now : UInt64} {response : Option Response} {expired : Bool}

/-- What `update` can do, whatever the states of the entries are. -/
theorem Attached.update_cases (h : c.Attached client) (hloading : 0 < c.itemCounter) :
    let y := c.update client now response expired
    UpdateMove c client now response expired y ∨ client.state = .idle ∧ y.client = client ∧
      y.cache.items = c.items ∧ y.cache.numItems = c.numItems := by
  cases hclient : client.state with
  | responseReceived => exact absurd hclient h.received
  | requestSent =>
    have hsent := h.state_sent hclient
    cases hresponse : client.accepted response with
    | none => exact .inl (update_unanswered hsent hclient hresponse hloading)
    | some r => exact .inl (update_answered hsent hclient hresponse hloading)
  | idle =>
    have hrest (hswitch : c.switch client now = { cache := c, client }) :
        (c.update client now response expired).client = client ∧
          (c.update client now response expired).cache.items = c.items ∧
          (c.update client now response expired).cache.numItems = c.numItems := by
      unfold update
      rw [if_pos hloading, update_of_idle hclient]
      dsimp only [copyTo]
      rw [hswitch]
      exact ⟨rfl, items_skipError c, numItems_skipError c⟩
    cases hstate : c.state c.updateIndex with
    | requestPrepared => exact .inl (update_prepared hstate hclient hloading)
    | responseReceived => exact .inl (update_received hstate hclient hloading)
    | idle | error => exact .inr ⟨rfl, hrest (by rw [switch, hstate])⟩
    | requestSent =>
      have hcompleted : client.lastOperationCompleted = (client, none) :=
        if_neg (by rw [hclient]; decide)
      exact .inr ⟨rfl, hrest (by rw [switch, hstate, hcompleted])⟩

section

variable {u : Updated} (hmove : UpdateMove c client now response expired u)
  (hattached : c.Attached client)
include hmove hattached

theorem UpdateMove.stocked (h : c.Stocked client.clientId responses)
    (hsize : ∀ r ∈ response, r.data.length = dataSize) :
    u.cache.Stocked client.clientId (responses ++ response.toList) := by
  have hbefore := h.mono (List.subset_append_left responses response.toList)
  cases hmove with
  | waits => exact hbefore
  | sends => exact hbefore.fill rfl rfl nofun
  | refused =>
    exact hbefore.fill (items_changeUpdateIndex _) (numItems_changeUpdateIndex _) nofun
  | skips =>
    exact hbefore.of_items_eq ((items_skipError _).trans (items_changeUpdateIndex _))
      ((numItems_skipError _).trans (numItems_changeUpdateIndex _))
  | @receives r hsent hclient hr hstatus =>
    -- the buffer of the request is that of the entry
    rw [hattached.active hclient]
    refine hbefore.fill ((items_skipError _).trans ((items_changeUpdateIndex _).trans
      (items_setState_copyTo ..))) ((numItems_skipError _).trans (numItems_changeUpdateIndex _)) ?_
    intro _
    refine Entry.SuppliedBy.mono ?_ (List.subset_append_right responses response.toList)
    exact hattached.supplied hclient hr hstatus hsize rfl rfl rfl
  | fails hsent hclient hr hstatus =>
    rw [hattached.active hclient]
    exact hbefore.fill ((items_changeUpdateIndex _).trans (items_setState_copyTo ..))
      (numItems_changeUpdateIndex _) nofun

theorem UpdateMove.attached : u.cache.Attached u.client ∧ u.client.clientId = client.clientId := by
  cases hmove with
  | waits => exact ⟨hattached, rfl⟩
  | sends hprepared hclient hread =>
    obtain ⟨-, rfl, -⟩ := DatamanClient.readAsync_eq_some hread
    refine ⟨⟨nofun, fun _ => ?_, fun _ => ?_⟩, rfl⟩
    · rw [state_setState]
      exact if_pos rfl
    · dsimp only [setState]
      rw [Function.update_self]
  | refused _ hclient | skips _ hclient => exact ⟨.of_idle hclient, rfl⟩
  | receives | fails => exact ⟨.of_idle rfl, rfl⟩

end

theorem Attached.update (hattached : c.Attached client) (now response expired) :
    (c.update client now response expired).cache.Attached
        (c.update client now response expired).client ∧
      (c.update client now response expired).client.clientId = client.clientId := by
  by_cases hloading : 0 < c.itemCounter
  · obtain hmove | ⟨hidle, hclient, -, -⟩ := hattached.update_cases hloading
    · exact hmove.attached hattached
    · rw [hclient]
      exact ⟨.of_idle hidle, rfl⟩
  · rw [update_of_not_loading hloading]
    exact ⟨hattached, rfl⟩

theorem Stocked.update (h : c.Stocked client.clientId responses) (hattached : c.Attached client)
    (now) (hsize : ∀ r ∈ response, r.data.length = dataSize) (expired) :
    (c.update client now response expired).cache.Stocked client.clientId
      (responses ++ response.toList) := by
  have hbefore := h.mono (List.subset_append_left responses response.toList)
  by_cases hloading : 0 < c.itemCounter
  · obtain hmove | ⟨-, -, hitems, hnum⟩ := hattached.update_cases hloading
    · exact hmove.stocked hattached h hsize
    · exact hbefore.of_items_eq hitems hnum
  · rw [update_of_not_loading hloading]
    exact hbefore

end Update

end DatamanCache

end Px4.Dataman
