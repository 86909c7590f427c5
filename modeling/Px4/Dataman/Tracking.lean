import Px4.Dataman.WriteSync

/-!
# What the storage holds

One client is the only writer. `Tracks` describes the network between its calls: the storage holds
what has been written, every write request on its way repeats that, and every response on its way to
a read of the client has it. While a write waits for its response, the requests on their way to its
own place have the new data, and so has whatever has been read after the first good answer.
-/

namespace Px4.Dataman

open Function List Network

/-- The data of each place. -/
abbrev Values := DmItem → ℕ → Bytes

/-- A write that waits for its response. -/
structure Write where
  item : DmItem
  index : ℕ
  data : Bytes

namespace Write

/-- The write is one to the place. -/
def IsFor (w : Option Write) (item : DmItem) (index : ℕ) : Prop :=
  ∃ x ∈ w, x.item = item ∧ x.index = index

/-- The data of a place after the write. -/
def target (v : Values) (w : Option Write) (item : DmItem) (index : ℕ) : Bytes :=
  match w with
  | some x => if x.item = item ∧ x.index = index then x.data else v item index
  | none => v item index

variable {v : Values} {x : Write} {w : Option Write}

theorem target_of_isFor : target v (some x) x.item x.index = x.data :=
  if_pos ⟨rfl, rfl⟩

theorem target_of_not_isFor {item index} (h : ¬IsFor w item index) :
    target v w item index = v item index := by
  cases w with
  | none => rfl
  | some x => exact if_neg fun hx => h ⟨x, rfl, hx⟩

theorem not_isFor_none {item index} : ¬IsFor none item index := by
  rintro ⟨x, hx, -⟩
  cases hx

theorem length_target (h : ∀ item index, (v item index).length = perItemSize item)
    (hx : x.data.length = perItemSize x.item) (item index) :
    (target v (some x) item index).length = perItemSize item := by
  unfold target
  dsimp only
  split
  · rename_i hplace
    rw [hx, hplace.1]
  · exact h item index

end Write

open Write

def readKey (clientId : UInt8) (item : DmItem) (index : ℕ) : Key := ⟨clientId, .read, item, index⟩

def writeKey (clientId : UInt8) (item : DmItem) (index : ℕ) : Key := ⟨clientId, .write, item, index⟩

/-- A good answer to a request with the key. -/
def Response.Good (r : Response) (key : Key) : Prop := r.key = key ∧ r.status = .success

/-- A request of the only writer for all of an item, with the data that its place has or gets. -/
def Request.Tracked (clientId : UInt8) (v : Values) (w : Option Write) (q : Request) : Prop :=
  q.requestType ≠ .clear ∧ (q.requestType = .write → q.clientId = clientId ∧
    q.dataLength = perItemSize q.item ∧ q.payload.length = perItemSize q.item ∧
    q.payload = target v w q.item q.index)

structure Tracks (clientId : UInt8) (n : Network) (v : Values) (w : Option Write) : Prop where
  requests : ∀ q ∈ n.unexecuted, q.Tracked clientId v w
  store : ∀ item index, ¬Write.IsFor w item index → n.data.store.content item index = v item index
  reads : ∀ item index, ¬Write.IsFor w item index → ∀ r ∈ n.unread,
    r.Good (readKey clientId item index) → r.data.take (perItemSize item) = v item index
  answered : ∀ x ∈ w, ∀ r ∈ n.unread, r.Good (writeKey clientId x.item x.index) →
    n.data.store.content x.item x.index = x.data
  order : ∀ x ∈ w, n.unread.Pairwise fun r r' => r.Good (writeKey clientId x.item x.index) →
    r'.Good (readKey clientId x.item x.index) → r'.data.take (perItemSize x.item) = x.data

/-! ## The task -/

variable {store : Store} {item : DmItem} {index : ℕ} {data : Bytes} {q : Request}

theorem content_of_length (hdata : data.length = perItemSize item) (h : store item index = data) :
    store.content item index = data := by
  unfold Store.content padded
  rw [h, ← hdata, take_left]

theorem content_update_self (hdata : data.length = perItemSize item) :
    Store.content (update store item (update (store item) index data)) item index = data :=
  content_of_length hdata (by rw [update_self, update_self])

variable {item' : DmItem} {index' numMissionItems : ℕ} {ok : Bool}

theorem content_update_of_ne (h : ¬(item' = item ∧ index' = index)) :
    Store.content (update store item (update (store item) index data))
      item' index' = store.content item' index' := by
  unfold Store.content
  by_cases hitem : item' = item
  · have hindex : index' ≠ index := fun hindex => h ⟨hitem, hindex⟩
    rw [hitem, update_self, update_of_ne hindex]
  · rw [update_of_ne hitem]

/-- A write of all of an item succeeds and is stored, or fails and changes nothing. -/
theorem handle_write {numMissionItems : ℕ} {d : TaskData} {ok : Bool}
    (hwrite : q.requestType = .write) (hlength : q.dataLength = perItemSize q.item) :
    let r := d.handle numMissionItems q ok
    (r.2.status = .success ∧ r.1.store =
      update d.store q.item (update (d.store q.item) q.index q.payload)) ∨
    (r.2.status ≠ .success ∧ r.1.store = d.store) := by
  have hpos := perItemSize_pos q.item
  unfold TaskData.handle
  rw [hwrite]
  dsimp only [Store.write]
  split
  · exact .inr ⟨nofun, rfl⟩
  split
  · exact .inr ⟨nofun, rfl⟩
  split
  · refine .inl ⟨if_pos ?_, rfl⟩
    omega
  · exact .inr ⟨nofun, rfl⟩

theorem read_of_nonneg {count} (h : (store.read numMissionItems item index count ok).2 ≥ 0) :
    (store.read numMissionItems item index count ok).1 = store item index := by
  unfold Store.read at h ⊢
  by_cases hindex : index ≥ perItemMaxIndex numMissionItems item
  · rw [if_pos hindex] at h
    cases h
  rw [if_neg hindex] at h ⊢
  by_cases hcount : count > perItemSize item
  · rw [if_pos hcount] at h
    cases h
  rw [if_neg hcount] at h ⊢
  cases ok with
  | false =>
    rw [if_neg (by decide)] at h
    cases h
  | true =>
    rw [if_pos rfl] at h ⊢
    by_cases hlong : (store item index).length > count
    · rw [if_pos hlong] at h
      cases h
    · rw [if_neg hlong]

theorem handle_read {numMissionItems : ℕ} {d : TaskData} {ok : Bool}
    (hread : q.requestType = .read) :
    let r := d.handle numMissionItems q ok
    r.1 = d ∧ (r.2.status = .success → r.2.data = padded (d.store q.item q.index)) := by
  unfold TaskData.handle
  rw [hread]
  dsimp only
  refine ⟨rfl, fun hok => ?_⟩
  split at hok
  · rw [read_of_nonneg ‹_›]
  · cases hok

theorem handle_getId {d : TaskData}
    (hget : q.requestType = .getId) : (d.handle numMissionItems q ok).1.store = d.store := by
  unfold TaskData.handle
  rw [hget]
  dsimp only
  split <;> rfl

/-! ## Steps of the network -/

namespace Tracks

variable {cfg : Config} {clientId : UInt8} {n n' : Network} {v : Values} {w : Option Write}

section

variable (h : Tracks clientId n v w)
include h

theorem mono (hrequests : ∀ q ∈ n'.unexecuted, q ∈ n.unexecuted)
    (hresponses : n'.unread.Sublist n.unread) (hdata : n'.data = n.data) :
    Tracks clientId n' v w where
  requests q hq := h.requests q (hrequests q hq)
  store := by
    rw [hdata]
    exact h.store
  reads item index hw r hr := h.reads item index hw r (hresponses.subset hr)
  answered x hx r hr := by
    rw [hdata]
    exact h.answered x hx r (hresponses.subset hr)
  order x hx := (h.order x hx).sublist hresponses

theorem take : Tracks clientId n.take v w :=
  h.mono (fun q hq => by rwa [unexecuted_take] at hq) (by rw [unread_take]) (data_take n)

theorem respond : Tracks clientId (n.respond cfg) v w :=
  h.mono (fun q hq => by rwa [unexecuted_respond] at hq) (unread_respond n) (data_respond n)

theorem receive : Tracks clientId n.receive v w :=
  h.mono (fun _ hq => hq) n.unread_receive rfl

end

variable {q : Request} {r : Response}

section

variable (h : Tracks clientId n v w)
include h

theorem publish (hq : q.Tracked clientId v w) :
    Tracks clientId (n.publish cfg q) v w where
  __ := h
  requests p hp := by
    obtain hp | rfl := mem_unexecuted_publish hp
    · exact h.requests p hp
    · exact hq

theorem of_unpublished (hn : n' = n ∨ n' = n.receive) : Tracks clientId n' v w := by
  obtain rfl | rfl := hn
  · exact h
  · exact h.receive

theorem of_published (hq : q.Tracked clientId v w)
    (hn : n' = n ∨ n' = n.receive ∨ n' = n.publish cfg q) : Tracks clientId n' v w := by
  obtain rfl | rfl | rfl := hn
  · exact h
  · exact h.receive
  · exact h.publish hq

section

variable (hrequests : ∀ q ∈ n'.unexecuted, q ∈ n.unexecuted)
  (hresponses : n'.unread = n.unread ++ [r])
include hrequests hresponses

/-- The task has executed a request: what has to hold of the new response `r` and of the storage. -/
theorem of_executed
    (hstore : ∀ item index, ¬Write.IsFor w item index →
      n'.data.store.content item index = v item index)
    (hread : ∀ item index, r.Good (readKey clientId item index) →
      r.data.take (perItemSize item) = n.data.store.content item index)
    (hold : ∀ x ∈ w, n.data.store.content x.item x.index = x.data →
      n'.data.store.content x.item x.index = x.data)
    (hnew : ∀ x ∈ w, r.Good (writeKey clientId x.item x.index) →
      n'.data.store.content x.item x.index = x.data) : Tracks clientId n' v w where
  requests q hq := h.requests q (hrequests q hq)
  store := hstore
  reads item index hw s hs hgood := by
    rw [hresponses, mem_append, mem_singleton] at hs
    obtain hs | rfl := hs
    · exact h.reads item index hw s hs hgood
    · rw [hread item index hgood, h.store item index hw]
  answered x hx s hs hgood := by
    rw [hresponses, mem_append, mem_singleton] at hs
    obtain hs | rfl := hs
    · exact hold x hx (h.answered x hx s hs hgood)
    · exact hnew x hx hgood
  order x hx := by
    rw [hresponses, pairwise_append]
    refine ⟨h.order x hx, pairwise_singleton _ _, fun s hs t ht hgood hgood' => ?_⟩
    -- a read after a good answer to the write finds its data in the storage
    obtain rfl := mem_singleton.mp ht
    rw [hread _ _ hgood', h.answered x hx s hs hgood]

theorem of_unchanged (hstore : n'.data.store = n.data.store)
    (hread : ∀ item index, r.Good (readKey clientId item index) →
      r.data.take (perItemSize item) = n.data.store.content item index)
    (hwrite : ∀ item index, ¬r.Good (writeKey clientId item index)) : Tracks clientId n' v w := by
  refine h.of_executed hrequests hresponses ?_ hread ?_ fun x _ hgood => absurd hgood (hwrite _ _)
  · rw [hstore]
    exact h.store
  · rw [hstore]
    exact fun _ _ hx => hx

/-- A stored write: its place has the new data, and every other place keeps its content. -/
theorem of_stored (hkey : r.key = q.key) (hwrite : q.requestType = .write)
    (hplace : n'.data.store.content q.item q.index = target v w q.item q.index)
    (hother : ∀ item index, ¬(item = q.item ∧ index = q.index) →
      n'.data.store.content item index = n.data.store.content item index) :
    Tracks clientId n' v w := by
  refine h.of_executed hrequests hresponses (fun item index hw => ?_) (fun item index hgood => ?_)
    (fun x hx hold => ?_) (fun x hx hgood => ?_)
  · by_cases hq : item = q.item ∧ index = q.index
    · obtain ⟨rfl, rfl⟩ := hq
      rw [hplace, target_of_not_isFor hw]
    · rw [hother item index hq, h.store item index hw]
  · have htype : q.requestType = .read := congrArg Key.requestType (hkey.symm.trans hgood.1)
    rw [hwrite] at htype
    cases htype
  · obtain rfl : w = some x := hx
    by_cases hq : x.item = q.item ∧ x.index = q.index
    · rw [hq.1, hq.2, hplace, ← hq.1, ← hq.2, target_of_isFor]
    · rw [hother _ _ hq, hold]
  · obtain rfl : w = some x := hx
    have hitem : q.item = x.item := congrArg Key.item (hkey.symm.trans hgood.1)
    have hindex : q.index = x.index := congrArg Key.index (hkey.symm.trans hgood.1)
    rw [← hitem, ← hindex, hplace, hitem, hindex, target_of_isFor]

end

theorem execute (ok : Bool) : Tracks clientId (n.execute cfg ok) v w := by
  obtain ⟨q, hrequests, hresponses, hdata⟩ | heq := n.execute_cases cfg ok
  · have hrest : ∀ p ∈ (n.execute cfg ok).unexecuted, p ∈ n.unexecuted := by
      intro p hp
      rw [hrequests]
      exact mem_cons_of_mem q hp
    obtain ⟨hclear, hwrites⟩ := h.requests q (hrequests ▸ mem_cons_self ..)
    -- the response has the type of the request
    have hne {key : Key} (hkey : q.requestType ≠ key.requestType) :
        ¬(n.data.handle cfg.numMissionItems q ok).2.Good key := by
      intro hgood
      have htype := requestType_handle cfg.numMissionItems n.data q ok
      exact hkey (htype.symm.trans (congrArg Key.requestType hgood.1))
    cases hrequest : q.requestType with
    | clear => exact absurd hrequest hclear
    | getId =>
      refine h.of_unchanged hrest hresponses (by rw [hdata, handle_getId hrequest]) ?_ ?_
      · exact fun item index hgood => absurd hgood (hne (by rw [hrequest]; exact nofun))
      · exact fun item index => hne (by rw [hrequest]; exact nofun)
    | read =>
      obtain ⟨hsame, hpadded⟩ := handle_read hrequest
      refine h.of_unchanged hrest hresponses (by rw [hdata, hsame]) (fun item index hgood => ?_) ?_
      · have hkey : q.key = readKey clientId item index := by
          rw [← hgood.1, key_handle (by rw [hrequest]; exact nofun)]
        obtain rfl : q.item = item := congrArg Key.item hkey
        obtain rfl : q.index = index := congrArg Key.index hkey
        rw [hpadded hgood.2]
        rfl
      · exact fun item index => hne (by rw [hrequest]; exact nofun)
    | write =>
      obtain ⟨-, hlength, hpayload, htarget⟩ := hwrites hrequest
      obtain ⟨-, hstore⟩ | ⟨hfailed, hstore⟩ := handle_write hrequest hlength
      · refine h.of_stored hrest hresponses (key_handle (by rw [hrequest]; exact nofun)) hrequest
          ?_ fun item index hq => ?_
        · rw [hdata, hstore, content_update_self hpayload, htarget]
        · rw [hdata, hstore, content_update_of_ne hq]
      · refine h.of_unchanged hrest hresponses (by rw [hdata, hstore]) ?_ ?_
        · exact fun item index hgood => absurd hgood (hne (by rw [hrequest]; exact nofun))
        · exact fun item index hgood => hfailed hgood.2
  · rwa [heq]

end

theorem answer (h : Tracks clientId n v none) {responses}
    (hresponses : n.responses = r :: responses) (hgood : r.Good (readKey clientId item index)) :
    r.data.take (perItemSize item) = v item index := by
  refine h.reads item index not_isFor_none r ?_ hgood
  rw [unread_eq_cons hresponses]
  exact mem_cons_self ..

/-! ## One write -/

variable {request : Request} {x : Write}

theorem start (h : Tracks clientId n v none)
    (hkey : request.key = writeKey clientId x.item x.index) (hpayload : request.payload = x.data)
    (hclean : n.Clean request) : Tracks clientId n v (some x) := by
  have hnone : ∀ r ∈ n.unread, ¬r.Good (writeKey clientId x.item x.index) := fun r hr hgood =>
    hclean.2 r hr (hgood.1.trans hkey.symm) hgood.2
  refine ⟨fun q hq => ⟨(h.requests q hq).1, fun hwrite => ?_⟩, fun item index _ => ?_,
    fun item index _ => h.reads item index not_isFor_none, ?_, ?_⟩
  · obtain ⟨hid, hdata, hlength, htarget⟩ := (h.requests q hq).2 hwrite
    refine ⟨hid, hdata, hlength, ?_⟩
    by_cases hx : x.item = q.item ∧ x.index = q.index
    · -- another request for the same place: it has the same data
      have hq : q.payload = request.payload := by
        refine hclean.1 q hq ?_
        rw [hkey, Request.key, writeKey, hid, hwrite, hx.1, hx.2]
      rw [hq, hpayload, ← hx.1, ← hx.2, target_of_isFor]
    · rw [htarget]
      exact (if_neg hx).symm
  · exact h.store item index not_isFor_none
  · intro y hy r hr hgood
    cases hy
    exact absurd hgood (hnone r hr)
  · intro y hy
    cases hy
    exact pairwise_iff_forall_sublist.mpr fun hab hgood =>
      absurd hgood (hnone _ (hab.subset (mem_cons_self ..)))

theorem finish (h : Tracks clientId n v (some x)) {responses}
    (hresponses : n.responses = r :: responses)
    (hgood : r.Good (writeKey clientId x.item x.index)) :
    Tracks clientId n.receive (target v (some x)) none := by
  have hunread := unread_eq_cons hresponses
  have horder := h.order x rfl
  rw [hunread, pairwise_cons] at horder
  have hx {item : DmItem} {index : ℕ} (hfor : Write.IsFor (some x) item index) :
      x.item = item ∧ x.index = index := by
    obtain ⟨y, hy, hplace⟩ := hfor
    cases hy
    exact hplace
  refine ⟨h.requests, fun item index _ => ?_, fun item index _ r' hr' hgood' => ?_, nofun, nofun⟩
  · by_cases hfor : Write.IsFor (some x) item index
    · obtain ⟨rfl, rfl⟩ := hx hfor
      rw [target_of_isFor]
      exact h.answered x rfl r (hunread ▸ mem_cons_self ..) hgood
    · rw [target_of_not_isFor hfor]
      exact h.store item index hfor
  · by_cases hfor : Write.IsFor (some x) item index
    · obtain ⟨rfl, rfl⟩ := hx hfor
      rw [target_of_isFor]
      exact horder.1 r' hr' hgood hgood'
    · rw [target_of_not_isFor hfor]
      exact h.reads item index hfor r' (hunread ▸ mem_cons_of_mem r hr') hgood'

theorem init (clientId) :
    Tracks clientId {} (fun item _ => replicate (perItemSize item) 0) none where
  requests := nofun
  store item index _ := by
    change (replicate dataSize 0).take (perItemSize item) = _
    rw [take_replicate, Nat.min_eq_left (perItemSize_le_dataSize item)]
  reads _ _ _ := nofun
  answered := nofun
  order := nofun

end Tracks

end Px4.Dataman
