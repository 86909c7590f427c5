import Px4.Common.KeyedSlots
import Px4.Dataman.CacheWindow
import Px4.Dataman.Tracking

/-!
# The data of the entries

A `DatamanCache` whose client is the only writer of the storage has one entry for each place, with
what was last written there once it has anything, and the buffer of the active request is the one of
the requested entry. The last part goes wrong when `update` leaves an entry behind the window: the
entry is filled again while its request is active.
-/

namespace Px4.Dataman

open DatamanCache Function Write

/-! ## The entries -/

/-- The place that an entry stands for, unless it is idle or has an error. -/
def Entry.activeKey (e : Entry) : Option (DmItem × ℕ) :=
  if e.state = .idle ∨ e.state = .error then none else some (e.item, e.index)

open Entry

/-- The data of the entry is that of its place. -/
def Entry.Holds (e : Entry) (v : Values) : Prop :=
  e.data.take (perItemSize e.item) = v e.item e.index

theorem Entry.activeKey_eq_some {e : Entry} {item index} (h : e.activeKey = some (item, index)) :
    e.state ≠ .idle ∧ e.state ≠ .error ∧ e.item = item ∧ e.index = index := by
  unfold activeKey at h
  rw [Option.ite_none_left_eq_some, not_or, Option.some.injEq, Prod.mk.injEq] at h
  exact ⟨h.1.1, h.1.2, h.2⟩

variable {k : DmItem × ℕ}

theorem Entry.activeKey_of_ne {e e' : Entry} (h : e.activeKey = some k)
    (hidle : e'.state ≠ .idle) (herror : e'.state ≠ .error) (hitem : e.item = e'.item)
    (hindex : e.index = e'.index) : e'.activeKey = some k := by
  obtain ⟨-, -, hkitem, hkindex⟩ := activeKey_eq_some h
  unfold activeKey
  rw [if_neg (not_or.mpr ⟨hidle, herror⟩), ← hitem, ← hindex, hkitem, hkindex]

theorem Entry.isFor_iff {e : Entry} {item index} :
    e.isFor item index ↔ e.item = item ∧ e.index = index := by
  unfold isFor
  rw [Bool.and_eq_true, decide_eq_true_iff, decide_eq_true_iff]

/-- There is at most one entry for each place, and it holds the data of the place if it has any. -/
structure Entries (items : ℕ → Entry) (numItems : ℕ) (v : Values) : Prop where
  unique : KeyedSlots.Unique activeKey items
  beyond : ∀ i, numItems ≤ i → (items i).state = .idle
  data : ∀ i, (items i).state = .responseReceived → (items i).Holds v

namespace Entries

variable {items : ℕ → Entry} {numItems : ℕ} {v : Values}

variable (h : Entries items numItems v)
include h

variable {i : ℕ} {v' : Values} {e : Entry} {w : Option Write}

theorem fill (hi : i < numItems)
    (hkey : ∀ j k, j ≠ i → e.activeKey = some k → (items j).activeKey ≠ some k)
    (hdata : e.state = .responseReceived → e.Holds v')
    (hothers : ∀ j, j ≠ i → (items j).state = .responseReceived → (items j).Holds v') :
    Entries (update items i e) numItems v' where
  unique := h.unique.update hkey
  beyond j hj := by
    rw [update_of_ne (by omega)]
    exact h.beyond j hj
  data j hj := by
    by_cases hji : j = i
    · rw [hji, update_self] at hj ⊢
      exact hdata hj
    · rw [update_of_ne hji] at hj ⊢
      exact hothers j hji hj

theorem change (hi : i < numItems) (hkey : ∀ k, e.activeKey = some k → (items i).activeKey = some k)
    (hdata : e.state = .responseReceived → e.Holds v) : Entries (update items i e) numItems v :=
  h.fill hi (fun j k hj he hjk => hj (h.unique j i k hjk (hkey k he))) hdata fun j _ => h.data j

theorem written
    (hother : ∀ j, (items j).state = .responseReceived →
      ¬Write.IsFor w (items j).item (items j).index) :
    Entries items numItems (target v w) where
  __ := h
  data j hj := by
    unfold Entry.Holds
    rw [target_of_not_isFor (hother j hj)]
    exact h.data j hj

theorem write (hi : i < numItems) (hidle : (items i).state ≠ .idle)
    (herror : (items i).state ≠ .error) (hitem : e.item = (items i).item)
    (hindex : e.index = (items i).index) :
    Entries (update items i e) numItems (target v
      (some ⟨e.item, e.index, e.data.take (perItemSize e.item)⟩)) := by
  refine h.fill hi (fun j k hj hk hjk => ?_) (fun _ => ?_) fun j hji hj => ?_
  · exact hj (h.unique j i k hjk (activeKey_of_ne hk hidle herror hitem hindex))
  · exact (target_of_isFor (x := ⟨e.item, e.index, _⟩)).symm
  · unfold Entry.Holds
    rw [target_of_not_isFor]
    · exact h.data j hj
    · -- no other entry stands for the place
      rintro ⟨x, hx, hxitem, hxindex⟩
      cases hx
      have hkey : (items i).activeKey = some ((items i).item, (items i).index) :=
        if_neg (not_or.mpr ⟨hidle, herror⟩)
      exact hji (h.unique j i _ (activeKey_of_ne hkey (by rw [hj]; decide)
        (by rw [hj]; decide) (hitem.symm.trans hxitem) (hindex.symm.trans hxindex)) hkey)

end Entries

/-! ## The cache -/

/-- What holds of the cache between the steps, for the data that was last written. -/
structure CacheInv (c : DatamanCache) (client : DatamanClient) (v : Values) : Prop where
  window : c.Window
  linked : c.Linked client
  entries : Entries c.items c.numItems v
  active : client.state = .requestSent → client.activeRequest =
    ⟨(c.items c.updateIndex).item, (c.items c.updateIndex).index, c.updateIndex,
      perItemSize (c.items c.updateIndex).item⟩

namespace CacheInv

variable {c : DatamanCache} {client : DatamanClient} {v : Values}

variable {e : Entry}

theorem enqueue (h : CacheInv c client v) (hroom : c.itemCounter < c.numItems)
    (hstate : e.state = .requestPrepared ∨ e.state = .responseReceived)
    (hnew : ∀ i < c.numItems, c.state i ≠ .idle → c.state i ≠ .error →
      (c.items i).isFor e.item e.index = false)
    (hdata : e.state = .responseReceived → e.Holds v) : CacheInv (c.enqueue e) client v := by
  have hload : c.loadIndex < c.numItems :=
    h.window.load_eq ▸ Ring.add_mod_lt (h.window.update_lt (by omega))
  refine ⟨h.window.enqueue hroom hstate, h.linked.enqueue h.window hroom hstate,
    h.entries.fill hload (fun j k hj hk hjk => ?_) hdata fun j _ => h.entries.data j,
    fun hsent => ?_⟩
  · obtain ⟨item, index⟩ := k
    obtain ⟨-, -, rfl, rfl⟩ := activeKey_eq_some hk
    obtain ⟨hidle, herror, hitem, hindex⟩ := activeKey_eq_some hjk
    by_cases hjn : j < c.numItems
    · have hfor := hnew j hjn hidle herror
      rw [isFor_iff.mpr ⟨hitem, hindex⟩] at hfor
      cases hfor
    · exact hidle (h.entries.beyond j (by omega))
  · -- the entry that has been requested is not the one that is overwritten
    have hne : c.updateIndex ≠ c.loadIndex := by
      intro hne
      have hstate := (h.linked.sent_iff c.updateIndex).mpr ⟨hsent, rfl⟩
      have hwindow := h.window.not_inWindow_loadIndex hroom
      exact (h.window.outside _ hwindow).2 (hne ▸ hstate)
    rw [h.active hsent]
    dsimp only [DatamanCache.enqueue]
    rw [update_of_ne hne]

theorem load (h : CacheInv c client v) (item : DmItem) (index) :
    CacheInv (c.load item index).1 client v := by
  obtain ⟨e, hroom, heq, hstate, hfor, hnew⟩ | heq := c.load_cases item index
  · rw [heq]
    obtain ⟨rfl, rfl⟩ := isFor_iff.mp hfor
    refine h.enqueue hroom (.inl hstate) hnew fun hreceived => ?_
    rw [hstate] at hreceived
    cases hreceived
  · rwa [heq]

variable {item : DmItem} {index : ℕ}

section

variable (h : CacheInv c client v)
include h

theorem loadWait (timeout) {read} (hv : (v item index).length = perItemSize item)
    (hread : ∀ buffer ∈ read, buffer = v item index) :
    CacheInv (c.loadWait item index (perItemSize item) timeout read).1 client v := by
  obtain ⟨buffer, hbuffer, hroom, heq, hnew⟩ | heq :=
    c.loadWait_cases item index (perItemSize item) timeout read
  · rw [heq]
    refine h.enqueue hroom (.inr rfl) (fun i hi _ _ => hnew i hi) fun _ => ?_
    obtain rfl := hread buffer hbuffer
    have hall : (v item index).take (perItemSize item) = v item index := by
      rw [← hv, List.take_length]
    unfold Entry.Holds
    rw [take_memcpy (by rw [hall, hv]), hall]
  · rwa [heq]

variable {timeout : ℕ} {buffer : Bytes} {response : Option Response} {now : UInt64} {expired : Bool}
  {u : DatamanCache.Updated}

theorem loadWait_data {read : Option Bytes} (hread : ∀ buffer ∈ read, buffer = v item index) {data}
    (hdata : (c.loadWait item index (perItemSize item) timeout read).2 = some data) :
    data = v item index := by
  obtain ⟨i, -, hfor, hstate, rfl⟩ | hbuffer := loadWait_eq_some hdata
  · obtain ⟨rfl, rfl⟩ := isFor_iff.mp hfor
    exact h.entries.data i hstate
  · exact hread data hbuffer

/-- A write changes the one entry that holds the data of its place or is about to request it. -/
theorem writeWait (hbuffer : (buffer.take (perItemSize item)).length = perItemSize item) :
    CacheInv (c.writeWait item index buffer (perItemSize item) true).1 client
      (target v (some ⟨item, index, buffer.take (perItemSize item)⟩)) := by
  obtain ⟨hitems, hstates⟩ := c.writeWait_received item index buffer (perItemSize item) true
  have hwindow := h.window.of_received hitems hstates
  have hlinked := h.linked.of_received hitems hstates
  have hplace {e : Entry}
      (hfor : Write.IsFor (some ⟨item, index, buffer.take (perItemSize item)⟩) e.item e.index) :
      e.item = item ∧ e.index = index := by
    obtain ⟨x, hx, hitem, hindex⟩ := hfor
    cases hx
    exact ⟨hitem.symm, hindex.symm⟩
  obtain ⟨i, hi, hfor, hstate, heq⟩ | ⟨heq, hnone⟩ :=
    c.writeWait_cases item index buffer (perItemSize item) true
  · rw [heq] at hwindow hlinked ⊢
    obtain ⟨rfl, rfl⟩ := isFor_iff.mp hfor
    have hne : c.state i ≠ .idle ∧ c.state i ≠ .error ∧ c.state i ≠ .requestSent := by
      obtain hstate | hstate := hstate <;>
        · rw [hstate]
          decide
    refine ⟨hwindow, hlinked, ?_, fun hsent => ?_⟩
    · have hentries := h.entries.write (e := { c.items i with
        data := memcpy (c.items i).data buffer (perItemSize (c.items i).item)
        state := .responseReceived }) hi hne.1 hne.2.1 rfl rfl
      rwa [take_memcpy hbuffer] at hentries
    · have hupdate : c.updateIndex ≠ i := by
        rintro rfl
        exact hne.2.2 ((h.linked.sent_iff _).mpr ⟨hsent, rfl⟩)
      dsimp only
      rw [update_of_ne hupdate]
      exact h.active hsent
  · rw [heq]
    refine { h with entries := h.entries.written fun j hj hfor => ?_ }
    have hj' : j < c.numItems := by
      by_contra hbeyond
      rw [h.entries.beyond j (by omega)] at hj
      cases hj
    exact (hnone (Nat.le_refl _) rfl j hj' (isFor_iff.mpr (hplace hfor))).1 hj

theorem invalidate : CacheInv (c.invalidate client).1 (c.invalidate client).2 v := by
  obtain ⟨hwindow, hlinked, -⟩ := h.window.invalidate
  have hidle : ∀ i, ((c.invalidate client).1.items i).state = .idle := by
    intro i
    dsimp only [DatamanCache.invalidate]
    split
    · rfl
    · exact h.entries.beyond i (by omega)
  refine ⟨hwindow, hlinked, ⟨fun i j k hi => ?_, fun i _ => hidle i, fun i hi => ?_⟩, nofun⟩
  · exact absurd (hidle i) (activeKey_eq_some hi).1
  · rw [hidle i] at hi
    cases hi

/-- The first entry of the window changes its state, and gets its data if it is to have any. -/
theorem settle (hloading : 0 < c.itemCounter) (hidle : c.state c.updateIndex ≠ .idle)
    (herror : c.state c.updateIndex ≠ .error) {data : Bytes} {state}
    (hdata : state = .responseReceived → data.take (perItemSize (c.items c.updateIndex).item) =
    v (c.items c.updateIndex).item (c.items c.updateIndex).index) :
    Entries (update c.items c.updateIndex { c.items c.updateIndex with
      data := data, state }) c.numItems v :=
  h.entries.change (h.window.update_lt (h.window.pos hloading))
    (fun _ hk => activeKey_of_ne hk hidle herror rfl rfl) hdata

variable (hv : ∀ item index, (v item index).length = perItemSize item)
include hv

/-- An entry that gets a response gets the data of its place. -/
theorem update_entries (hloading : 0 < c.itemCounter)
    (hresponse : ∀ r ∈ client.accepted response, r.status = .success →
      r.data.take (perItemSize client.activeRequest.item) =
        v client.activeRequest.item client.activeRequest.index)
    (hmove : c.UpdateMove client now response expired u) :
    Entries u.cache.items u.cache.numItems v := by
  cases hmove with
  | waits => exact h.entries
  | sends hstate =>
    exact h.settle hloading (by rw [hstate]; decide) (by rw [hstate]; decide) nofun
  | refused hstate =>
    rw [items_changeUpdateIndex, numItems_changeUpdateIndex]
    exact h.settle hloading (by rw [hstate]; decide) (by rw [hstate]; decide) nofun
  | skips =>
    rw [items_skipError, items_changeUpdateIndex, numItems_skipError, numItems_changeUpdateIndex]
    exact h.entries
  | @receives r hsent hclient hr hstatus =>
    -- the buffer of the request is that of the entry
    rw [h.active hclient] at hresponse ⊢
    rw [items_skipError, items_changeUpdateIndex, numItems_skipError, numItems_changeUpdateIndex,
      items_setState_copyTo]
    have hdata := hresponse r hr hstatus
    refine h.settle hloading (by rw [hsent]; decide) (by rw [hsent]; decide) fun _ => ?_
    rw [take_memcpy (by rw [hdata, hv]), hdata]
  | fails hsent hclient hr hstatus =>
    rw [h.active hclient, items_changeUpdateIndex,
      numItems_changeUpdateIndex, items_setState_copyTo]
    exact h.settle hloading (by rw [hsent]; decide) (by rw [hsent]; decide) nofun

theorem update (now expired) (hresponse : ∀ r ∈ client.accepted response, r.status = .success →
      r.data.take (perItemSize client.activeRequest.item) =
      v client.activeRequest.item client.activeRequest.index)
    (hcleanly : c.LeavesCleanly client response) :
    CacheInv (c.update client now response expired).cache
      (c.update client now response expired).client v := by
  by_cases hloading : 0 < c.itemCounter
  · have hmove := update_move h.window h.linked hloading now response expired
    have hsettles := hmove.settles h.window h.linked hloading (.inr hcleanly)
    refine ⟨hsettles.window, hsettles.linked, h.update_entries hv hloading hresponse hmove, ?_⟩
    generalize c.update client now response expired = r at hmove
    cases hmove with
    | waits => exact h.active
    | sends hprepared hclient hread =>
      intro _
      obtain ⟨-, rfl, -⟩ := DatamanClient.readAsync_eq_some hread
      dsimp only [setState]
      rw [update_self]
    | refused hprepared hclient | skips hreceived hclient =>
      intro hsent
      rw [hclient] at hsent
      cases hsent
    | receives | fails => exact nofun
  · rw [update_of_not_loading hloading]
    exact h

end

theorem init (numItems clientId v) : CacheInv { numItems } { clientId } v := by
  have hclient : ({ clientId } : DatamanClient).state = .idle := rfl
  obtain ⟨hwindow, hlinked, -⟩ := DatamanCache.Window.of_idle (c := { numItems }) rfl
    rfl (fun hn => Nat.pos_of_ne_zero hn) (fun _ => ⟨nofun, nofun⟩) hclient
  exact ⟨hwindow, hlinked, ⟨nofun, fun _ _ => rfl, nofun⟩, nofun⟩

end CacheInv

end Px4.Dataman
