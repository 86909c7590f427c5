import Px4.Dataman.CacheWindow

/-!
# Loading into the cache

The window of the entries that are still to be processed stays what it is for as long as no call
tears it, and then every entry is processed after finitely many calls of `update` that find an
answer.
-/

namespace Px4.Dataman

open List Nat Ring Run

namespace DatamanCache

variable {c : DatamanCache} {n : ℕ}

/-! ## Resizing -/

/-- `resize` keeps the window: nothing is to be processed, or the size stays, or the window ends
before the old end of a ring that grows, or before the new end of one that shrinks, or all that is
left is to be processed. -/
def KeepsWindow (c : DatamanCache) (n : ℕ) : Prop :=
  c.itemCounter = 0 ∨ n = 0 ∨ n = c.numItems ∨
    c.numItems < n ∧ c.updateIndex + c.itemCounter < c.numItems ∨
    n < c.numItems ∧ (c.updateIndex + c.itemCounter ≤ n ∨ ∀ i < n, c.InWindow i)

instance (c : DatamanCache) (n : ℕ) : Decidable (c.KeepsWindow n) := by
  unfold KeepsWindow
  infer_instance

variable {k n N u i : ℕ}

section

variable (h : k = 0 ∨ n = N ∨ N < n ∧ u + k < N ∨ n < N ∧ u + k ≤ n)
include h

theorem window_resize (hu : u < N) (hk : k ≤ N) (hi : i < n) :
    Ring.dist n (if u < n then u else 0) i < (if k < n then k else n) ↔
      i < N ∧ Ring.dist N u i < k := by
  unfold Ring.dist
  split_ifs <;> omega

theorem load_resize (hn : n ≠ 0) (hu : u < N) (hk : k ≤ N) :
    (if (u + k) % N < n then (u + k) % N else 0) =
      ((if u < n then u else 0) + (if k < n then k else n)) % n := by
  have hu' : (if u < n then u else 0) < n := by split_ifs <;> omega
  have hk' : (if k < n then k else n) ≤ n := by split_ifs <;> omega
  rw [add_mod hu' hk', add_mod hu hk]
  split_ifs <;> omega

end

/-- If every slot that is left belongs to the window, the window begins where it ends. -/
theorem full_resize (hlt : n < N) (hfull : ∀ i < n, Ring.dist N u i < k) (hn : n ≠ 0)
    (hu : u < N) (hk : k ≤ N) :
    n ≤ k ∧ (if (u + k) % N < n then (u + k) % N else 0) = if u < n then u else 0 := by
  have hload : (u + k) % N < n → k = N := by
    intro hload
    have hdist := hfull _ hload
    obtain hk | hk := Nat.lt_or_eq_of_le hk
    · rw [dist_add_mod hu hk] at hdist
      omega
    · exact hk
  have hprevious : u < n → u = 0 ∨ k = N := by
    intro hun
    by_cases hzero : u = 0
    · exact .inl hzero
    have hdist := hfull (u - 1) (by omega)
    unfold Ring.dist at hdist
    rw [if_neg (by omega)] at hdist
    omega
  constructor
  · have hlast := hfull (n - 1) (by omega)
    unfold Ring.dist at hlast
    split_ifs at hlast <;> omega
  · have hmod := add_mod hu hk
    split_ifs at hmod ⊢ <;> omega

variable {client : DatamanClient} {now : UInt64} {response : Option Response} {expired : Bool}
  {r : Updated}

theorem Indices.resize (h : c.Indices) (hkeeps : c.KeepsWindow n) (hn : n ≠ 0) :
    (c.resize client n true).1.Indices ∧
      ∀ i, (c.resize client n true).1.InWindow i ↔ c.InWindow i ∧ i < n := by
  obtain ⟨hle, hu, hload⟩ := h
  unfold DatamanCache.resize
  rw [if_neg hn, if_pos rfl]
  have hu' : (if c.updateIndex < n then c.updateIndex else 0) < n := by split_ifs <;> omega
  have hk' : (if c.itemCounter < n then c.itemCounter else n) ≤ n := by split_ifs <;> omega
  by_cases hN : c.numItems = 0
  · -- there was no ring
    have hzero : c.itemCounter = 0 := by omega
    rw [hN, hzero, mod_zero, Nat.add_zero] at hload
    refine ⟨⟨hk', fun _ => hu', ?_⟩, fun i => ?_⟩
    · rw [hzero, if_pos (Nat.pos_of_ne_zero hn), Nat.add_zero, Nat.mod_eq_of_lt hu', hload]
    · dsimp only [InWindow]
      rw [hzero, if_pos (Nat.pos_of_ne_zero hn)]
      omega
  · have hu := hu hN
    have hcases : (c.itemCounter = 0 ∨ n = c.numItems ∨
        c.numItems < n ∧ c.updateIndex + c.itemCounter < c.numItems ∨
        n < c.numItems ∧ c.updateIndex + c.itemCounter ≤ n) ∨
        n < c.numItems ∧ ∀ i < n, c.InWindow i := by
      obtain h | h | h | h | ⟨hlt, h | h⟩ := hkeeps
      · exact .inl (.inl h)
      · exact absurd h hn
      · exact .inl (.inr (.inl h))
      · exact .inl (.inr (.inr (.inl h)))
      · exact .inl (.inr (.inr (.inr ⟨hlt, h⟩)))
      · exact .inr ⟨hlt, h⟩
    obtain hkept | ⟨hlt, hfull⟩ := hcases
    · refine ⟨⟨hk', fun _ => hu', ?_⟩, fun i => ?_⟩
      · rw [hload, load_resize hkept hn hu hle]
      · refine ⟨fun ⟨hi, hdist⟩ => ⟨(window_resize hkept hu hle hi).mp hdist, hi⟩,
          fun ⟨hwindow, hi⟩ => ⟨hi, (window_resize hkept hu hle hi).mpr hwindow⟩⟩
    · obtain ⟨hnk, hstart⟩ := full_resize hlt (fun i hi => (hfull i hi).2) hn hu hle
      have hcounter : (if c.itemCounter < n then c.itemCounter else n) = n := if_neg (by omega)
      refine ⟨⟨hk', fun _ => hu', ?_⟩, fun i => ?_⟩
      · rw [hload, hstart, hcounter, add_mod_right, Nat.mod_eq_of_lt hu']
      · dsimp only [InWindow]
        refine ⟨fun ⟨hi, _⟩ => ⟨hfull i hi, hi⟩, fun ⟨_, hi⟩ => ⟨hi, ?_⟩⟩
        unfold Ring.dist
        split_ifs <;> omega

theorem state_kept {e : Entry} : e.kept.state =
    if e.state = .requestSent then .requestPrepared else e.state := by
  unfold Entry.kept
  split <;> rfl

theorem state_resize (hn : n ≠ 0) :
    (c.resize client n true).1.state i =
      if i < n ∧ i < c.numItems then (c.items i).kept.state else .idle := by
  unfold DatamanCache.resize DatamanCache.state
  rw [if_neg hn, if_pos rfl]
  dsimp only
  split <;> rfl

theorem Window.resize (h : c.Window) (hkeeps : c.KeepsWindow n) (hn : n ≠ 0) :
    let r := c.resize client n true
    r.1.Window ∧ r.1.Linked r.2 ∧ ∀ i, r.1.InWindow i ↔ c.InWindow i ∧ i < n := by
  obtain ⟨hindices, hwindow⟩ := h.toIndices.resize hkeeps hn
  have hsent : ∀ i, (c.resize client n true).1.state i ≠ .requestSent := by
    intro i
    rw [state_resize hn, state_kept]
    split_ifs with hi hsent
    · decide
    · exact hsent
    · decide
  refine ⟨⟨hindices, fun i hi => ?_, fun i hi => ⟨?_, hsent i⟩⟩, ⟨?_, fun i => ?_⟩, hwindow⟩
  · obtain ⟨hi, hin⟩ := (hwindow i).mp hi
    have hinside := h.inside i hi
    unfold ToProcess
    rw [state_resize hn, if_pos ⟨hin, hi.1⟩, state_kept]
    split_ifs with hsent
    · exact .inl rfl
    · exact hinside.imp_right (Or.imp_right fun h => absurd h.1 hsent)
  · rw [hwindow] at hi
    rw [state_resize hn, state_kept]
    split_ifs with hin hsent
    · exact absurd hsent (h.outside i fun hi' => hi ⟨hi', hin.1⟩).2
    · exact (h.outside i fun hi' => hi ⟨hi', hin.1⟩).1
    · decide
  · unfold DatamanCache.resize
    rw [if_neg hn]
    exact nofun
  · unfold DatamanCache.resize at hsent ⊢
    rw [if_neg hn] at hsent ⊢
    exact ⟨fun hi => absurd hi (hsent i), nofun⟩

/-! ## Progress -/

variable (c)

/-- How many calls of `update` the window takes at most: two for an entry to be requested. -/
def remaining : ℕ :=
  2 * c.itemCounter - if c.state c.updateIndex = .requestPrepared then 0 else 1

theorem remaining_le : c.remaining ≤ 2 * c.itemCounter :=
  Nat.sub_le _ _

theorem le_remaining : 2 * c.itemCounter ≤ c.remaining + 1 := by
  unfold remaining
  split <;> omega

variable {c}

theorem itemCounter_skipError : c.skipError.itemCounter ≤ c.itemCounter := by
  unfold skipError
  split
  · exact Nat.le_trans c.itemCounter_changeUpdateIndex (Nat.sub_le _ _)
  · exact Nat.le_refl _

theorem remaining_lt_of_counter_le (c : DatamanCache) {c' : DatamanCache}
    (hcounter : c'.itemCounter ≤ c.itemCounter - 1) (hloading : 0 < c.itemCounter) :
    c'.remaining + 1 ≤ c.remaining := by
  have hle := c'.remaining_le
  have hge := c.le_remaining
  omega

theorem remaining_sends (hprepared : c.state c.updateIndex = .requestPrepared)
    (hloading : 0 < c.itemCounter) :
    (c.setState c.updateIndex .requestSent).remaining + 1 ≤ c.remaining := by
  have hsent : (c.setState c.updateIndex .requestSent).state c.updateIndex ≠ .requestPrepared := by
    rw [state_setState, if_pos rfl]
    decide
  have hremaining : (c.setState c.updateIndex .requestSent).remaining = 2 * c.itemCounter - 1 :=
    congrArg (2 * c.itemCounter - ·) (if_neg hsent)
  have hremaining' : c.remaining = 2 * c.itemCounter :=
    congrArg (2 * c.itemCounter - ·) (if_pos hprepared)
  omega

/-- A call of `update` brings the end closer unless it waits for an answer. -/
theorem UpdateMove.remaining_le (hmove : UpdateMove c client now response expired r)
    (hloading : 0 < c.itemCounter) :
    r.cache.remaining + (if client.state = .requestSent ∧ client.accepted response = none then 0
      else 1) ≤ c.remaining := by
  by_cases hwaits : client.state = .requestSent ∧ client.accepted response = none
  · rw [if_pos hwaits]
    cases hmove with
    | waits => exact Nat.le_refl _
    | sends hprepared hclient | refused hprepared hclient | skips hreceived hclient =>
      rw [hclient] at hwaits
      cases hwaits.1
    | receives hsent hclient hresponse | fails hsent hclient hresponse =>
      rw [hresponse] at hwaits
      cases hwaits.2
  · rw [if_neg hwaits]
    cases hmove with
    | waits hsent hclient hresponse => exact absurd ⟨hclient, hresponse⟩ hwaits
    | sends hprepared => exact remaining_sends hprepared hloading
    | refused =>
      exact c.remaining_lt_of_counter_le
        (c.setState c.updateIndex .error).itemCounter_changeUpdateIndex hloading
    | skips =>
      exact c.remaining_lt_of_counter_le
        (Nat.le_trans itemCounter_skipError c.itemCounter_changeUpdateIndex) hloading
    | @receives r =>
      exact c.remaining_lt_of_counter_le (Nat.le_trans itemCounter_skipError
        ((c.copyTo client.activeRequest (some r.data)).setState c.updateIndex
          .responseReceived).itemCounter_changeUpdateIndex) hloading
    | @fails r =>
      exact c.remaining_lt_of_counter_le ((c.copyTo client.activeRequest (some r.data)).setState
        c.updateIndex .error).itemCounter_changeUpdateIndex hloading

end DatamanCache

open DatamanCache

/-! ## Runs -/

/-- A cache and its client, with the entries that have been queued and not yet processed. -/
structure Loader where
  cache : DatamanCache
  client : DatamanClient
  pending : List ℕ := []

/-- The calls of a cache, with what dataman answers. -/
inductive LoaderEvent where
  | load (item : DmItem) (index : ℕ)
  | loadWait (item : DmItem) (index length timeout : ℕ) (read : Option Bytes)
  | writeWait (item : DmItem) (index : ℕ) (buffer : Bytes) (length : ℕ) (written : Bool)
  | update (now : UInt64) (response : Option Response) (expired : Bool)
  | invalidate
  | resize (numItems : ℕ) (allocated : Bool)

namespace Loader

/-- A new cache; one whose memory could not be allocated has no entries. -/
def init (numItems : ℕ) (clientId : UInt8) : Loader where
  cache := { numItems }
  client := { clientId }

/-- The cache after a call that may have queued an entry at `_load_index`. -/
def queue (s : Loader) (cache : DatamanCache) : Loader :=
  { s with
    cache := cache
    pending :=
      if cache.itemCounter = s.cache.itemCounter + 1 then s.pending ++ [s.cache.loadIndex]
      else s.pending }

/-- One call. An entry is processed when `update` finds or leaves it with its data or an error. -/
def step (s : Loader) : LoaderEvent → Loader
  | .load item index => s.queue (s.cache.load item index).1
  | .loadWait item index length timeout read =>
    s.queue (s.cache.loadWait item index length timeout read).1
  | .writeWait item index buffer length written =>
    { s with cache := (s.cache.writeWait item index buffer length written).1 }
  | .update now response expired =>
    let r := s.cache.update s.client now response expired
    { cache := r.cache
      client := r.client
      pending := s.pending.filter fun i => ¬(i = s.cache.updateIndex ∧
        (r.cache.state i = .responseReceived ∨ r.cache.state i = .error)) }
  | .invalidate =>
    { cache := (s.cache.invalidate s.client).1
      client := (s.cache.invalidate s.client).2 }
  | .resize numItems allocated =>
    { cache := (s.cache.resize s.client numItems allocated).1
      client := (s.cache.resize s.client numItems allocated).2
      pending :=
        if numItems = 0 then []
        else if allocated then s.pending.filter fun i => i < numItems
        else s.pending }

/-- The call does not tear the window. -/
def KeepsWindow (s : Loader) : LoaderEvent → Prop
  | .update _ response _ => s.cache.LeavesCleanly s.client response
  | .resize numItems allocated => allocated = true → s.cache.KeepsWindow numItems
  | _ => True

instance (s : Loader) : (e : LoaderEvent) → Decidable (s.KeepsWindow e)
  | .update _ response _ => inferInstanceAs (Decidable (s.cache.LeavesCleanly s.client response))
  | .resize .. => inferInstanceAs (Decidable (_ → _))
  | .load .. | .loadWait .. | .writeWait .. | .invalidate =>
    isTrue trivial

structure UpdateCall where
  now : UInt64
  response : Option Response
  expired : Bool

def UpdateCall.event (u : UpdateCall) : LoaderEvent := .update u.now u.response u.expired

/-- The call of `update` looks for an answer and does not find it. -/
def Waits (s : Loader) (u : UpdateCall) : Prop :=
  s.client.state = .requestSent ∧ s.client.accepted u.response = none
deriving Decidable

/-- How many of the calls of `update` do not wait. -/
def answered : Loader → List UpdateCall → ℕ
  | _, [] => 0
  | s, u :: us => (if s.Waits u then 0 else 1) + answered (s.step u.event) us

/-- While the cache is loading: the entry at `_update_index` is not idle, the `_item_counter`
entries from there on are those that are not processed, `_load_index` is behind them, and enough
calls of `update` that do not wait end the loading. -/
def NeverStalls (s : Loader) : Prop :=
  s.cache.isLoading →
    s.cache.state s.cache.updateIndex ≠ .idle ∧
    (∀ i, i ∈ s.pending ↔
      ∃ k < s.cache.itemCounter, i = (s.cache.updateIndex + k) % s.cache.numItems) ∧
    s.cache.loadIndex = (s.cache.updateIndex + s.cache.itemCounter) % s.cache.numItems ∧
    ∀ us : List UpdateCall, 2 * s.cache.itemCounter ≤ s.answered us →
      (after step s (us.map UpdateCall.event)).cache.isLoading = false

structure Inv (s : Loader) : Prop where
  window : s.cache.Window
  linked : s.cache.Linked s.client
  pending : ∀ i, i ∈ s.pending ↔ s.cache.InWindow i

variable {s : Loader}

section

variable (h : s.Inv)
include h

variable {e : Entry}

theorem Inv.enqueue (hroom : s.cache.itemCounter < s.cache.numItems)
    (he : e.state = .requestPrepared ∨ e.state = .responseReceived) :
    (s.queue (s.cache.enqueue e)).Inv where
  window := h.window.enqueue hroom he
  linked := h.linked.enqueue h.window hroom he
  pending i := by
    have hpending : (s.queue (s.cache.enqueue e)).pending = s.pending ++ [s.cache.loadIndex] :=
      if_pos rfl
    rw [hpending, mem_append, mem_singleton, h.pending]
    exact (h.window.inWindow_enqueue hroom e i).symm

theorem Inv.queue_self : (s.queue s.cache).Inv where
  __ := h
  pending i := by
    have hpending : (s.queue s.cache).pending = s.pending := if_neg (ne_add_one _)
    rw [hpending]
    exact h.pending i

theorem Inv.writeWait (item index buffer length written) :
    (s.step (.writeWait item index buffer length written)).Inv := by
  obtain ⟨hindices, hchange⟩ := s.cache.writeWait_received item index buffer length written
  refine ⟨h.window.of_received hindices hchange, h.linked.of_received hindices hchange, fun i => ?_⟩
  unfold Loader.step
  dsimp only
  rw [hindices]
  exact h.pending i

theorem Inv.update (u : UpdateCall)
    (hcleanly : 0 < (s.step u.event).cache.itemCounter ∨
      s.cache.LeavesCleanly s.client u.response) : (s.step u.event).Inv := by
  unfold Loader.step UpdateCall.event at hcleanly ⊢
  dsimp only at hcleanly ⊢
  by_cases hloading : 0 < s.cache.itemCounter
  · have hmove := update_move h.window h.linked hloading u.now u.response u.expired
    have hsettles := hmove.settles h.window h.linked hloading hcleanly
    refine ⟨hsettles.window, hsettles.linked, fun i => ?_⟩
    rw [hsettles.inWindow, mem_filter, decide_eq_true_iff, h.pending]
  · rw [update_of_not_loading hloading]
    refine ⟨h.window, h.linked, fun i => ?_⟩
    have hempty : ¬s.cache.InWindow i := fun hi => hloading (zero_lt_of_lt hi.2)
    rw [mem_filter, h.pending]
    exact ⟨fun hi => absurd hi.1 hempty, fun hi => absurd hi hempty⟩

theorem Inv.resize (numItems : ℕ) (allocated : Bool)
    (hkeeps : allocated → s.cache.KeepsWindow numItems) :
    (s.step (.resize numItems allocated)).Inv := by
  unfold Loader.step
  dsimp only
  by_cases hzero : numItems = 0
  · have hresize : s.cache.resize s.client numItems allocated =
        ({ numItems := 0 }, s.client.abortCurrentOperation) := if_pos hzero
    have hidle : DatamanCache.Window { numItems := 0 } ∧
        DatamanCache.Linked { numItems := 0 } s.client.abortCurrentOperation ∧
        ∀ i, ¬DatamanCache.InWindow { numItems := 0 } i :=
      DatamanCache.Window.of_idle rfl rfl (absurd rfl) (fun _ => ⟨nofun, nofun⟩) rfl
    rw [hresize, if_pos hzero]
    exact ⟨hidle.1, hidle.2.1, fun i => ⟨nofun, fun hi => absurd hi (hidle.2.2 i)⟩⟩
  · rw [if_neg hzero]
    cases allocated with
    | false =>
      have hresize : s.cache.resize s.client numItems false = (s.cache, s.client) := if_neg hzero
      rw [hresize]
      exact h
    | true =>
      obtain ⟨hwindow, hlinked, hmem⟩ := h.window.resize (hkeeps rfl) hzero
      refine ⟨hwindow, hlinked, fun i => ?_⟩
      rw [hmem, if_pos rfl, mem_filter, h.pending, decide_eq_true_iff]

theorem Inv.step (e : LoaderEvent) (hkeeps : s.KeepsWindow e) : (s.step e).Inv := by
  cases e with
  | load item index =>
    unfold Loader.step
    dsimp only
    obtain ⟨e, hroom, heq, hstate, -⟩ | heq := s.cache.load_cases item index
    · rw [heq]
      exact h.enqueue hroom (.inl hstate)
    · rw [heq]
      exact h.queue_self
  | loadWait item index length timeout read =>
    unfold Loader.step
    dsimp only
    obtain ⟨buffer, -, hroom, heq, -⟩ | heq :=
      s.cache.loadWait_cases item index length timeout read
    · rw [heq]
      exact h.enqueue hroom (.inr rfl)
    · rw [heq]
      exact h.queue_self
  | writeWait item index buffer length written => exact h.writeWait item index buffer length written
  | update now response expired => exact h.update ⟨now, response, expired⟩ (.inr hkeeps)
  | invalidate =>
    obtain ⟨hwindow, hlinked, hempty⟩ := h.window.invalidate
    exact ⟨hwindow, hlinked, fun i => ⟨nofun, fun hi => absurd hi (hempty i)⟩⟩
  | resize numItems allocated => exact h.resize numItems allocated hkeeps

end

theorem inv_init (numItems clientId) : (init numItems clientId).Inv := by
  have hidle : (init numItems clientId).cache.Window ∧
      (init numItems clientId).cache.Linked (init numItems clientId).client ∧
      ∀ i, ¬(init numItems clientId).cache.InWindow i :=
    DatamanCache.Window.of_idle rfl rfl (fun hn => Nat.pos_of_ne_zero hn)
      (fun _ => ⟨nofun, nofun⟩) rfl
  exact ⟨hidle.1, hidle.2.1, fun i => ⟨nofun, fun hi => absurd hi (hidle.2.2 i)⟩⟩

theorem after_updates_of_not_loading (hloading : s.cache.itemCounter = 0) (us : List UpdateCall) :
    (after step s (us.map UpdateCall.event)).cache.itemCounter = 0 := by
  induction us generalizing s with
  | nil => exact hloading
  | cons u us ih =>
    apply ih
    unfold step UpdateCall.event
    dsimp only
    rw [update_of_not_loading (by omega)]
    exact hloading

/-- Calls of `update` end the loading when enough of them find an answer. -/
theorem Inv.progress (h : s.Inv) (us : List UpdateCall)
    (hanswered : s.cache.remaining ≤ s.answered us) :
    (after Loader.step s (us.map UpdateCall.event)).cache.itemCounter = 0 := by
  induction us generalizing s with
  | nil =>
    have hge := s.cache.le_remaining
    have hzero : s.cache.remaining = 0 := le_zero.mp hanswered
    rw [map_nil, after_nil]
    omega
  | cons u us ih =>
    by_cases hloading : 0 < s.cache.itemCounter
    · have hmove := update_move h.window h.linked hloading u.now u.response u.expired
      have hremaining := hmove.remaining_le hloading
      by_cases hloading' : 0 < (s.step u.event).cache.itemCounter
      · refine ih (h.update u (.inl hloading')) ?_
        change s.cache.remaining ≤ (if s.Waits u then 0 else 1) + _ at hanswered
        change (s.step u.event).cache.remaining + (if s.Waits u then 0 else 1) ≤ _ at hremaining
        omega
      · exact after_updates_of_not_loading (by omega) us
    · exact after_updates_of_not_loading (by omega) (u :: us)

theorem Inv.neverStalls (h : s.Inv) : s.NeverStalls := by
  intro hloading
  have hloading : 0 < s.cache.itemCounter := of_decide_eq_true hloading
  have hu := h.window.update_lt (h.window.pos hloading)
  refine ⟨fun hidle => ?_, fun i => ?_, h.window.load_eq, fun us hanswered => ?_⟩
  · obtain hstate | hstate | ⟨hstate, -⟩ := h.window.inside _ (h.window.head hloading) <;>
      · rw [hidle] at hstate
        cases hstate
  · rw [h.pending, exists_offset_iff hu h.window.counter_le]
    exact Iff.rfl
  · have hend := h.progress us (Nat.le_trans s.cache.remaining_le hanswered)
    unfold isLoading
    rw [hend]
    rfl

/-- In every run of a cache in which no call tears the window of the entries that are still to be
processed: while the cache is loading, it has an entry to work on, the three numbers describe the
entries that are not processed, and calls of `update` that find answers end the loading. -/
theorem cache_never_stalls (numItems : ℕ) (clientId : UInt8) (events : List LoaderEvent)
    (hkeeps : Run.Along step KeepsWindow (init numItems clientId) events) :
    Run.Always step NeverStalls (init numItems clientId) events :=
  always_of_invariant (fun _ e h hkeeps => h.step e hkeeps) (fun _ h => h.neverStalls)
    (inv_init numItems clientId) hkeeps

/-- An entry is queued and requested, and the answer comes. -/
def loadOne (index : ℕ) (status : Status) : List LoaderEvent :=
  [.load .waypointsOffboard0 index, .update 0 none false,
    .update 0 (some ⟨1, .read, .waypointsOffboard0, index, status, padded []⟩) false]

theorem cache_never_stalls_resized :
    Run.Always step NeverStalls (init 2 1)
      (loadOne 0 .success ++ [.resize 3 true] ++ loadOne 1 .failureReadFailed ++
        [.load .waypointsOffboard0 2, .load .waypointsOffboard0 3, .update 0 none true]) :=
  cache_never_stalls 2 1 _ (by decide +kernel)

/-- The ring grows before its last entry is processed, and `update` waits at an idle entry. -/
def tornByResize : List LoaderEvent :=
  loadOne 0 .success ++ [.load .waypointsOffboard0 1, .resize 3 true,
    .load .waypointsOffboard0 2, .update 0 none false,
    .update 0 (some ⟨1, .read, .waypointsOffboard0, 1, .success, padded []⟩) false]

/-- The last entry is processed, and the next one has an error from its last use. -/
def tornByError : List LoaderEvent :=
  loadOne 0 .failureReadFailed ++ loadOne 1 .success ++ [.load .waypointsOffboard0 2]

/-- After `tornByResize` the cache is loading and waits at an idle entry. After `tornByError` the
entry to process is the first one, the window has the second one, and the next call of `update`
ends the loading without a request for the first one. -/
theorem cache_stalls :
    ((after step (init 2 1) tornByResize).cache.isLoading = true ∧
      (after step (init 2 1) tornByResize).cache.state
        (after step (init 2 1) tornByResize).cache.updateIndex = .idle) ∧
    (after step (init 2 1) tornByError).cache.isLoading = true ∧
    (after step (init 2 1) tornByError).pending = [0] ∧
    (after step (init 2 1) tornByError).cache.updateIndex = 1 ∧
    (after step (init 2 1) (tornByError ++ [.update 0 none false])).cache.isLoading = false ∧
    (after step (init 2 1) (tornByError ++ [.update 0 none false])).cache.state 0 =
      .requestPrepared := by
  decide +kernel

end Loader

end Px4.Dataman
