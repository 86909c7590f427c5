import Mathlib.Data.Fintype.Basic
import Px4.Common.Run

/-!
# The work queue manager

`platforms/common/px4_work_queue/WorkQueueManager.cpp`: a thread that needs a work queue looks for
its name in the list, hands its configuration to the manager if there is none, and looks again every
millisecond. The manager creates a thread for each configuration, which puts its queue into the
list. The queue of configurations has one place.

A search and an insertion hold the mutex of the list, and are one step each. A work queue is named
by the number of its thread. The manager runs all the time, and no queue is stopped.
-/

namespace Px4.WorkQueue

open List Option

structure WqConfig where
  name : String
  stacksize : UInt16
  relativePriority : Int8
deriving DecidableEq

structure WorkQueueNode where
  thread : ℕ
  config : WqConfig
deriving DecidableEq

def WorkQueueNode.getName (wq : WorkQueueNode) : String := wq.config.name

/-- `operator<=`: higher priorities first. -/
def WorkQueueNode.le (wq rhs : WorkQueueNode) : Bool :=
  wq.config.relativePriority ≥ rhs.config.relativePriority

/-- `IntrusiveSortedList::add`. -/
def addSorted (newNode : WorkQueueNode) : List WorkQueueNode → List WorkQueueNode
  | [] => [newNode]
  | node :: rest =>
    if newNode.le node then newNode :: node :: rest else node :: addSorted newNode rest

/-- `10_s` in steps of `1_ms`. -/
def maxPolls : ℕ := 10000

/-- The place of a thread in `WorkQueueFindOrCreate`: what it does next. -/
inductive CallerPlace where
  | idle
  /-- the first search -/
  | find (newWq : WqConfig)
  | push (newWq : WqConfig)
  /-- the search after a sleep, with the number of searches before it -/
  | poll (newWq : WqConfig) (polls : ℕ)
deriving DecidableEq

/-- The place of the manager in the loop of `WorkQueueManagerRun`. -/
inductive ManagerPlace where
  | pop
  | create (wq : WqConfig)

/-- What a call of `WorkQueueFindOrCreate` has returned. -/
structure Found where
  name : String
  result : Option ℕ
deriving DecidableEq

structure WorkQueueManager (T : Type) where
  wqsList : List WorkQueueNode := []
  createQueue : Option WqConfig := none
  manager : ManagerPlace := .pop
  /-- the configurations of the threads that have been created -/
  threads : List WqConfig := []
  places : T → CallerPlace := fun _ => .idle
  found : List Found := []

namespace WorkQueueManager

variable {T : Type} [DecidableEq T] (s : WorkQueueManager T)

def findWorkQueueByName (name : String) : Option ℕ :=
  (s.wqsList.find? fun wq => wq.getName = name).map (·.thread)

def goTo (t : T) (place : CallerPlace) : WorkQueueManager T :=
  { s with places := Function.update s.places t place }

def finish (t : T) (name : String) (result : Option ℕ) : WorkQueueManager T :=
  { s.goTo t .idle with found := s.found ++ [⟨name, result⟩] }

/-- The next step of `WorkQueueFindOrCreate`. -/
def advance (t : T) : WorkQueueManager T :=
  match s.places t with
  | .idle => s
  | .find newWq =>
    if (s.findWorkQueueByName newWq.name).isSome then
      s.finish t newWq.name (s.findWorkQueueByName newWq.name)
    else s.goTo t (.push newWq)
  | .push newWq =>
    if s.createQueue.isNone then { s.goTo t (.poll newWq 0) with createQueue := some newWq } else s
  | .poll newWq polls =>
    if (s.findWorkQueueByName newWq.name).isSome || polls + 1 ≥ maxPolls then
      s.finish t newWq.name (s.findWorkQueueByName newWq.name)
    else s.goTo t (.poll newWq (polls + 1))

/-- The next step of the manager, and whether the thread could be created. -/
def manage (created : Bool) : WorkQueueManager T :=
  match s.manager with
  | .pop =>
    match s.createQueue with
    | none => s
    | some wq => { s with createQueue := none, manager := .create wq }
  | .create wq =>
    if created then { s with threads := s.threads ++ [wq], manager := .pop }
    else { s with manager := .pop }

/-- `WorkQueueRunner` of a thread that has been created, up to `Run`. -/
def runner (thread : ℕ) : WorkQueueManager T :=
  match s.threads[thread]? with
  | none => s
  | some config =>
    if s.wqsList.any fun wq => wq.thread = thread then s
    else { s with wqsList := addSorted ⟨thread, config⟩ s.wqsList }

inductive Event (T : Type) where
  /-- a thread calls `WorkQueueFindOrCreate` -/
  | call (t : T) (newWq : WqConfig)
  | advance (t : T)
  | manage (created : Bool)
  | runner (thread : ℕ)

def step : Event T → WorkQueueManager T
  | .call t newWq => if s.places t = .idle then s.goTo t (.find newWq) else s
  | .advance t => s.advance t
  | .manage created => s.manage created
  | .runner thread => s.runner thread

def after (es : List (Event T)) : WorkQueueManager T := Run.after step {} es

end WorkQueueManager

/-! ## A configuration on its way -/

theorem perm_addSorted (newNode nodes) : (addSorted newNode nodes).Perm (newNode :: nodes) := by
  induction nodes with
  | nil => exact .refl _
  | cons node rest ih =>
    rw [addSorted]
    split
    · exact .refl _
    · exact (ih.cons node).trans (.swap newNode node rest)

/-- The name of the queue that the thread waits for. -/
def CallerPlace.waitsFor : CallerPlace → Option String
  | .push newWq | .poll newWq _ => some newWq.name
  | _ => none

/-- The name that the first search of a call is for. -/
def CallerPlace.firstSearch : CallerPlace → Option String
  | .find newWq => some newWq.name
  | _ => none

/-- The name that the last search of a call is for, before it gives up. -/
def CallerPlace.lastPoll : CallerPlace → Option String
  | .poll newWq polls => if polls + 1 ≥ maxPolls then some newWq.name else none
  | _ => none

def ManagerPlace.config : ManagerPlace → Option WqConfig
  | .create wq => some wq
  | .pop => none

namespace WorkQueueManager

variable {T : Type} [DecidableEq T] {s : WorkQueueManager T}

variable (s)

/-- The configurations handed over and not dropped, the oldest ones first. -/
def handedOver : List WqConfig :=
  s.threads ++ s.manager.config.toList ++ s.createQueue.toList

/-- A call waits for its queue as long as it takes. -/
def InTime : Event T → Prop
  | .advance t => ∀ name ∈ (s.places t).lastPoll, (s.findWorkQueueByName name).isSome = true
  | _ => True

/-- When a call finds no queue of a name, no other one is waiting for the same name. -/
def Alone : Event T → Prop
  | .advance t => ∀ name ∈ (s.places t).firstSearch, (s.findWorkQueueByName name).isNone = true →
      ∀ u, (s.places u).waitsFor ≠ some name
  | _ => True

instance (s : WorkQueueManager T) : (e : Event T) → Decidable (InTime s e)
  | .advance _ => inferInstanceAs (Decidable (∀ name ∈ _, _))
  | .call .. | .manage _ | .runner _ => isTrue trivial

instance [Fintype T] (s : WorkQueueManager T) : (e : Event T) → Decidable (Alone s e)
  | .advance _ => inferInstanceAs (Decidable (∀ name ∈ _, _))
  | .call .. | .manage _ | .runner _ => isTrue trivial

/-- There is one configuration for a name on its way, and one thread waits until it is listed. -/
structure Inv (s : WorkQueueManager T) : Prop where
  distinct : (s.handedOver.map (·.name)).Nodup
  threads : (s.wqsList.map (·.thread)).Nodup
  config : ∀ wq ∈ s.wqsList, s.threads[wq.thread]? = some wq.config
  waiting : ∀ t u name, (s.places t).waitsFor = some name → (s.places u).waitsFor = some name →
    t = u
  unsent : ∀ t newWq, s.places t = .push newWq → newWq.name ∉ s.handedOver.map (·.name)
  awaited : ∀ name ∈ s.handedOver.map (·.name),
    (s.findWorkQueueByName name).isSome = true ∨ ∃ t, (s.places t).waitsFor = some name
  found : ∀ f ∈ s.found, ∃ thread config, f.result = some thread ∧
    s.threads[thread]? = some config ∧ config.name = f.name

variable {s}

variable {name : String} {u t : T} {place : CallerPlace} {newWq : WqConfig} {e : Event T}

omit [DecidableEq T] in
theorem findWorkQueueByName_isSome_iff :
    (s.findWorkQueueByName name).isSome ↔ ∃ wq ∈ s.wqsList, wq.getName = name := by
  rw [findWorkQueueByName, isSome_map, find?_isSome]
  simp

omit [DecidableEq T] in
theorem Inv.search (h : Inv s) (hsome : (s.findWorkQueueByName name).isSome) :
    ∃ thread config, s.findWorkQueueByName name = some thread ∧
      s.threads[thread]? = some config ∧ config.name = name := by
  rw [findWorkQueueByName, isSome_map] at hsome
  obtain ⟨wq, hwq⟩ := isSome_iff_exists.mp hsome
  have hname : wq.getName = name := by simpa using find?_some hwq
  refine ⟨wq.thread, wq.config, ?_, h.config wq (mem_of_find?_eq_some hwq), hname⟩
  rw [findWorkQueueByName, hwq, map_some]

/-! ## Steps of a call -/

theorem places_goTo_self (t place) : (s.goTo t place).places t = place :=
  Function.update_self ..

theorem places_goTo_other (place) (h : u ≠ t) : (s.goTo t place).places u = s.places u :=
  Function.update_of_ne h ..

/-- A call goes on: it waits for a name if no other does, until the queue is there. -/
theorem Inv.goTo (h : Inv s)
    (halone : ∀ name, place.waitsFor = some name → ∀ u ≠ t, (s.places u).waitsFor ≠ some name)
    (hunsent : ∀ newWq, place = .push newWq → newWq.name ∉ s.handedOver.map (·.name))
    (hstop : ∀ name, (s.places t).waitsFor = some name → place.waitsFor = some name ∨
      (s.findWorkQueueByName name).isSome) : Inv (s.goTo t place) where
  __ := h
  waiting u v name hu hv := by
    by_cases hut : u = t <;> by_cases hvt : v = t
    · rw [hut, hvt]
    · rw [hut, places_goTo_self] at hu
      rw [places_goTo_other _ hvt] at hv
      exact absurd hv (halone name hu v hvt)
    · rw [hvt, places_goTo_self] at hv
      rw [places_goTo_other _ hut] at hu
      exact absurd hu (halone name hv u hut)
    · rw [places_goTo_other _ hut] at hu
      rw [places_goTo_other _ hvt] at hv
      exact h.waiting u v name hu hv
  unsent u newWq hu := by
    by_cases hut : u = t
    · rw [hut, places_goTo_self] at hu
      exact hunsent newWq hu
    · rw [places_goTo_other _ hut] at hu
      exact h.unsent u newWq hu
  awaited name hname := by
    rcases h.awaited name hname with hfound | ⟨u, hu⟩
    · exact .inl hfound
    by_cases hut : u = t
    · rw [hut] at hu
      rcases hstop name hu with hwaits | hfound
      · exact .inr ⟨t, by rwa [places_goTo_self]⟩
      · exact .inl hfound
    · exact .inr ⟨u, by rwa [places_goTo_other _ hut]⟩

theorem Inv.finish (h : Inv s) (hsome : (s.findWorkQueueByName name).isSome)
    (hplace : ∀ n, (s.places t).waitsFor = some n → n = name) :
    Inv (s.finish t name (s.findWorkQueueByName name)) := by
  have hidle : Inv (s.goTo t .idle) := h.goTo (fun _ hw => by cases hw) (fun _ hp => by cases hp)
    fun n hn => .inr (hplace n hn ▸ hsome)
  refine { hidle with found := fun f hf => ?_ }
  rcases mem_append.mp hf with hf | hf
  · exact h.found f hf
  · rw [mem_singleton.mp hf]
    exact h.search hsome

/-- The configuration of a call is handed over to the manager. -/
theorem Inv.push (h : Inv s) (hplace : s.places t = .push newWq) (hfree : s.createQueue = none) :
    Inv { s.goTo t (.poll newWq 0) with createQueue := some newWq } := by
  have hwaits : (s.places t).waitsFor = some newWq.name := by rw [hplace]; rfl
  have hgo : Inv (s.goTo t (.poll newWq 0)) := by
    refine h.goTo (fun name hname u hu hother => ?_) (fun _ hp => by cases hp) fun name hname => ?_
    · exact hu (h.waiting u t name hother (hwaits.trans hname))
    · exact .inl (hwaits.symm.trans hname)
  have hself : ((s.goTo t (.poll newWq 0)).places t).waitsFor = some newWq.name := by
    rw [places_goTo_self]
    rfl
  have hover : handedOver { s.goTo t (.poll newWq 0) with createQueue := some newWq } =
      s.handedOver ++ [newWq] := by
    simp [handedOver, hfree, WorkQueueManager.goTo]
  refine { hgo with
    distinct := ?_
    unsent := fun u other hu => ?_
    awaited := fun name hname => ?_ }
  · rw [hover, map_append, map_singleton]
    exact nodup_append.mpr ⟨h.distinct, nodup_singleton _, fun a ha b hb heq =>
      h.unsent t newWq hplace (mem_singleton.mp hb ▸ heq ▸ ha)⟩
  · rw [hover, map_append, map_singleton, mem_append, mem_singleton]
    rintro (hmem | heq)
    · exact hgo.unsent u other hu hmem
    -- two calls do not wait for the same name
    have hut : u = t := hgo.waiting u t newWq.name (by rw [← heq]; exact congrArg _ hu) hself
    rw [hut, places_goTo_self] at hu
    cases hu
  · rw [hover, map_append, map_singleton, mem_append, mem_singleton] at hname
    rcases hname with hmem | rfl
    · exact hgo.awaited name hmem
    · exact .inr ⟨t, hself⟩

theorem Inv.advance (h : Inv s) (hintime : InTime s (.advance t))
    (halone : Alone s (.advance t)) : Inv (s.advance t) := by
  rw [WorkQueueManager.advance]
  cases hplace : s.places t with
  | idle => exact h
  | find newWq =>
    dsimp only
    split
    · next hsome => exact h.finish hsome fun n hn => by rw [hplace] at hn; cases hn
    next hnone =>
    have hnone' : (s.findWorkQueueByName newWq.name).isNone := by simpa using hnone
    have hnobody := halone newWq.name (by rw [hplace]; rfl) hnone'
    refine h.goTo (fun name hname u _ => ?_) (fun wq hwq hmem => ?_) fun name hname => ?_
    · obtain rfl := some.inj hname
      exact hnobody u
    · cases hwq
      rcases h.awaited newWq.name hmem with hfound | ⟨u, hu⟩
      · exact hnone hfound
      · exact hnobody u hu
    · rw [hplace] at hname
      cases hname
  | push newWq =>
    dsimp only
    split
    · next hfree => exact h.push hplace (isNone_iff_eq_none.mp hfree)
    · exact h
  | poll newWq polls =>
    dsimp only
    have hwaits : (s.places t).waitsFor = some newWq.name := by rw [hplace]; rfl
    split
    · next hend =>
      have hsome : (s.findWorkQueueByName newWq.name).isSome := by
        rcases Bool.or_eq_true_iff.mp hend with hsome | hlast
        · exact hsome
        · exact hintime newWq.name (by rw [hplace]; exact if_pos (of_decide_eq_true hlast))
      exact h.finish hsome fun n hn => (some.inj (hwaits.symm.trans hn)).symm
    · refine h.goTo (fun name hname u hu hother => ?_) (fun _ hp => by cases hp)
        fun name hname => ?_
      · exact hu (h.waiting u t name hother (hwaits.trans hname))
      · exact .inl (hwaits.symm.trans hname)

/-! ## Steps of the manager and of the queues -/

omit [DecidableEq T] in
/-- A configuration goes on its way or is dropped; threads that are there keep their numbers. -/
theorem Inv.handOver {s'} (h : Inv s) (hlist : s'.wqsList = s.wqsList)
    (hplaces : s'.places = s.places) (hfound : s'.found = s.found)
    (hover : s'.handedOver.Sublist s.handedOver)
    (hthreads : ∀ (k : ℕ) config, s.threads[k]? = some config → s'.threads[k]? = some config) :
    Inv s' where
  distinct := h.distinct.sublist (hover.map _)
  threads := hlist ▸ h.threads
  config wq hwq := hthreads _ _ (h.config wq (hlist ▸ hwq))
  waiting := hplaces ▸ h.waiting
  unsent t newWq ht hmem := h.unsent t newWq (hplaces ▸ ht) ((hover.map _).subset hmem)
  awaited name hname := by
    rw [hplaces, findWorkQueueByName, hlist]
    exact h.awaited name ((hover.map _).subset hname)
  found f hf := by
    obtain ⟨thread, config, hresult, hthread, hname⟩ := h.found f (hfound ▸ hf)
    exact ⟨thread, config, hresult, hthreads _ _ hthread, hname⟩

omit [DecidableEq T] in
theorem Inv.manage (h : Inv s) (created) : Inv (s.manage created) := by
  rw [WorkQueueManager.manage]
  split
  · next hmanager =>
    split
    · exact h
    · next wq hqueue =>
      refine h.handOver rfl rfl rfl ?_ fun _ _ hk => hk
      simp [handedOver, hmanager, hqueue, ManagerPlace.config]
  · next wq hmanager =>
    split
    · refine h.handOver rfl rfl rfl ?_ fun k config hk => ?_
      · simp [handedOver, hmanager, ManagerPlace.config]
      · obtain ⟨hlt, _⟩ := List.getElem?_eq_some_iff.mp hk
        rw [List.getElem?_append_left hlt, hk]
    · refine h.handOver rfl rfl rfl ?_ fun _ _ hk => hk
      simp [handedOver, hmanager, ManagerPlace.config]

omit [DecidableEq T] in
/-- A new thread puts its queue into the list. -/
theorem Inv.runner (h : Inv s) (thread) : Inv (s.runner thread) := by
  rw [WorkQueueManager.runner]
  split
  · exact h
  next config hconfig =>
  split
  · exact h
  next hnew =>
  have hperm := perm_addSorted ⟨thread, config⟩ s.wqsList
  refine { h with threads := ?_, config := fun wq hwq => ?_, awaited := fun name hname => ?_ }
  · refine (hperm.map _).nodup_iff.mpr (nodup_cons.mpr ⟨fun hmem => hnew ?_, h.threads⟩)
    obtain ⟨wq, hwq, heq⟩ := mem_map.mp hmem
    exact any_eq_true.mpr ⟨wq, hwq, decide_eq_true heq⟩
  · rcases mem_cons.mp (hperm.mem_iff.mp hwq) with rfl | hwq
    · exact hconfig
    · exact h.config wq hwq
  · refine (h.awaited name hname).imp_left fun hfound => ?_
    obtain ⟨wq, hwq, hname⟩ := findWorkQueueByName_isSome_iff.mp hfound
    exact findWorkQueueByName_isSome_iff.mpr
      ⟨wq, hperm.mem_iff.mpr (mem_cons_of_mem _ hwq), hname⟩

theorem Inv.step (h : Inv s) (he : InTime s e ∧ Alone s e) : Inv (s.step e) := by
  cases e with
  | call t newWq =>
    rw [WorkQueueManager.step]
    split
    · next hidle =>
      exact h.goTo (fun _ hw => by cases hw) (fun _ hp => by cases hp)
        fun name hname => by rw [hidle] at hname; cases hname
    · exact h
  | advance t => exact h.advance he.1 he.2
  | manage created => exact h.manage created
  | runner thread => exact h.runner thread

/-! ## Runs -/

omit [DecidableEq T] in
theorem inv_start : Inv ({} : WorkQueueManager T) where
  distinct := nodup_nil
  threads := nodup_nil
  config _ hwq := absurd hwq not_mem_nil
  waiting _ _ _ ht := by cases ht
  unsent _ _ ht := by cases ht
  awaited _ hname := absurd hname not_mem_nil
  found _ hf := absurd hf not_mem_nil

omit [DecidableEq T] in
/-- Threads with configurations of the same name are the same one. -/
theorem Inv.thread_inj (h : Inv s) {j k : ℕ} {c d} (hj : s.threads[j]? = some c)
    (hk : s.threads[k]? = some d) (hname : c.name = d.name) : j = k := by
  have hnodup : (s.threads.map (·.name)).Nodup := by
    refine h.distinct.sublist (List.Sublist.map _ ?_)
    exact (sublist_append_left _ _).trans (sublist_append_left _ _)
  obtain ⟨hlt, _⟩ := List.getElem?_eq_some_iff.mp hj
  refine (List.getElem?_inj (by rwa [length_map]) hnodup).mp ?_
  rw [List.getElem?_map, List.getElem?_map, hj, hk, map_some, map_some, hname]

omit [DecidableEq T] in
theorem Inv.names (h : Inv s) : (s.wqsList.map (·.getName)).Nodup := by
  refine (nodup_map_iff_inj_on h.threads.of_map).mpr fun wq hwq wq' hwq' hname => ?_
  have hthread : wq.thread = wq'.thread := h.thread_inj (h.config wq hwq) (h.config wq' hwq') hname
  exact inj_on_of_nodup_map h.threads hwq hwq' hthread

/-- There is one queue of a name, and all calls with the name return it, if no call starts to wait
for a name that another one is waiting for. -/
theorem one_queue_per_name (es : List (Event T))
    (h : Run.Along step (fun s e => InTime s e ∧ Alone s e) {} es) :
    ((after es).wqsList.map (·.getName)).Nodup ∧
    ∀ f ∈ (after es).found, ∀ f' ∈ (after es).found, f.name = f'.name →
      f.result.isSome = true ∧ f.result = f'.result := by
  have hinv : Inv (after es) := Run.after_of_invariant (fun _ _ hs he => hs.step he) inv_start h
  refine ⟨hinv.names, fun f hf f' hf' hname => ?_⟩
  obtain ⟨j, c, hresult, hj, hc⟩ := hinv.found f hf
  obtain ⟨k, d, hresult', hk, hd⟩ := hinv.found f' hf'
  have hjk : j = k := hinv.thread_inj hj hk (hc.trans (hname.trans hd.symm))
  exact ⟨by rw [hresult]; rfl, by rw [hresult, hresult', hjk]⟩

def rateCtrl : WqConfig := ⟨"wq:rate_ctrl", 3150, 0⟩

/-- The first thread has the queue created, the second one finds it. -/
def oneAfterTheOther : List (Event Bool) :=
  [.call false rateCtrl, .advance false, .advance false, .manage true, .manage true, .runner 0,
    .advance false, .call true rateCtrl, .advance true]

theorem one_queue_per_name_oneAfterTheOther :
    ((after oneAfterTheOther).wqsList.map (·.getName)).Nodup ∧
    ∀ f ∈ (after oneAfterTheOther).found, ∀ f' ∈ (after oneAfterTheOther).found,
      f.name = f'.name → f.result.isSome = true ∧ f.result = f'.result :=
  one_queue_per_name oneAfterTheOther (by decide +kernel)

/-- Both threads look for the queue before one of them hands over its configuration. -/
def bothAtOnce : List (Event Bool) :=
  [.call false rateCtrl, .call true rateCtrl, .advance false, .advance true, .advance false,
    .manage true, .manage true, .runner 0, .advance false, .advance true, .manage true,
    .manage true, .runner 1, .advance true]

/-- Two threads that need the same queue at the same time get two of them. -/
theorem two_queues_of_one_name :
    Run.Along step InTime {} bothAtOnce ∧
    (after bothAtOnce).wqsList = [⟨1, rateCtrl⟩, ⟨0, rateCtrl⟩] ∧
    (after bothAtOnce).found = [⟨"wq:rate_ctrl", some 0⟩, ⟨"wq:rate_ctrl", some 1⟩] := by
  decide +kernel

end WorkQueueManager

end Px4.WorkQueue
