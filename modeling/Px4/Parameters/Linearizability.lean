import Px4.Common.Run
import Px4.Parameters.LayerMap

/-!
# Linearizability of the sparse parameter layer

Threads run `store`, `contains`, `get`, `reset` and `size` in any interleaving that the mutex
allows. An operation takes effect on the map of the layer in the step in which it returns.

The invariant is about ownership of the heap: an array that a thread has allocated and not yet
published, or unlinked and not yet freed, belongs to that thread and is not the current one.
-/

namespace Px4.Parameters

open Function Option

variable {T V : Type*} [DecidableEq T] [Inhabited V]

/-- The parameter of the operation, if it has one, is a parameter index. -/
def Op.Below (paramCount : ParamT) : Op V → Prop
  | .store param _ => param < paramCount
  | .contains param => param < paramCount
  | .get _ param => param < paramCount
  | .reset param => param < paramCount
  | .size => True

/-- Every operation that is called is about a parameter index. -/
def LayerEvent.Below (paramCount : ParamT) : LayerEvent T V → Prop
  | .call _ op => op.Below paramCount
  | _ => True

/-! ## The specification -/

/-- The sequential specification: what an operation may return and do; only `store` may fail. -/
def Spec (m : ParamT → Option V) : Op V → Result V → (ParamT → Option V) → Prop
  | .store param value, .bool true, m' => m' = update m param (some value)
  | .store _ _, .bool false, m' => m' = m
  | .contains param, .bool b, m' => b = (m param).isSome ∧ m' = m
  | .get parent param, .value v, m' => v = (m param).getD (parent param) ∧ m' = m
  | .reset param, .unit, m' => m' = update m param none
  | .size, .nat n, m' => n = {param | (m param).isSome}.ncard ∧ m' = m
  | _, _, _ => False

/-- What a step may do to the map, given the operation that it completes. -/
def Effect (m : ParamT → Option V) (m' : ParamT → Option V) : Option (Op V × Result V) → Prop
  | none => m' = m
  | some (op, result) => Spec m op result m'

/-- A sequential history of completed operations, from the map `m` to the map `m'`. -/
inductive Legal : (ParamT → Option V) → List (Op V × Result V) → (ParamT → Option V) → Prop
  | nil (m) : Legal m [] m
  | cons {m m' m'' op result history} (hspec : Spec m op result m')
      (hrest : Legal m' history m'') : Legal m ((op, result) :: history) m''

/-- The operation sets or removes the parameter. -/
def Writes (param : ParamT) : Op V × Result V → Prop
  | (.store p _, .bool true) => p = param
  | (.reset p, _) => p = param
  | _ => False

/-- The table as the class comment describes it. -/
structure Layer.Consistent (l : Layer V) : Prop where
  live : l.heap l.slots = some l.buffer
  length_eq : l.buffer.length = l.nSlots
  ascending : (l.buffer.take l.nextSlot).Pairwise (·.param < ·.param)
  used : ∀ s ∈ l.buffer.take l.nextSlot, s.param ≠ paramUnused
  nextSlot_le : l.nextSlot ≤ l.nSlots
  rest_unused : ∀ s ∈ l.buffer.drop l.nextSlot, s = .unused

namespace System

/-- The operations that complete in a run, in order. -/
def history (qsort : Qsort V) : System T V → List (LayerEvent T V) → List (Op V × Result V)
  | _, [] => []
  | s, e :: es => (s.exec qsort e).2.toList ++ history qsort (s.step qsort e) es

/-- A step that copies the table copies `_n_slots` slots into an array of `_n_grow` more, unknown to
other threads. -/
def CopyExact (s : System T V) : LayerEvent T V → Prop
  | .lock t => ∀ param value n a, s.threads t = .allocated param value n (some a) →
      s.layer.nSlots = n → a ≠ s.layer.slots ∧
        ∃ new, s.layer.heap a = some new ∧ new.length - s.layer.nGrow = s.layer.nSlots ∧
          s.layer.nGrow ≤ new.length
  | _ => True

/-- What every step of a run satisfies. -/
structure Correct (qsort : Qsort V) (s : System T V) (e : LayerEvent T V) : Prop where
  before : s.layer.Consistent
  after : (s.step qsort e).layer.Consistent
  copyExact : s.CopyExact e
  effect : Effect s.layer.map (s.step qsort e).layer.map (s.exec qsort e).2

end System

/-! ## The invariant -/

/-- The array that belongs to a thread. -/
def Thread.owned : Thread V → Option Addr
  | .allocated _ _ _ newSlots => newSlots
  | .free _ _ previousSlots => some previousSlots
  | _ => none

/-- What a thread relies on while it does not hold the mutex. -/
def Thread.Valid (l : Layer V) : Thread V → Prop
  | .idle => True
  | .malloc param _ _ => param ≠ paramUnused
  | .allocated param _ n newSlots => param ≠ paramUnused ∧
      ∀ a, newSlots = some a → a ≠ l.slots ∧ ∃ new, l.heap a = some new ∧ new.length = n + l.nGrow
  | .free param _ previousSlots => param ≠ paramUnused ∧
      previousSlots ≠ l.slots ∧ l.heap previousSlots ≠ none
  | .freed param _ => param ≠ paramUnused

omit [Inhabited V] in
theorem Thread.Valid.congr {l l' : Layer V} {th : Thread V} (h : th.Valid l)
    (hgrow : l'.nGrow = l.nGrow)
    (hheap : ∀ a, th.owned = some a → a ≠ l'.slots ∧ l'.heap a = l.heap a) : th.Valid l' := by
  cases th with
  | allocated param value n newSlots =>
    refine ⟨h.1, fun a ha => ?_⟩
    obtain ⟨hne, heq⟩ := hheap a ha
    exact ⟨hne, by rw [heq, hgrow]; exact (h.2 a ha).2⟩
  | free param value previousSlots =>
    obtain ⟨hne, heq⟩ := hheap previousSlots rfl
    exact ⟨h.1, hne, by rw [heq]; exact h.2.2⟩
  | _ => exact h

omit [Inhabited V] in
/-- The array of a thread is on the heap and is not the current one. -/
theorem Thread.Valid.owned_live {l : Layer V} {th : Thread V} (h : th.Valid l) {a : Addr}
    (ha : th.owned = some a) : a ≠ l.slots ∧ l.heap a ≠ none := by
  cases th with
  | allocated param value n newSlots =>
    obtain ⟨hne, new, hnew, -⟩ := h.2 a ha
    exact ⟨hne, by rw [hnew]; exact some_ne_none new⟩
  | free param value previousSlots =>
    obtain rfl : previousSlots = a := some.inj ha
    exact h.2
  | _ => cases ha

namespace System

structure Inv (s : System T V) : Prop where
  wf : s.layer.WellFormed
  valid : ∀ t, (s.threads t).Valid s.layer
  distinct : ∀ t u a, t ≠ u → (s.threads t).owned = some a → (s.threads u).owned ≠ some a

/-- A layer that thread `t` may leave behind, as far as the other threads are concerned. -/
structure Compatible (s : System T V) (t : T) (layer : Layer V) : Prop where
  wf : layer.WellFormed
  nGrow_eq : layer.nGrow = s.layer.nGrow
  others : ∀ u, u ≠ t → ∀ a, (s.threads u).owned = some a →
    a ≠ layer.slots ∧ layer.heap a = s.layer.heap a

variable {s : System T V} {t : T} {layer : Layer V} {param : ParamT}

omit [DecidableEq T] in
theorem Inv.compatible_self (h : s.Inv) (t : T) : s.Compatible t s.layer :=
  ⟨h.wf, rfl, fun u _ _ ha => ⟨((h.valid u).owned_live ha).1, rfl⟩⟩

omit [DecidableEq T] in
theorem Compatible.frame {layer'} (h : s.Compatible t layer) (hwf : layer'.WellFormed)
    (hframe : layer.Frame layer') : s.Compatible t layer' := by
  refine ⟨hwf, hframe.nGrow_eq.trans h.nGrow_eq, fun u hu a ha => ?_⟩
  obtain ⟨hne, heq⟩ := h.others u hu a ha
  exact ⟨by rwa [hframe.slots_eq], by rw [hframe.heap_eq a hne, heq]⟩

variable {thread : Thread V} {op : Op V} {paramCount : ParamT} {value : V} {n nPrealloc : ℕ}
  {a addr : Addr} {newSlots : Option Addr} {e : LayerEvent T V} {nGrow : ℤ}

/-- The step rule: thread `t` moves and leaves a compatible layer. -/
theorem Inv.go (h : s.Inv) (hlayer : s.Compatible t layer) (hthread : thread.Valid layer)
    (hfresh : ∀ a, thread.owned = some a → ∀ u, u ≠ t → (s.threads u).owned ≠ some a) :
    (s.go t layer thread).Inv := by
  refine ⟨hlayer.wf, fun u => ?_, fun u w a huw hu hw => ?_⟩
  · by_cases hu : u = t
    · subst hu
      simpa [System.go] using hthread
    · simp only [System.go, update_of_ne hu]
      exact (h.valid u).congr hlayer.nGrow_eq (hlayer.others u hu)
  · simp only [System.go, update_apply] at hu hw
    split_ifs at hu hw with hut hwt hwt
    · exact huw (hut.trans hwt.symm)
    · exact hfresh a hu w hwt hw
    · exact hfresh a hw u hut hu
    · exact h.distinct u w a huw hu hw

theorem Inv.go_of_owned_eq_none (h : s.Inv) (hlayer : s.Compatible t layer)
    (hthread : thread.Valid layer) (hnone : thread.owned = none) : (s.go t layer thread).Inv :=
  h.go hlayer hthread fun a ha => by rw [hnone] at ha; cases ha

/-! ## The steps -/

/-- What a step has to establish. -/
structure StepOk (s : System T V) (r : System T V × Option (Op V × Result V)) : Prop where
  inv : r.1.Inv
  effect : Effect s.layer.map r.1.layer.map r.2

theorem Inv.storeLoop (h : s.Inv) (qsort) (hlayer : s.Compatible t layer)
    (hmap : layer.map = s.layer.map) (hp : param ≠ paramUnused) (value) :
    s.StepOk (s.storeLoop qsort t layer param value) := by
  rw [System.storeLoop]
  rcases hlayer.wf.tryStore_spec qsort hp value with ⟨l', heq, hwf, hframe, hmap'⟩ | ⟨heq, -⟩
  · rw [heq]
    refine ⟨h.go_of_owned_eq_none (hlayer.frame hwf hframe) trivial rfl, ?_⟩
    change l'.map = _
    rw [hmap', hmap]
  · rw [heq]
    split_ifs
    · exact ⟨h.go_of_owned_eq_none hlayer trivial rfl, hmap⟩
    · exact ⟨h.go_of_owned_eq_none hlayer hp rfl, hmap⟩

theorem Inv.growLoop (h : s.Inv) (qsort) (hlayer : s.Compatible t layer)
    (hmap : layer.map = s.layer.map) (hp : param ≠ paramUnused) (value) :
    s.StepOk (s.growLoop qsort t layer param value) := by
  rw [System.growLoop]
  split_ifs
  · exact ⟨h.go_of_owned_eq_none hlayer hp rfl, hmap⟩
  · exact h.storeLoop qsort hlayer hmap hp value

omit [DecidableEq T] in
theorem Inv.stay (h : s.Inv) : s.StepOk (s, none) :=
  ⟨h, rfl⟩

theorem Inv.call (h : s.Inv) (qsort : Qsort V) (t : T) (hop : op.Below paramCount) :
    s.StepOk (s.call qsort t op) := by
  have hused : ∀ param : ParamT, param < paramCount → param ≠ paramUnused := by
    rintro param hlt rfl
    have hle : paramCount.toNat ≤ 65535 := Nat.le_of_lt_succ paramCount.toNat_lt
    exact absurd (UInt16.lt_iff_toNat_lt.mp hlt) (Nat.not_lt.mpr hle)
  cases op with
  | store param value => exact h.storeLoop qsort (h.compatible_self t) rfl (hused _ hop) value
  | contains param => exact ⟨h, h.wf.contains_eq (hused _ hop), rfl⟩
  | get parent param => exact ⟨h, h.wf.get_eq (hused _ hop), rfl⟩
  | reset param =>
    obtain ⟨hwf, hframe, hmap⟩ := h.wf.reset_spec qsort (hused _ hop)
    -- the thread stays where it is, which is the same as going there
    have hgo : s.go t (s.layer.reset qsort param) (s.threads t)
        = { s with layer := s.layer.reset qsort param } := by
      rw [System.go, update_eq_self]
    refine ⟨?_, hmap⟩
    change ({ s with layer := s.layer.reset qsort param } : System T V).Inv
    rw [← hgo]
    have hcompat := (h.compatible_self t).frame hwf hframe
    refine h.go hcompat ((h.valid t).congr hcompat.nGrow_eq fun a ha => ?_) fun a ha u hu => ?_
    · have hne := ((h.valid t).owned_live ha).1
      exact ⟨by rwa [hframe.slots_eq], hframe.heap_eq a hne⟩
    · exact h.distinct t u a (Ne.symm hu) ha
  | size => exact ⟨h, h.wf.ncard_map.symm, rfl⟩

theorem Inv.malloc (h : s.Inv) (hp : param ≠ paramUnused) (value : V) (n result) :
    s.StepOk (s.malloc t param value n result, none) := by
  rcases result with _ | ⟨addr, contents⟩
  · refine ⟨h.go_of_owned_eq_none (h.compatible_self t) ⟨hp, ?_⟩ rfl, rfl⟩
    exact fun a ha => nomatch ha
  simp only [System.malloc]
  split_ifs with hfree
  · -- a free address is neither the current array nor that of another thread
    have hslots : s.layer.slots ≠ addr := by
      rintro rfl
      exact some_ne_none _ (h.wf.live.symm.trans hfree)
    have howned : ∀ u, (s.threads u).owned ≠ some addr :=
      fun u hu => ((h.valid u).owned_live hu).2 hfree
    obtain ⟨hwf, hmap⟩ := h.wf.congr_heap { s.layer with
      heap := update s.layer.heap addr
        (some ((List.range (n + s.layer.nGrow)).map contents)) } rfl rfl rfl
      (update_of_ne hslots _ _)
    refine ⟨h.go ⟨hwf, rfl, fun u _ a ha => ?_⟩ ⟨hp, ?_⟩ ?_, hmap⟩
    · have hne : a ≠ addr := by
        rintro rfl
        exact howned u ha
      exact ⟨((h.valid u).owned_live ha).1, update_of_ne hne _ _⟩
    · rintro a ⟨⟩
      exact ⟨Ne.symm hslots, _, update_self .., by simp⟩
    · rintro a ⟨⟩ u -
      exact howned u
  · exact h.stay

omit [DecidableEq T] in
theorem Inv.free_compatible (h : s.Inv) {a : Addr} (ha : (s.threads t).owned = some a) :
    s.Compatible t (s.layer.free a) ∧ (s.layer.free a).map = s.layer.map := by
  have hne := ((h.valid t).owned_live ha).1
  obtain ⟨hwf, hmap⟩ := h.wf.congr_heap (s.layer.free a) rfl rfl rfl
    (update_of_ne (Ne.symm hne) _ _)
  refine ⟨⟨hwf, rfl, fun u hu b hb => ⟨((h.valid u).owned_live hb).1, ?_⟩⟩, hmap⟩
  refine update_of_ne ?_ _ _
  rintro rfl
  exact h.distinct t u b (Ne.symm hu) ha hb

/-- Publishing the array that thread `t` has allocated hands it the old one. -/
theorem Inv.publish (h : s.Inv) (ht : s.threads t = .allocated param value n (some a))
    (hn : s.layer.nSlots = n) :
    s.StepOk (s.go t (s.layer.publish a) (.free param value s.layer.slots), none) := by
  have hvalid := h.valid t
  rw [ht] at hvalid
  obtain ⟨hne, new, hnew, hlen⟩ := hvalid.2 a rfl
  obtain ⟨hwf, hmap⟩ := h.wf.publish_spec hnew (hn ▸ hlen)
  have hheap : ∀ b, b ≠ a → (s.layer.publish a).heap b = s.layer.heap b :=
    fun b hb => update_of_ne hb _ _
  refine ⟨h.go ⟨hwf, rfl, fun u hu b hb => ?_⟩ ⟨hvalid.1, Ne.symm hne, ?_⟩ ?_, hmap⟩
  · have hba : b ≠ a := by
      rintro rfl
      exact h.distinct t u b (Ne.symm hu) (by rw [ht]; rfl) hb
    exact ⟨hba, hheap b hba⟩
  · rw [hheap _ (Ne.symm hne), h.wf.live]
    exact some_ne_none _
  · rintro b ⟨⟩ u - hb
    exact ((h.valid u).owned_live hb).1 rfl

theorem Inv.lockAfterMalloc (h : s.Inv) (qsort)
    (ht : s.threads t = .allocated param value n newSlots) :
    s.StepOk (s.lockAfterMalloc qsort t param value n newSlots) := by
  have hp : param ≠ paramUnused := by
    have hvalid := h.valid t
    rw [ht] at hvalid
    exact hvalid.1
  cases newSlots with
  | none => exact ⟨h.go_of_owned_eq_none (h.compatible_self t) trivial rfl, rfl⟩
  | some a =>
    rw [System.lockAfterMalloc]
    split_ifs with hn
    · obtain ⟨hcompat, hmap⟩ := h.free_compatible (by rw [ht]; rfl)
      exact h.growLoop qsort hcompat hmap hp value
    · exact h.publish ht (not_not.mp hn)

/-- Every step keeps the invariant and has its effect on the map. -/
theorem Inv.exec (h : s.Inv) (qsort) (he : e.Below paramCount) : s.StepOk (s.exec qsort e) := by
  cases e with
  | call t op =>
    rw [System.exec]
    split
    · exact h.call qsort t he
    · exact h.stay
  | malloc t result =>
    rw [System.exec]
    split
    next param value n ht =>
      have hp := h.valid t
      rw [ht] at hp
      exact h.malloc hp value n result
    · exact h.stay
  | lock t =>
    rw [System.exec]
    split
    next param value n newSlots ht => exact h.lockAfterMalloc qsort ht
    next param value ht =>
      have hp := h.valid t
      rw [ht] at hp
      exact h.growLoop qsort (h.compatible_self t) rfl hp value
    · exact h.stay
  | free t =>
    rw [System.exec]
    split
    next param value previousSlots ht =>
      have hp := h.valid t
      rw [ht] at hp
      obtain ⟨hcompat, hmap⟩ := h.free_compatible (by rw [ht]; rfl)
      exact ⟨h.go_of_owned_eq_none hcompat hp.1 rfl, hmap⟩
    · exact h.stay

/-! ## Runs -/

omit [DecidableEq T] in
theorem init_inv :
    (init nPrealloc nGrow addr : System T V).Inv :=
  ⟨Layer.construct_spec.1, fun _ => trivial, fun _ _ _ _ h => nomatch h⟩

end System

theorem Layer.WellFormed.consistent {l : Layer V} (h : l.WellFormed) : l.Consistent where
  live := h.live
  length_eq := h.length_eq
  ascending := by
    rw [h.take_eq]
    exact h.packed.strictly_ascending.imp UInt16.lt_iff_toNat_lt.mpr
  used := by
    intro s hs hunused
    rw [h.take_eq, PackedTable.mem_used] at hs
    exact hs.2 (Slot.key_eq_unused_iff.mpr hunused)
  nextSlot_le := h.nextSlot_le
  rest_unused := by
    intro s hs
    rw [h.packed.drop_eq Slot.key_le_unused] at hs
    exact (List.mem_replicate.mp hs).2

namespace System

variable {qsort : Qsort V} {e : LayerEvent T V} {paramCount : ParamT} {s : System T V}

theorem Inv.correct {s : System T V} (h : s.Inv) (he : e.Below paramCount) :
    s.Correct qsort e where
  before := h.wf.consistent
  after := (h.exec qsort he).inv.wf.consistent
  copyExact := by
    cases e with
    | lock t =>
      intro param value n a ht hn
      have hvalid := h.valid t
      rw [ht] at hvalid
      obtain ⟨hne, new, hnew, hlen⟩ := hvalid.2 a rfl
      exact ⟨hne, new, hnew, by omega, by omega⟩
    | _ => trivial
  effect := (h.exec qsort he).effect

/-- Operations that each take effect in the step that completes them make a legal history. -/
theorem legal_history {es : List (LayerEvent T V)}
    (h : Run.Along (step qsort) (fun s e =>
      Effect s.layer.map (s.step qsort e).layer.map (s.exec qsort e).2) s es) :
    Legal s.layer.map (s.history qsort es) (Run.after (step qsort) s es).layer.map := by
  induction es generalizing s with
  | nil => exact .nil _
  | cons e es ih =>
    have heffect : Effect s.layer.map (s.step qsort e).layer.map (s.exec qsort e).2 := h.1
    have hrest := ih h.2
    rw [history]
    cases hres : (s.exec qsort e).2 with
    | none =>
      rw [hres] at heffect
      rw [← (heffect : _ = _)]
      simpa using hrest
    | some r =>
      rw [hres] at heffect
      exact .cons heffect hrest

end System

/-! ## Histories -/

variable {param : ParamT} {m m' m'' : ParamT → Option V} {h₁ h₂ history : List (Op V × Result V)}

omit [Inhabited V] in
theorem Legal.append :
    Legal m (h₁ ++ h₂) m'' → ∃ m', Legal m h₁ m' ∧ Legal m' h₂ m'' := by
  induction h₁ generalizing m with
  | nil => exact fun h => ⟨m, .nil m, h⟩
  | cons r h₁ ih =>
    rintro (_ | ⟨hspec, hrest⟩)
    obtain ⟨m', h1, h2⟩ := ih hrest
    exact ⟨m', .cons hspec h1, h2⟩

omit [Inhabited V] in
theorem Spec.map_eq_of_not_writes {op : Op V} {result : Result V} (h : Spec m op result m')
    (hw : ¬ Writes param (op, result)) : m' param = m param := by
  cases op with
  | store p value =>
    cases result with
    | bool b =>
      cases b with
      | false => exact congrFun h param
      | true => rw [(h : m' = _), update_of_ne (Ne.symm hw)]
    | _ => cases h
  | contains p => cases result with
    | bool b => exact congrFun h.2 param
    | _ => cases h
  | get parent p => cases result with
    | value v => exact congrFun h.2 param
    | _ => cases h
  | reset p => cases result with
    | unit => rw [(h : m' = _), update_of_ne (Ne.symm hw)]
    | _ => cases h
  | size => cases result with
    | nat n => exact congrFun h.2 param
    | _ => cases h

omit [Inhabited V] in
theorem Legal.map_eq_of_not_writes (h : Legal m history m')
    (hw : ∀ r ∈ history, ¬ Writes param r) : m' param = m param := by
  induction h with
  | nil => rfl
  | cons hspec _ ih =>
    rw [ih fun r hr => hw r (List.mem_cons_of_mem _ hr),
      hspec.map_eq_of_not_writes (hw _ (List.mem_cons_self ..))]

omit [Inhabited V] in
/-- A value that was stored is what later `get`s return, until the parameter is written again. -/
theorem Legal.get_after_store {before between after : List (Op V × Result V)} {value v : V}
    {parent : ParamT → V}
    (h : Legal m (before ++ (.store param value, .bool true) :: between
      ++ (.get parent param, .value v) :: after) m') (hw : ∀ r ∈ between, ¬ Writes param r) :
    v = value := by
  obtain ⟨m₃, h₁, h₂⟩ := Legal.append h
  obtain ⟨m₁, -, h₁⟩ := Legal.append h₁
  rcases h₁ with _ | ⟨hstore, hbetween⟩
  rcases h₂ with _ | ⟨hget, -⟩
  have hval := hbetween.map_eq_of_not_writes hw
  rw [(hstore : _ = _), update_self] at hval
  rw [hget.1, hval, getD_some]

/-- **The sparse layer is a linearizable map.** For any number of threads, any interleaving and any
behaviour of `malloc`, the table is consistent in every state, every operation takes effect on the
map in the step in which it returns and no other step changes the map; so the operations in the
order of their completion are a sequential history of a map that starts empty. -/
theorem sparse_layer_linearizable (qsort : Qsort V) (nPrealloc : ℕ) (nGrow : ℤ) (addr : Addr)
    (paramCount : ParamT) (es : List (LayerEvent T V)) (hes : ∀ e ∈ es, e.Below paramCount) :
    let s₀ : System T V := .init nPrealloc nGrow addr
    Run.Along (System.step qsort) (System.Correct qsort) s₀ es ∧
    Legal (fun _ => none) (s₀.history qsort es) (Run.after (System.step qsort) s₀ es).layer.map ∧
    ∀ before between after param value parent v,
      s₀.history qsort es = before ++ (.store param value, .bool true) :: between
        ++ (.get parent param, .value v) :: after →
      (∀ r ∈ between, ¬ Writes param r) → v = value := by
  intro s₀
  have hbelow : Run.Along (System.step qsort) (fun _ e => e.Below paramCount) s₀ es :=
    Run.along_of_forall hes
  have hcorrect : Run.Along (System.step qsort) (System.Correct qsort) s₀ es :=
    Run.along_of_invariant (fun s e hs he => (hs.exec qsort he).inv)
      (fun s e hs he => hs.correct he) System.init_inv hbelow
  have hlegal := System.legal_history (hcorrect.imp fun s e h => h.effect)
  refine ⟨hcorrect, hlegal, fun before between after param value parent v hhist hw => ?_⟩
  rw [hhist] at hlegal
  exact hlegal.get_after_store hw

/-- Two threads grow a full layer at the same time. The second one loses the race, discards its
array and takes the last slot, so the first one grows again and is given the address that it has
just freed. -/
def growRace : List (LayerEvent Bool ℕ) :=
  [.call true (.store 7 70), .call true (.store 3 30), .call false (.store 5 50),
    .malloc true (some (1, fun _ => .unused)), .malloc false (some (2, fun _ => .unused)),
    .lock true, .lock false, .free true, .lock true,
    .malloc true (some (0, fun _ => .unused)), .lock true, .free true, .lock true,
    .call false (.get (fun _ => 0) 3)]

theorem sparse_layer_linearizable_grow_race :
    Run.Along (System.step (.insertion ℕ)) (System.Correct (.insertion ℕ)) (.init 1 1 0)
      growRace ∧
    (Run.after (System.step (.insertion ℕ)) (.init 1 1 0) growRace).layer.buffer
      = [⟨3, 30⟩, ⟨5, 50⟩, ⟨7, 70⟩] :=
  ⟨(sparse_layer_linearizable (.insertion ℕ) 1 1 0 100 growRace
      (by simp [growRace, LayerEvent.Below, Op.Below])).1, by decide⟩

/-- **No array is shared or used after it was freed**: in every interleaving the array behind
`_slots` is on the heap, and an array that a thread is going to publish or to free is on the heap
too, is not the one behind `_slots` and belongs to no other thread. -/
theorem arrays_owned_once (qsort : Qsort V) (nPrealloc : ℕ) (nGrow : ℤ) (addr : Addr)
    (paramCount : ParamT) (es : List (LayerEvent T V)) (hes : ∀ e ∈ es, e.Below paramCount) :
    let s : System T V := Run.after (System.step qsort) (.init nPrealloc nGrow addr) es
    s.layer.heap s.layer.slots ≠ none ∧
    ∀ t a, (s.threads t).owned = some a →
      s.layer.heap a ≠ none ∧ a ≠ s.layer.slots ∧ ∀ u, u ≠ t → (s.threads u).owned ≠ some a := by
  have hinv : (Run.after (System.step qsort) (.init nPrealloc nGrow addr) es).Inv :=
    Run.after_of_invariant (fun s e hs he => (hs.exec qsort he).inv) System.init_inv
      (Run.along_of_forall hes)
  refine ⟨by simp [hinv.wf.live], fun t a ha => ?_⟩
  obtain ⟨hne, hlive⟩ := (hinv.valid t).owned_live ha
  exact ⟨hlive, hne, fun u hu => hinv.distinct t u a (Ne.symm hu) ha⟩

/-- Both threads have allocated an array and not yet locked the mutex again. -/
theorem arrays_owned_once_grow_race :
    let s := Run.after (System.step (.insertion ℕ)) (.init 1 1 0) (growRace.take 5)
    (s.threads true).owned = some 1 ∧ (s.threads false).owned = some 2 ∧
      s.layer.heap 1 ≠ none ∧ 1 ≠ s.layer.slots :=
  have howned := (arrays_owned_once (.insertion ℕ) 1 1 0 100 (growRace.take 5)
    (by simp [growRace, LayerEvent.Below, Op.Below])).2 true 1 (by decide)
  ⟨by decide, by decide, howned.1, howned.2.1⟩

end Px4.Parameters
