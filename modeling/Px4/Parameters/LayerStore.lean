import Px4.Common.Run
import Px4.Parameters.LayerMap

/-!
# The sparse layer in one thread

Where only one thread uses a layer, `store` with its loops is one function.
-/

namespace Px4.Parameters

open Function

variable {V : Type*} [Inhabited V]

/-- `malloc` of a new array: an address that is not in use, with what the memory holds. -/
structure Allocator (V : Type*) where
  malloc : Layer V → Option (Addr × (ℕ → Slot V))
  fresh : ∀ l addr contents, malloc l = some (addr, contents) → l.heap addr = none

/-- An allocator with room for one array, at the given address. -/
def Allocator.single (V : Type*) [Inhabited V] (addr : Addr) : Allocator V where
  malloc l :=
    match l.heap addr with
    | none => some (addr, fun _ => .unused)
    | some _ => none
  fresh l _ _ h := by
    split at h
    · cases h
      assumption
    · cases h

namespace Layer

variable (qsort : Qsort V) (alloc : Allocator V)

/-- A new array as `malloc` returns it. -/
def withArray (l : Layer V) (addr : Addr) (contents : ℕ → Slot V) : Layer V :=
  { l with
    heap := update l.heap addr (some ((List.range (l.nSlots + l.nGrow)).map contents)) }

def grow (l : Layer V) : Option (Layer V) :=
  if l.nSlots = 0 then none
  else
    match alloc.malloc l with
    | none => none
    | some (addr, contents) => some (((l.withArray addr contents).publish addr).free l.slots)

/-- `store`, with what it returns. -/
def store (l : Layer V) (param : ParamT) (value : V) : Layer V × Bool :=
  match l.tryStore qsort param value with
  | some l => (l, true)
  | none =>
    match l.grow alloc with
    | none => (l, false)
    | some l =>
      match l.tryStore qsort param value with
      | some l => (l, true)
      | none => (l, false)

def containedAsBitset (l : Layer V) (param : ParamT) : Bool :=
  (l.buffer.take l.nextSlot).any (·.param = param)

/-- The invariant of a layer, with a positive increment and an address that is not in use. -/
structure Ready (l : Layer V) : Prop where
  wf : l.WellFormed
  nGrow_pos : 0 < l.nGrow
  spare : ∃ addr, l.heap addr = none

variable {qsort alloc} {l l' : Layer V} {param : ParamT}

theorem Ready.of_frame (h : l.Ready) (hwf : l'.WellFormed) (hframe : l.Frame l') : l'.Ready := by
  refine ⟨hwf, hframe.nGrow_eq ▸ h.nGrow_pos, ?_⟩
  obtain ⟨addr, hfree⟩ := h.spare
  have hne : addr ≠ l.slots := by
    rintro rfl
    rw [h.wf.live] at hfree
    cases hfree
  exact ⟨addr, (hframe.heap_eq addr hne).trans hfree⟩

theorem Ready.grow (h : l.Ready) (hgrow : l.grow alloc = some l') :
    l'.Ready ∧ l'.map = l.map ∧ l'.nextSlot = l.nextSlot ∧ l'.nSlots = l.nSlots + l.nGrow := by
  unfold Layer.grow at hgrow
  split at hgrow
  · cases hgrow
  split at hgrow
  · cases hgrow
  next addr contents hmalloc =>
    cases hgrow
    have hfresh := alloc.fresh _ _ _ hmalloc
    have hne : l.slots ≠ addr := by
      intro heq
      rw [← heq, h.wf.live] at hfresh
      cases hfresh
    obtain ⟨hwf, hmap⟩ := h.wf.congr_heap (l.withArray addr contents) rfl rfl rfl
      (update_of_ne hne _ _)
    obtain ⟨hwf, hmap'⟩ := hwf.publish_spec (update_self ..)
      (by rw [List.length_map, List.length_range]; rfl)
    obtain ⟨hwf, hmap''⟩ := hwf.congr_heap
      (((l.withArray addr contents).publish addr).free l.slots) rfl rfl rfl
      (update_of_ne hne.symm _ _)
    exact ⟨⟨hwf, h.nGrow_pos, l.slots, update_self ..⟩, (hmap''.trans hmap').trans hmap, rfl, rfl⟩

theorem Ready.store (h : l.Ready) (qsort alloc) (hp : param ≠ paramUnused) (value) :
    ∃ l' stored, l.store qsort alloc param value = (l', stored) ∧ l'.Ready ∧
      l.nSlots ≤ l'.nSlots ∧
      l'.map = if stored then update l.map param (some value) else l.map := by
  unfold Layer.store
  rcases h.wf.tryStore_spec qsort hp value with ⟨l₁, heq, hwf, hframe, hmap⟩ | ⟨heq, -⟩
  · rw [heq]
    exact ⟨l₁, true, rfl, h.of_frame hwf hframe, hframe.nSlots_eq.ge, hmap⟩
  rw [heq]
  cases hgrow : l.grow alloc with
  | none => exact ⟨l, false, rfl, h, le_rfl, rfl⟩
  | some l₁ =>
    obtain ⟨h₁, hmap₁, -, hslots⟩ := h.grow hgrow
    have hle : l.nSlots ≤ l₁.nSlots := hslots ▸ Nat.le_add_right _ _
    dsimp only
    rcases h₁.wf.tryStore_spec qsort hp value with ⟨l₂, heq₂, hwf, hframe, hmap⟩ | ⟨heq₂, -⟩
    · rw [heq₂]
      refine ⟨l₂, true, rfl, h₁.of_frame hwf hframe, ?_, ?_⟩
      · rw [hframe.nSlots_eq]
        exact hle
      · rw [hmap, hmap₁]
        rfl
    · rw [heq₂]
      exact ⟨l₁, false, rfl, h₁, hle, hmap₁⟩

theorem tryStore_isSome_iff (l : Layer V) (qsort param value) :
    (l.tryStore qsort param value).isSome ↔ l.contains param ∨ l.nextSlot < l.nSlots := by
  by_cases hstored : l.getIndex param < l.nextSlot
  · simp [tryStore, contains, hstored]
  · by_cases hroom : l.nextSlot < l.nSlots
    · simp [tryStore, contains, hstored]
    · simp [tryStore, contains, hstored]

theorem grow_isSome_iff : (l.grow alloc).isSome ↔ 0 < l.nSlots ∧ (alloc.malloc l).isSome := by
  unfold Layer.grow
  split_ifs with hslots
  · simp [hslots]
  · cases alloc.malloc l with
    | none => simp
    | some new => simp [Nat.pos_of_ne_zero hslots]

/-- Room for a parameter: it is stored, the array is not full, or a larger one can be had. -/
def HasRoom (alloc : Allocator V) (l : Layer V) (param : ParamT) : Prop :=
  l.contains param ∨ l.nextSlot < l.nSlots ∨ (0 < l.nSlots ∧ (alloc.malloc l).isSome)

variable {value : V}

theorem Ready.store_iff (h : l.Ready) :
    (l.store qsort alloc param value).2 ↔ l.HasRoom alloc param := by
  have htry := l.tryStore_isSome_iff qsort param value
  unfold Layer.store HasRoom
  rw [← or_assoc, ← htry, ← grow_isSome_iff]
  cases l.tryStore qsort param value with
  | some l₁ => simp
  | none =>
    cases hgrow : l.grow alloc with
    | none => simp
    | some l₁ =>
      -- the larger array has an unused slot
      obtain ⟨-, -, hnext, hslots⟩ := h.grow hgrow
      have hroom : (l₁.tryStore qsort param value).isSome := by
        rw [tryStore_isSome_iff]
        have := h.wf.nextSlot_le
        have := h.nGrow_pos
        exact .inr (by omega)
      obtain ⟨l₂, heq⟩ := Option.isSome_iff_exists.mp hroom
      simp [heq]

theorem Ready.construct (nPrealloc nGrow addr) :
    (construct nPrealloc nGrow addr : Layer V).Ready := by
  refine ⟨construct_spec.1, ?_, addr + 1, ?_⟩
  · unfold Layer.construct
    dsimp only
    split <;> omega
  · exact update_of_ne (Nat.succ_ne_self addr) (some _) fun _ => none

theorem Ready.reset (h : l.Ready) (qsort) (hp : param ≠ paramUnused) :
    (l.reset qsort param).Ready ∧ (l.reset qsort param).nSlots = l.nSlots ∧
      (l.reset qsort param).map = update l.map param none := by
  obtain ⟨hwf, hframe, hmap⟩ := h.wf.reset_spec qsort hp
  exact ⟨h.of_frame hwf hframe, hframe.nSlots_eq, hmap⟩

end Layer

variable {T : Type*} {param : ParamT} {l : Layer V}

open Parameters.System in
/-- `store` is the run of a thread that nobody disturbs: it calls `store`, and if the array is full
`malloc` returns, the mutex is locked, the old array is freed and the mutex is locked again. -/
theorem Layer.Ready.store_eq_run [DecidableEq T] (h : l.Ready) (qsort : Qsort V)
    (alloc : Allocator V) (hp : param ≠ paramUnused) (value : V) (t : T) :
    (Run.after (System.step qsort) { layer := l, threads := fun _ => .idle }
      [.call t (.store param value), .malloc t (alloc.malloc l), .lock t, .free t,
        .lock t]).layer = (l.store qsort alloc param value).1 := by
  unfold Layer.store
  rcases h.wf.tryStore_spec qsort hp value with ⟨l₁, heq, -⟩ | ⟨heq, hfull⟩
  · simp [step, exec, call, storeLoop, heq, go]
  by_cases hslots : l.nSlots = 0
  · simp [step, exec, call, storeLoop, heq, go, hslots, Layer.grow]
  cases hmalloc : alloc.malloc l with
  | none =>
    simp [step, exec, call, storeLoop, heq, go, hslots, Layer.grow, hmalloc, malloc,
      lockAfterMalloc]
  | some new =>
    obtain ⟨addr, contents⟩ := new
    have hfresh := alloc.fresh _ _ _ hmalloc
    have hgrow : l.grow alloc =
        some (((l.withArray addr contents).publish addr).free l.slots) := by
      rw [Layer.grow, if_neg hslots, hmalloc]
    obtain ⟨h₁, -, hnext, hlarger⟩ := h.grow hgrow
    generalize hl₁ : ((l.withArray addr contents).publish addr).free l.slots = l₁ at *
    have hroom : ¬l₁.nextSlot ≥ l₁.nSlots := by
      have := h.wf.nextSlot_le
      have := h.nGrow_pos
      omega
    obtain ⟨l₂, heq₂⟩ : ∃ l₂, l₁.tryStore qsort param value = some l₂ := by
      rcases h₁.wf.tryStore_spec qsort hp value with ⟨l₂, heq₂, -⟩ | ⟨-, hfull₁⟩
      · exact ⟨l₂, heq₂⟩
      · exact absurd hfull₁ hroom
    have hsteps : (Run.after (System.step qsort) { layer := l, threads := fun _ => .idle }
        [.call t (.store param value), .malloc t (alloc.malloc l), .lock t, .free t]) =
          go { layer := l, threads := fun _ => .idle } t l₁ (.freed param value) := by
      simp [step, exec, call, storeLoop, heq, go, hslots, malloc, hfresh,
        lockAfterMalloc, hmalloc, ← hl₁, Layer.withArray]
    rw [show ∀ e₁ e₂ e₃ e₄ e₅ : LayerEvent T V, [e₁, e₂, e₃, e₄, e₅] = [e₁, e₂, e₃, e₄] ++ [e₅]
      from fun _ _ _ _ _ => rfl, Run.after_append, ← hmalloc, hsteps, hgrow]
    simp [step, exec, go, growLoop, storeLoop, hroom, heq, heq₂]

open Layer in
/-- The second parameter does not fit, so the layer grows while its mutex is not held. -/
theorem store_eq_run_full :
    let l := ((construct 1 1 0 : Layer ℕ).store (.insertion ℕ) (.single ℕ 1) 7 70).1
    let larger := (l.store (.insertion ℕ) (.single ℕ 1) 3 30).1
    l.nextSlot = l.nSlots ∧ larger.slots ≠ l.slots ∧ larger.heap l.slots = none ∧
      (Run.after (System.step (.insertion ℕ)) { layer := l, threads := fun _ : Unit => .idle }
        [.call () (.store 3 30), .malloc () ((Allocator.single ℕ 1).malloc l), .lock (), .free (),
          .lock ()]).layer = larger := by
  obtain ⟨l, _, heq, hready, -⟩ :=
    (Ready.construct 1 1 0).store (.insertion ℕ) (.single ℕ 1) (by decide : (7 : ParamT) ≠ _) 70
  refine ⟨by decide, by decide, by decide, ?_⟩
  rw [heq]
  exact hready.store_eq_run (.insertion ℕ) (.single ℕ 1) (by decide) 30 ()

end Px4.Parameters
