import Mathlib.Data.Fintype.Card
import Px4.Common.KeyedSlots
import Px4.Commander.ModeRegistry

/-!
# The numbers of external modes

An RC switch position is assigned to the number of a mode, so a mode that registers again is to get
the number that it had. `addExternalMode` keeps the hash of the name that an index was last used for
in `COM_MODEi_HASH`. A new name overwrites one only if none is zero.
-/

namespace Px4.Commander.ModeManagement

open Finset Function List Run

inductive ModesCall where
  | addExternalMode (mode : Mode)
  | removeExternalMode (navState : NavState) (name : Name)

/-- One call. A navigation state that is not that of an external mode is not valid. -/
def modesStep (m : ModeManagement) : ModesCall → ModeManagement
  | .addExternalMode mode => (m.addExternalMode mode).1
  | .removeExternalMode navState name =>
    match modeIdx? navState with
    | none => m
    | some i => (m.removeExternalMode i name).1

/-- The name that a call registers, with what it returns. -/
def registration (m : ModeManagement) : ModesCall → List (Name × Option ModeIdx)
  | .addExternalMode mode => [(mode.name, (m.addExternalMode mode).2)]
  | .removeExternalMode .. => []

def registeredNames (calls : List ModesCall) : List Name :=
  calls.filterMap fun
    | .addExternalMode mode => some mode.name
    | .removeExternalMode .. => none

/-- Distinct names have distinct hashes. -/
def DistinctHashes (names : List Name) : Prop :=
  ∀ n ∈ names, ∀ n' ∈ names, modeNameHash n = modeNameHash n' → n = n'

/-- A mode is added only when an index is free. -/
def HasFree (m : ModeManagement) : ModesCall → Prop
  | .addExternalMode _ => m.hasFreeExternalModes = true
  | .removeExternalMode .. => True

instance (m : ModeManagement) : (call : ModesCall) → Decidable (HasFree m call)
  | .addExternalMode _ => inferInstanceAs (Decidable (_ = _))
  | .removeExternalMode .. => isTrue trivial

/-- The index that is returned was free. -/
def TakesFree (m : ModeManagement) : ModesCall → Prop
  | .addExternalMode mode =>
    ∃ i, (m.addExternalMode mode).2 = some i ∧ (m.modes i).valid = false
  | .removeExternalMode .. => True

/-- No mode is registered again while it is valid. -/
def NotStillValid (m : ModeManagement) : ModesCall → Prop
  | .addExternalMode mode => ∀ i, (m.modes i).valid = true → (m.modes i).name ≠ mode.name
  | .removeExternalMode .. => True

instance (m : ModeManagement) : (call : ModesCall) → Decidable (NotStillValid m call)
  | .addExternalMode mode =>
    inferInstanceAs (Decidable (∀ i, (m.modes i).valid = true → (m.modes i).name ≠ mode.name))
  | .removeExternalMode .. => isTrue trivial

/-- The parameters that are not zero are pairwise distinct. -/
def HashesDistinct (m : ModeManagement) : Prop :=
  ∀ i j, m.modeHashes i ≠ 0 → m.modeHashes i = m.modeHashes j → i = j

variable {m : ModeManagement} {mode : Mode} {i : ModeIdx} {w : Option UInt32}
  {calls : List ModesCall}

theorem modeNameHash_ne_zero (name) : modeNameHash name ≠ 0 := by
  unfold modeNameHash
  split_ifs with hzero
  · decide
  · exact hzero

/-! ## One call -/

/-- The hash of a parameter that is used. -/
def usedHash (hash : UInt32) : Option UInt32 := if hash = 0 then none else some hash

theorem usedHash_eq_some {hash k} : usedHash hash = some k ↔ hash ≠ 0 ∧ hash = k := by
  unfold usedHash
  split_ifs with hzero <;> simp [hzero]

theorem hashesDistinct_iff : HashesDistinct m ↔ KeyedSlots.Unique usedHash m.modeHashes := by
  simp only [HashesDistinct, KeyedSlots.Unique, usedHash_eq_some]
  refine ⟨fun h i j k hi hj => h i j hi.1 (hi.2.trans hj.2.symm), fun h i j hi hij => ?_⟩
  exact h i j (m.modeHashes i) ⟨hi, rfl⟩ ⟨hij ▸ hi, hij.symm⟩

theorem HashesDistinct.add (h : HashesDistinct m)
    (hchoice : Choice m (modeNameHash mode.name) i w) :
    HashesDistinct
      { m with modeHashes := w.elim m.modeHashes (Function.update m.modeHashes i) } := by
  cases hchoice with
  | again => exact h
  | unused => exact h
  | reset =>
    rw [hashesDistinct_iff] at h ⊢
    refine h.update fun j k _ hzero => ?_
    exact absurd rfl (usedHash_eq_some.mp hzero).1
  | first _ hnew =>
    rw [hashesDistinct_iff] at h ⊢
    refine h.update fun j k _ hk hj => ?_
    exact hnew j ((usedHash_eq_some.mp hj).2.trans (usedHash_eq_some.mp hk).2.symm)

theorem removeExternalMode_hashes (m : ModeManagement) (i name) :
    (m.removeExternalMode i name).1.modeHashes = m.modeHashes := by
  unfold removeExternalMode
  split_ifs <;> rfl

variable {j : ModeIdx} {call : ModesCall} {pre post : List ModesCall}

theorem removeExternalMode_modes (name) (hj : ((m.removeExternalMode i name).1.modes j).valid) :
    (m.removeExternalMode i name).1.modes j = m.modes j := by
  unfold removeExternalMode at hj ⊢
  split_ifs at hj ⊢ with hremoved
  · have hji : j ≠ i := by
      rintro rfl
      simp [setMode] at hj
    exact update_of_ne hji ..
  · rfl

theorem HashesDistinct.step (h : HashesDistinct m) (hfree : HasFree m call) :
    HashesDistinct (m.modesStep call) := by
  cases call with
  | addExternalMode mode =>
    obtain ⟨i, w, hchoice, hadd⟩ := addExternalMode_spec hfree
    rw [modesStep, hadd]
    exact h.add hchoice
  | removeExternalMode navState name =>
    rw [modesStep]
    cases modeIdx? navState with
    | none => exact h
    | some i =>
      intro j k
      rw [removeExternalMode_hashes]
      exact h j k

theorem takesFree_of_hasFree (hfree : HasFree m call) : TakesFree m call := by
  cases call with
  | addExternalMode mode =>
    obtain ⟨i, w, hchoice, hadd⟩ := addExternalMode_spec hfree
    exact ⟨i, by rw [hadd], hchoice.free⟩
  | removeExternalMode => trivial

/-! ## Stable numbers -/

/-- The parameters tell which index each name has, after these calls with these results. -/
structure Numbered (names : List Name) (returned : List (Name × Option ModeIdx))
    (m : ModeManagement) : Prop where
  distinct : HashesDistinct m
  stored : ∀ i, m.modeHashes i ≠ 0 → ∃ n ∈ names, modeNameHash n = m.modeHashes i
  valid : ∀ i, (m.modes i).valid = true →
    (m.modes i).name ∈ names ∧ m.modeHashes i = modeNameHash (m.modes i).name
  number : ∀ n r, (n, r) ∈ returned → ∃ i, r = some i ∧ m.modeHashes i = modeNameHash n

theorem numbered_construct : Numbered [] [] (construct fun _ => 0) where
  distinct _ _ hi := absurd rfl hi
  stored _ hi := absurd rfl hi
  valid _ hi := by cases hi
  number _ _ hn := by cases hn

variable {names : List Name} {returned : List (Name × Option ModeIdx)}

section

variable (h : Numbered names returned m)
include h

variable {n : Name}

/-- As long as there are fewer names than indexes, one of the parameters is zero. -/
theorem Numbered.exists_unused (hnew : ∀ j, m.modeHashes j ≠ modeNameHash n)
    (hcard : (n :: names).toFinset.card ≤ maxNumModes) : ∃ j, m.modeHashes j = 0 := by
  by_contra hused
  push Not at hused
  choose name hname hhash using fun j => h.stored j (hused j)
  have hinjective : Function.Injective name := fun i j hij =>
    h.distinct i j (hused i) (by rw [← hhash i, ← hhash j, hij])
  have hn : n ∉ univ.image name := by
    intro hn
    obtain ⟨j, -, rfl⟩ := mem_image.mp hn
    exact hnew j (hhash j).symm
  have hsub : insert n (univ.image name) ⊆ (n :: names).toFinset := by
    rw [toFinset_cons]
    refine insert_subset_insert n fun x hx => ?_
    obtain ⟨j, -, rfl⟩ := mem_image.mp hx
    exact mem_toFinset.mpr (hname j)
  have hle := card_le_card hsub
  rw [card_insert_of_notMem hn, card_image_of_injective _ hinjective,
    card_univ, Fintype.card_fin] at hle
  omega

/-- The index that a name gets is used for no other name, and its parameter has the hash then. -/
theorem Numbered.chosen (hchoice : Choice m (modeNameHash mode.name) i w)
    (hhash : ∀ n ∈ names, modeNameHash n = modeNameHash mode.name → n = mode.name)
    (hcard : (mode.name :: names).toFinset.card ≤ maxNumModes)
    (hvalid : NotStillValid m (.addExternalMode mode)) :
    (m.modeHashes i ≠ 0 → m.modeHashes i = modeNameHash mode.name) ∧
      w.elim m.modeHashes (Function.update m.modeHashes i) =
        Function.update m.modeHashes i (modeNameHash mode.name) := by
  cases hchoice with
  | again _ hi => exact ⟨fun _ => hi, by rw [← hi, Function.update_eq_self]; rfl⟩
  | unused _ hj hjvalid | reset _ hj hjvalid =>
    -- the name with the hash is still registered, so it would be another name
    obtain ⟨hname, hj'⟩ := h.valid _ hjvalid
    exact absurd (hhash _ hname (hj'.symm.trans hj)) (hvalid _ hjvalid)
  | first _ hnew hunused =>
    obtain ⟨k, hk⟩ := h.exists_unused hnew hcard
    have hkvalid : (m.modes k).valid = false := by
      refine Bool.eq_false_iff.mpr fun hkvalid => modeNameHash_ne_zero (m.modes k).name ?_
      rw [← (h.valid k hkvalid).2, hk]
    exact ⟨fun hi => absurd (hunused k hkvalid hk) hi, rfl⟩

theorem Numbered.add (hfree : m.hasFreeExternalModes)
    (hhash : ∀ n ∈ names, modeNameHash n = modeNameHash mode.name → n = mode.name)
    (hcard : (mode.name :: names).toFinset.card ≤ maxNumModes)
    (hvalid : NotStillValid m (.addExternalMode mode)) :
    Numbered (names ++ [mode.name]) (returned ++ [(mode.name, (m.addExternalMode mode).2)])
      (m.addExternalMode mode).1 := by
  obtain ⟨i, w, hchoice, hadd⟩ := addExternalMode_spec hfree
  have hdistinct := h.distinct.add hchoice
  obtain ⟨hi, hhashes⟩ := h.chosen hchoice hhash hcard hvalid
  rw [hhashes] at hadd hdistinct
  rw [hadd]
  refine ⟨hdistinct, fun j hj => ?_, fun j hj => ?_, fun n r hn => ?_⟩
  · by_cases hji : j = i
    · subst hji
      exact ⟨mode.name, by simp, by simp [setMode]⟩
    · simp only [setMode, update_of_ne hji] at hj ⊢
      obtain ⟨n, hn, hnj⟩ := h.stored j hj
      exact ⟨n, mem_append_left _ hn, hnj⟩
  · by_cases hji : j = i
    · subst hji
      simp [setMode]
    · simp only [setMode, update_of_ne hji] at hj ⊢
      obtain ⟨hname, hhash⟩ := h.valid j hj
      exact ⟨mem_append_left _ hname, hhash⟩
  · rcases mem_append.mp hn with hn | hn
    · obtain ⟨j, rfl, hj⟩ := h.number n r hn
      refine ⟨j, rfl, ?_⟩
      by_cases hji : j = i
      · subst hji
        rw [← hi (hj ▸ modeNameHash_ne_zero n), ← hj]
        simp [setMode]
      · simpa only [setMode, update_of_ne hji] using hj
    · obtain ⟨rfl, rfl⟩ : n = mode.name ∧ r = some i := by simpa using hn
      exact ⟨i, rfl, update_self ..⟩

theorem Numbered.remove (navState : NavState) (name) :
    Numbered names returned (m.modesStep (.removeExternalMode navState name)) := by
  rw [modesStep]
  cases modeIdx? navState with
  | none => exact h
  | some i =>
    have hhashes := removeExternalMode_hashes m i name
    refine ⟨fun j k => ?_, fun j => ?_, fun j hj => ?_, fun n r => ?_⟩
    · rw [hhashes]
      exact h.distinct j k
    · rw [hhashes]
      exact h.stored j
    · have hmode := removeExternalMode_modes name hj
      rw [hmode] at hj ⊢
      rw [hhashes]
      exact h.valid j hj
    · rw [hhashes]
      exact h.number n r

end

/-! ## Sequences of calls -/

theorem registeredNames_append :
    registeredNames (pre ++ post) = registeredNames pre ++ registeredNames post :=
  filterMap_append ..

theorem numbered_after (hfree : Run.Along modesStep HasFree (construct fun _ => 0) calls)
    (hhash : DistinctHashes (registeredNames calls))
    (hcard : (registeredNames calls).toFinset.card ≤ maxNumModes)
    (hvalid : Run.Along modesStep NotStillValid (construct fun _ => 0) calls) :
    Numbered (registeredNames calls) (emitted modesStep registration (construct fun _ => 0) calls)
      (after modesStep (construct fun _ => 0) calls) := by
  apply after_of_history
  · exact numbered_construct
  intro pre call post hcalls ih
  subst hcalls
  obtain ⟨hfree, -⟩ := (along_append.mp hfree).2
  obtain ⟨hvalid, -⟩ := (along_append.mp hvalid).2
  rw [emitted_append, registeredNames_append]
  cases call with
  | addExternalMode mode =>
    have hmem : ∀ n ∈ mode.name :: registeredNames pre,
        n ∈ registeredNames (pre ++ .addExternalMode mode :: post) := by
      intro n hn
      rw [registeredNames_append]
      rcases mem_cons.mp hn with rfl | hn
      · exact mem_append_right _ (mem_cons_self ..)
      · exact mem_append_left _ hn
    refine ih.add hfree (fun n hn => ?_) ?_ hvalid
    · exact hhash n (hmem n (mem_cons_of_mem _ hn)) _ (hmem _ (mem_cons_self ..))
    · refine le_trans (card_le_card fun n hn => ?_) hcard
      exact mem_toFinset.mpr (hmem n (mem_toFinset.mp hn))
  | removeExternalMode navState name =>
    have h := ih.remove navState name
    simpa [emitted, registration, registeredNames] using h

/-- **A mode keeps its number.** The hashes of the parameters are distinct, each registration takes
a free index, and as long as there are at most as many names as indexes and none is registered while
it is valid, all registrations of a name return the same index. -/
theorem mode_keeps_number (hfree : Run.Along modesStep HasFree (construct fun _ => 0) calls)
    (hhash : DistinctHashes (registeredNames calls)) :
    Run.Always modesStep HashesDistinct (construct fun _ => 0) calls ∧
    Run.Along modesStep TakesFree (construct fun _ => 0) calls ∧
    ((registeredNames calls).toFinset.card ≤ maxNumModes →
      Run.Along modesStep NotStillValid (construct fun _ => 0) calls →
      ∀ n r r', (n, r) ∈ emitted modesStep registration (construct fun _ => 0) calls →
        (n, r') ∈ emitted modesStep registration (construct fun _ => 0) calls → r = r') := by
  refine ⟨?_, hfree.imp fun m call h => takesFree_of_hasFree h, ?_⟩
  · apply always_of_invariant (I := HashesDistinct)
    · exact fun m call h hfree => h.step hfree
    · exact fun m h => h
    · exact numbered_construct.distinct
    · exact hfree
  · intro hcard hvalid n r r' hr hr'
    have h := numbered_after hfree hhash hcard hvalid
    obtain ⟨i, rfl, hi⟩ := h.number n r hr
    obtain ⟨j, rfl, hj⟩ := h.number n r' hr'
    rw [h.distinct i j (hi ▸ modeNameHash_ne_zero n) (hi.trans hj.symm)]

/-- Two modes register, one is removed, a third takes the next index, and it comes back. -/
def comesBack : List ModesCall :=
  [.addExternalMode { name := [65] }, .addExternalMode { name := [66] },
   .removeExternalMode 24 [66], .addExternalMode { name := [67] },
   .addExternalMode { name := [66] }]

theorem mode_keeps_number_comesBack :
    ((emitted modesStep registration (construct fun _ => 0) comesBack).map fun p =>
        (p.1, p.2.map Fin.val)) =
        [([65], some 0), ([66], some 1), ([67], some 2), ([66], some 1)] ∧
      ∀ n r r', (n, r) ∈ emitted modesStep registration (construct fun _ => 0) comesBack →
        (n, r') ∈ emitted modesStep registration (construct fun _ => 0) comesBack → r = r' :=
  ⟨by decide +kernel,
    (mode_keeps_number (by decide +kernel) (by unfold DistinctHashes; decide +kernel)).2.2
      (by decide +kernel) (by decide +kernel)⟩

end Px4.Commander.ModeManagement
