import Mathlib.Data.List.Nodup
import Px4.Common.Run

/-!
# Descriptors of devices

`px4_open` and `px4_close` of `src/lib/cdev/posix/cdev_platform.cpp`. A call of `px4_open` that
finds a device claims a slot of `filemap` under the lock and asks the device without; `px4_close`
looks up the device and clears the slot under the lock, but not at once.
-/

namespace Px4.Cdev

open Function List

/-- Which slots have a device; the slots of the calls between their two parts; the descriptors that
have been returned and not been closed since, and how many have been returned and closed. -/
structure FileMap where
  filemap : ℕ → Bool := fun _ => false
  opening : List ℕ := []
  closing : List ℕ := []
  descriptors : List ℕ := []
  opened : ℕ := 0
  closed : ℕ := 0

namespace FileMap

def px4MaxFd : ℕ := 512

inductive Event where
  /-- `px4_open` of a device, up to `dev->open` -/
  | claim
  | opened (fd : ℕ) (accepted : Bool)
  /-- `px4_close`, up to the second lock -/
  | getFile (fd : ℕ)
  | close (fd : ℕ)

def step (s : FileMap) : Event → FileMap
  | .claim =>
    match (range px4MaxFd).find? fun i => !s.filemap i with
    | some i => { s with filemap := update s.filemap i true, opening := i :: s.opening }
    | none => s
  | .opened fd accepted =>
    if fd ∈ s.opening then
      let s := { s with opening := s.opening.erase fd }
      if accepted then { s with descriptors := fd :: s.descriptors, opened := s.opened + 1 } else s
    else s
  | .getFile fd => if s.filemap fd then { s with closing := fd :: s.closing } else s
  | .close fd =>
    if fd ∈ s.closing then
      { s with
        closing := s.closing.erase fd, filemap := update s.filemap fd false
        descriptors := s.descriptors.erase fd
        closed := s.closed + if fd ∈ s.descriptors then 1 else 0 }
    else s

def occupied (s : FileMap) : ℕ := (range px4MaxFd).countP s.filemap

/-- No device refuses, and a descriptor is still open when `px4_close` clears its slot. -/
def Orderly (s : FileMap) : Event → Prop
  | .opened _ accepted => accepted
  | .close fd => fd ∈ s.closing → fd ∈ s.descriptors
  | _ => True

/-- Each of these slots is taken once, and no other one. -/
structure Taken (used : ℕ → Bool) (slots : List ℕ) : Prop where
  nodup : slots.Nodup
  mem_iff : ∀ fd, fd ∈ slots ↔ fd < px4MaxFd ∧ used fd

variable {used : ℕ → Bool} {slots slots' : List ℕ} {i : ℕ}

theorem Taken.perm (h : Taken used slots) (hperm : slots ~ slots') : Taken used slots' where
  nodup := hperm.nodup_iff.mp h.nodup
  mem_iff fd := hperm.mem_iff.symm.trans (h.mem_iff fd)

theorem Taken.claim (h : Taken used slots) (hlt : i < px4MaxFd) (hfree : ¬used i) :
    Taken (update used i true) (i :: slots) where
  nodup := nodup_cons.mpr ⟨fun hi => hfree ((h.mem_iff i).mp hi).2, h.nodup⟩
  mem_iff fd := by
    rw [mem_cons, h.mem_iff fd]
    by_cases hfd : fd = i <;> simp [hfd, hlt]

theorem Taken.clear (h : Taken used slots) (i : ℕ) :
    Taken (update used i false) (slots.erase i) where
  nodup := h.nodup.erase i
  mem_iff fd := by
    rw [h.nodup.mem_erase_iff, h.mem_iff fd]
    by_cases hfd : fd = i <;> simp [hfd]

theorem Taken.countP_eq (h : Taken used slots) : (range px4MaxFd).countP used = slots.length := by
  rw [countP_eq_length_filter]
  refine Perm.length_eq ((perm_ext_iff_of_nodup (nodup_range.filter _) h.nodup).mpr fun fd => ?_)
  rw [mem_filter, mem_range, h.mem_iff]

structure Inv (s : FileMap) : Prop where
  taken : Taken s.filemap (s.descriptors ++ s.opening)
  opened_eq : s.opened = s.descriptors.length + s.closed

theorem Inv.step {s : FileMap} {e : Event} (h : s.Inv) (he : s.Orderly e) : (s.step e).Inv := by
  cases e <;> dsimp only [FileMap.step]
  case claim =>
    split
    next i hfind =>
      refine ⟨(h.taken.claim ?_ ?_).perm perm_middle.symm, h.opened_eq⟩
      · exact mem_range.mp (mem_of_find?_eq_some hfind)
      · simpa using find?_some hfind
    · exact h
  case opened fd accepted =>
    obtain rfl : accepted := he
    split
    next hfd =>
      refine ⟨h.taken.perm ?_, by simp [h.opened_eq, Nat.add_right_comm]⟩
      exact ((perm_cons_erase hfd).append_left _).trans perm_middle
    · exact h
  case getFile => split <;> exact { h with }
  case close fd =>
    split
    next hfd =>
      have hopen := he hfd
      refine ⟨erase_append_left _ hopen ▸ h.taken.clear fd, ?_⟩
      have := length_pos_of_mem hopen
      simp only [h.opened_eq, length_erase_of_mem hopen, if_pos hopen]
      omega
    · exact h

/-- **Descriptors are not leaked**, and those that are open are different, if no device refuses and
no two calls close a descriptor at the same time. -/
theorem descriptors_not_leaked (es : List Event) (h : Run.Along step Orderly {} es) :
    let s := Run.after step {} es
    s.occupied + s.closed = s.opened + s.opening.length ∧ s.descriptors.Nodup := by
  intro s
  have hinv : s.Inv := by
    refine Run.after_of_invariant (fun _ _ hs he => hs.step he) ?_ h
    exact ⟨⟨nodup_nil, by simp⟩, rfl⟩
  refine ⟨?_, (nodup_append.mp hinv.taken.nodup).1⟩
  rw [occupied, hinv.taken.countP_eq, hinv.opened_eq, length_append]
  omega

/-- Two descriptors are opened at the same time, and one is closed while a third is being opened. -/
theorem descriptors_not_leaked_overlapping :
    let s := Run.after step {}
      [.claim, .claim, .opened 1 true, .opened 0 true, .getFile 1, .claim, .close 1]
    s.opened = 2 ∧ s.closed = 1 ∧ s.opening = [2] ∧ s.occupied = 2 ∧ s.descriptors.Nodup := by
  intro s
  have hopened : s.opened = 2 := by decide +kernel
  have hclosed : s.closed = 1 := by decide +kernel
  have hopening : s.opening = [2] := by decide +kernel
  have hcount : s.occupied + s.closed = s.opened + s.opening.length ∧ s.descriptors.Nodup :=
    descriptors_not_leaked _
      ⟨trivial, trivial, rfl, rfl, trivial, trivial, fun _ => by decide +kernel, trivial⟩
  rw [hopened, hclosed, hopening] at hcount
  exact ⟨hopened, hclosed, hopening, Nat.add_right_cancel hcount.1, hcount.2⟩

/-- A device refuses. Two calls close a descriptor, while two others open it. -/
theorem descriptor_leaked :
    (Run.after step {} [.claim, .opened 0 false]).occupied = 1 ∧
      (Run.after step {} [.claim, .opened 0 true, .getFile 0, .getFile 0, .close 0, .claim,
        .close 0, .claim, .opened 0 true, .opened 0 true]).descriptors = [0, 0] := by
  decide +kernel

end FileMap

end Px4.Cdev
