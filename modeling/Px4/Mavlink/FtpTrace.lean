import Px4.Mavlink.FtpWork

/-!
# A record of the files that the server opens and writes

`traced` records the path under which every descriptor was opened and the descriptors to which bytes
were written. Only commands that open, close or write the file of the session touch it.
-/

namespace Px4.MavlinkFtp

open Function

/-! ## A record of the descriptors -/

/-- An operating system with the paths of the open descriptors and of all writes. -/
structure Traced (O : Type*) where
  os : O
  opened : Fd → Option Path := fun _ => none
  written : List (Option Path) := []

namespace Traced

variable {O α : Type*} (t : Traced O)

/-- A call that opens, closes and writes nothing. -/
def quiet (result : O × α) : Traced O × α := ({ t with os := result.1 }, result.2)

theorem quiet_opened {t t₁ : Traced O} {result : O × α} {r : α} (h : t.quiet result = (t₁, r)) :
    t₁.opened = t.opened := by
  obtain rfl : _ = t₁ := congrArg Prod.fst h
  rfl

/-- `open` returns a descriptor that is not in use; any other result would be an error. -/
def openFile (path : Path) (result : O × Option Fd) : Traced O × Option Fd :=
  match result with
  | (os, none) => ({ t with os }, none)
  | (os, some fd) =>
    if t.opened fd = none then
      ({ t with os, opened := update t.opened fd (some path) }, some fd)
    else ({ t with os }, none)

def close (fd : Fd) (os : O) : Traced O :=
  { t with os, opened := update t.opened fd none }

def write (fd : Fd) (result : O × Option ℕ) : Traced O × Option ℕ :=
  ({ t with os := result.1, written := t.written ++ [t.opened fd] }, result.2)

end Traced

/-- The calls of an operating system, with the record. -/
def FtpEnv.traced {O : Type*} (env : FtpEnv O) : FtpEnv (Traced O) where
  nuttx := env.nuttx
  rootDir := env.rootDir
  boardRootPath := env.boardRootPath
  storageDir := env.storageDir
  systemId := env.systemId
  componentId := env.componentId
  errno t := env.errno t.os
  setErrno t e := { t with os := env.setErrno t.os e }
  stat t path := t.quiet (env.stat t.os path)
  openFile t path oflag := t.openFile path (env.openFile t.os path oflag)
  close t fd := t.close fd (env.close t.os fd)
  lseek t fd offset := t.quiet (env.lseek t.os fd offset)
  read t fd count := t.quiet (env.read t.os fd count)
  write t fd bytes := t.write fd (env.write t.os fd bytes)
  unlink t path := t.quiet (env.unlink t.os path)
  mkdir t path := t.quiet (env.mkdir t.os path)
  rmdir t path := t.quiet (env.rmdir t.os path)
  rename t path newpath := t.quiet (env.rename t.os path newpath)
  truncate t path length := t.quiet (env.truncate t.os path length)
  opendir t path := t.quiet (env.opendir t.os path)
  crc32part := env.crc32part
  crcRounds := env.crcRounds

variable {O : Type*}

theorem FtpEnv.traced_validatePathIsWritable (env : FtpEnv O) :
    env.traced.validatePathIsWritable = env.validatePathIsWritable := rfl

/-- A path is writable for the server. -/
def IsWritable {O : Type*} (env : FtpEnv O) (path : Option Path) : Prop :=
  ∃ p, path = some p ∧ env.validatePathIsWritable p

/-! ## Calls that leave the session alone -/

section Frame

variable {O α : Type*} {env : FtpEnv O} {fd : Option Fd} {t t₁ t₂ : Traced O}

/-- From `t` to `t'`, the open session on `fd` keeps its file, and only writable files get bytes. -/
structure Framed (env : FtpEnv O) (fd : Option Fd) (t t' : Traced O) : Prop where
  opened : ∀ f ∈ fd, (t.opened f).isSome → t'.opened f = t.opened f
  written : ∀ entry ∈ t'.written, entry ∈ t.written ∨ IsWritable env entry

namespace Framed

theorem refl (t) : Framed env fd t t := ⟨fun _ _ _ => rfl, fun _ => .inl⟩

theorem trans (h₁ : Framed env fd t t₁) (h₂ : Framed env fd t₁ t₂) : Framed env fd t t₂ where
  opened f hf ht := by
    have h := h₁.opened f hf ht
    rw [← h] at ht
    exact (h₂.opened f hf ht).trans h
  written entry hentry := (h₂.written entry hentry).elim (h₁.written entry) .inr

theorem of_quiet {α : Type*} {result : O × α} {r : α} (h : t.quiet result = (t₁, r)) :
    Framed env fd t t₁ := by
  obtain rfl : _ = t₁ := congrArg Prod.fst h
  exact ⟨fun _ _ _ => rfl, fun _ => .inl⟩

variable {path : Path} {result : O × Option Fd} {r : Option Fd} {f : Fd}

theorem of_openFile (env fd) (h : t.openFile path result = (t₁, r)) :
    Framed env fd t t₁ ∧
      ∀ new ∈ r, t.opened new = none ∧ t₁.opened = update t.opened new (some path) := by
  unfold Traced.openFile at h
  split at h
  · cases h
    exact ⟨⟨fun _ _ _ => rfl, fun _ => .inl⟩, nofun⟩
  split at h
  next new hnew =>
    cases h
    refine ⟨⟨fun f _ ht => ?_, fun _ => .inl⟩, fun new' hnew' => ?_⟩
    · refine update_of_ne ?_ _ _
      rintro rfl
      rw [hnew] at ht
      cases ht
    · cases hnew'
      exact ⟨hnew, rfl⟩
  · cases h
    exact ⟨⟨fun _ _ _ => rfl, fun _ => .inl⟩, nofun⟩

theorem close (h : Framed env fd t t₁) (hf : t.opened f = none) (os) :
    Framed env fd t (t₁.close f os) where
  opened f' hf' ht := by
    have hne : f' ≠ f := by
      rintro rfl
      rw [hf] at ht
      cases ht
    exact (update_of_ne hne _ _).trans (h.opened f' hf' ht)
  written := h.written

theorem write {result : O × Option ℕ} {r : Option ℕ}
    (h : Framed env fd t t₁) (hf : IsWritable env (t₁.opened f))
    (hresult : t₁.write f result = (t₂, r)) : Framed env fd t t₂ ∧ t₂.opened = t₁.opened := by
  obtain rfl : _ = t₂ := congrArg Prod.fst hresult
  refine ⟨⟨h.opened, fun entry hentry => ?_⟩, rfl⟩
  rcases List.mem_append.mp hentry with hold | hnew
  · exact h.written entry hold
  · exact .inr (List.mem_singleton.mp hnew ▸ hf)

end Framed

end Frame

namespace Work

variable {O : Type*} {env : FtpEnv O} {w w₁ w₂ : Work (Traced O)}

/-- A handler, or a part of it, that leaves the session and the first work buffer alone. -/
structure Idle (env : FtpEnv O) (w w' : Work (Traced O)) : Prop where
  fd_eq : w'.ftp.session.fd = w.ftp.session.fd
  workBuffer1_eq : w'.ftp.workBuffer1 = w.ftp.workBuffer1
  framed : Framed env w.ftp.session.fd w.ftp.os w'.ftp.os

namespace Idle

theorem refl (w) : Idle env w w := ⟨rfl, rfl, .refl _⟩

theorem trans (h₁ : Idle env w w₁) (h₂ : Idle env w₁ w₂) : Idle env w w₂ where
  fd_eq := h₂.fd_eq.trans h₁.fd_eq
  workBuffer1_eq := h₂.workBuffer1_eq.trans h₁.workBuffer1_eq
  framed := h₁.framed.trans (h₁.fd_eq ▸ h₂.framed)

end Idle

/-! ### Listing -/

variable (w)

variable {includeTime copied : Bool} {entry : Dirent} {endErrno : Errno} {offset length : ℕ}
  {targetSystemId targetComponentId : UInt8} {dstPath srcPath : Path} {result : Option UInt32}

theorem idle_listEntry :
    Idle env w (listEntry env.traced w includeTime entry).1 := by
  unfold listEntry
  split
  · split
    next hstat =>
      refine ⟨rfl, rfl, ?_⟩
      unfold statEntry at hstat
      dsimp only at hstat
      split at hstat
      · split at hstat
        next h =>
          cases hstat
          exact .of_quiet h
        next h =>
          cases hstat
          exact .of_quiet h
      · cases hstat
        exact .refl _
  · split_ifs <;> exact .refl _
  · exact .refl _

theorem idle_endOfList :
    Idle env w (w.endOfList endErrno offset).1 := by
  unfold endOfList
  split_ifs <;> exact ⟨rfl, rfl, .refl _⟩

theorem idle_listLoop (includeTime endErrno offset w entries) :
    Idle env w (listLoop env.traced includeTime endErrno offset w entries).1 := by
  induction entries generalizing offset w with
  | nil => exact idle_endOfList w
  | cons entry entries ih =>
    have hentry : Idle env w (listEntry env.traced w includeTime entry).1 := idle_listEntry w
    unfold listLoop
    dsimp only
    split_ifs
    · exact { hentry with }
    · refine Idle.trans ?_ (ih _ _)
      exact { hentry with }

theorem idle_workList :
    Idle env (w.constructPath env.traced) (w.workList env.traced includeTime).1 := by
  unfold workList
  dsimp only
  split
  · exact .refl _
  split
  next h => exact ⟨rfl, rfl, .of_quiet h⟩
  next os _ h =>
    have hopendir : Idle env (w.constructPath env.traced)
        ((w.constructPath env.traced).setOs os) :=
      ⟨rfl, rfl, .of_quiet h⟩
    exact hopendir.trans (idle_listLoop ..)

/-! ### The session -/

theorem idle_workRead : Idle env w (w.workRead env.traced).1 := by
  unfold workRead
  split
  · exact .refl _
  split
  · exact .refl _
  split
  next hseek => exact ⟨rfl, rfl, .of_quiet hseek⟩
  next os _ hseek =>
    have hseek : Framed env w.ftp.session.fd w.ftp.os os := .of_quiet hseek
    split
    next hread => exact ⟨rfl, rfl, hseek.trans (.of_quiet hread)⟩
    next hread => exact ⟨rfl, rfl, hseek.trans (.of_quiet hread)⟩

theorem idle_workBurst :
    Idle env w (w.workBurst targetSystemId targetComponentId).1 := by
  unfold workBurst
  split
  · exact .refl _
  · exact ⟨rfl, rfl, .refl _⟩

/-! ### Files and directories -/

/-- The handlers of one path and one system call that opens, closes and writes nothing. -/
theorem idle_workPath {call : O → Path → O × Option Unit} :
    Idle env (w.constructPath env.traced)
      (w.workPath env.traced fun t path => t.quiet (call t.os path)).1 := by
  unfold workPath
  dsimp only
  split
  · exact .refl _
  · split
    next h => exact ⟨rfl, rfl, .of_quiet h⟩
    next h => exact ⟨rfl, rfl, .of_quiet h⟩

theorem idle_workRename :
    Idle env w (w.workRename env.traced).1 ∨
      Idle env (w.constructPath env.traced) (w.workRename env.traced).1 := by
  unfold workRename
  dsimp only
  split
  · exact .inl ⟨rfl, rfl, ⟨fun _ _ _ => rfl, fun _ => .inl⟩⟩
  right
  split
  · exact .refl _
  · split
    next h => exact ⟨rfl, rfl, .of_quiet h⟩
    next h => exact ⟨rfl, rfl, .of_quiet h⟩

/-- Copying writes to a descriptor of a writable file, and opens and closes nothing. -/
theorem idle_copyLoop (src dst : Fd) (fuel w length) (hdst : IsWritable env (w.ftp.os.opened dst)) :
    Idle env w (copyLoop env.traced src dst fuel w length).1 := by
  induction fuel generalizing w length with
  | zero => exact .refl _
  | succ fuel ih =>
    unfold copyLoop
    split
    · exact .refl _
    split
    next hread => exact ⟨rfl, rfl, .of_quiet hread⟩
    next os bytes hread =>
      have hos : os.opened = w.ftp.os.opened := Traced.quiet_opened hread
      have hread : Framed env w.ftp.session.fd w.ftp.os os := .of_quiet hread
      split
      · exact ⟨rfl, rfl, hread⟩
      split
      next os' written hwrite =>
        obtain ⟨hwritten, hopened⟩ := hread.write (hos ▸ hdst) hwrite
        split
        · have hstep : Idle env w (w.setOs os') := ⟨rfl, rfl, hwritten⟩
          refine hstep.trans (ih _ _ ?_)
          change IsWritable env (os'.opened dst)
          rw [hopened, hos]
          exact hdst
        · exact ⟨rfl, rfl, hwritten⟩

/-- A file is copied to a writable path with two descriptors of its own. -/
theorem idle_copyFile
    (hdst : env.validatePathIsWritable dstPath)
    (h : w.copyFile env.traced srcPath dstPath length = (w₁, copied)) : Idle env w w₁ := by
  obtain rfl : _ = w₁ := congrArg Prod.fst h
  unfold copyFile
  split
  next h => exact ⟨rfl, rfl, (Framed.of_openFile env _ h).1⟩
  next t₁ src h₁ =>
    obtain ⟨hopen₁, hnew⟩ := Framed.of_openFile env w.ftp.session.fd h₁
    obtain ⟨hsrc, hopened₁⟩ := hnew src rfl
    split
    next h => exact ⟨rfl, rfl, (hopen₁.trans (Framed.of_openFile env _ h).1).close hsrc _⟩
    next t₂ dst h₂ =>
      obtain ⟨hopen₂, hnew⟩ := Framed.of_openFile env w.ftp.session.fd h₂
      obtain ⟨hdst₁, hopened₂⟩ := hnew dst rfl
      have hne : dst ≠ src := by
        rintro rfl
        rw [hopened₁, update_self] at hdst₁
        cases hdst₁
      have hdst₀ : w.ftp.os.opened dst = none := by
        rwa [hopened₁, update_of_ne hne] at hdst₁
      have hloop : Idle env (w.setOs t₂)
          (copyLoop env.traced src dst length (w.setOs t₂) length).1 := by
        refine idle_copyLoop src dst length _ length ⟨dstPath, ?_, hdst⟩
        change t₂.opened dst = some dstPath
        rw [hopened₂, update_self]
      have hframed := (hopen₁.trans hopen₂).trans hloop.framed
      exact { hloop with framed := (hframed.close hsrc _).close hdst₀ _ }

/-- The temporary file of `_workTruncateFile` is on the storage. -/
def StorageIsWritable (env : FtpEnv O) : Prop :=
  env.validatePathIsWritable
    (env.storageDir ++ ascii ['/', '.', 't', 'r', 'u', 'n', 'c', '.', 't', 'm', 'p'])

theorem idle_truncateByCopy (hstorage : StorageIsWritable env) {w}
    (hpath : env.validatePathIsWritable w.path) : Idle env w (w.truncateByCopy env.traced).1 := by
  unfold truncateByCopy
  dsimp only
  split
  next h => exact idle_copyFile w hstorage h
  next w₁ h =>
    have hforth := idle_copyFile w hstorage h
    have hpath₁ : env.validatePathIsWritable w₁.path := by
      unfold path
      rw [hforth.workBuffer1_eq]
      exact hpath
    split
    next h => exact hforth.trans (idle_copyFile w₁ hpath₁ h)
    next w₂ h =>
      have hback := hforth.trans (idle_copyFile w₁ hpath₁ h)
      split
      next h => exact hback.trans ⟨rfl, rfl, .of_quiet h⟩
      next h => exact hback.trans ⟨rfl, rfl, .of_quiet h⟩

/-- The last byte of a longer file is written with a descriptor of its own. -/
theorem idle_extendFile (hpath : env.validatePathIsWritable w.path) :
    Idle env w (w.extendFile env.traced).1 := by
  unfold extendFile
  split
  next h => exact ⟨rfl, rfl, (Framed.of_openFile env _ h).1⟩
  next t₁ new h₁ =>
    obtain ⟨hopen, hnew⟩ := Framed.of_openFile env w.ftp.session.fd h₁
    obtain ⟨hfree, hopened⟩ := hnew new rfl
    split
    next h => exact ⟨rfl, rfl, (hopen.trans (.of_quiet h)).close hfree _⟩
    next t₂ _ h₂ =>
      have hseek := hopen.trans (.of_quiet h₂)
      have hwritable : IsWritable env (t₂.opened new) := by
        refine ⟨w.path, ?_, hpath⟩
        rw [Traced.quiet_opened h₂, hopened, update_self]
      split
      next t₃ _ h₃ =>
        have hwrite := (hseek.write hwritable h₃).1.close hfree (env.close t₃.os new)
        split
        · exact ⟨rfl, rfl, hwrite⟩
        · exact ⟨rfl, rfl, hwrite⟩

theorem idle_truncateNuttx (hstorage : StorageIsWritable env) (w)
    (hpath : env.validatePathIsWritable w.path) : Idle env w (w.truncateNuttx env.traced).1 := by
  unfold truncateNuttx
  split
  next h => exact ⟨rfl, rfl, .of_quiet h⟩
  next t₁ st h₁ =>
    have hstat : Idle env w (w.setOs t₁) := ⟨rfl, rfl, .of_quiet h₁⟩
    dsimp only
    split_ifs
    · exact hstat.trans ⟨rfl, rfl, .refl _⟩
    · exact hstat.trans ⟨rfl, rfl, .refl _⟩
    · exact hstat
    · split
      next h => exact hstat.trans ⟨rfl, rfl, (Framed.of_openFile env _ h).1⟩
      next t₂ new h₂ =>
        obtain ⟨hopen, hnew⟩ := Framed.of_openFile env w.ftp.session.fd h₂
        exact hstat.trans ⟨rfl, rfl, hopen.close (hnew new rfl).1 _⟩
    · exact hstat.trans (idle_extendFile _ hpath)
    · exact hstat.trans (idle_truncateByCopy hstorage hpath)

theorem idle_workTruncateFile (hstorage : StorageIsWritable env) (w : Work (Traced O)) :
    Idle env (w.constructPath env.traced) (w.workTruncateFile env.traced).1 := by
  unfold workTruncateFile
  dsimp only
  split
  · exact ⟨rfl, rfl, .refl _⟩
  next hprotected =>
    have hpath : env.validatePathIsWritable (w.constructPath env.traced).path := by
      unfold pathIsProtected at hprotected
      simp only [Bool.or_eq_true, Bool.not_eq_true', not_or, Bool.not_eq_false] at hprotected
      exact hprotected.2
    split
    · have h := idle_truncateNuttx hstorage ((w.constructPath env.traced).setSize 0) hpath
      exact { h with }
    · split
      next h => exact ⟨rfl, rfl, .of_quiet h⟩
      next h => exact ⟨rfl, rfl, .of_quiet h⟩

theorem idle_crcLoop (fd rounds w checksum)
    (h : crcLoop env.traced fd rounds w checksum = (w₁, result)) : Idle env w w₁ := by
  induction rounds generalizing w checksum with
  | zero =>
    cases h
    exact .refl _
  | succ rounds ih =>
    unfold crcLoop at h
    split at h
    next hread =>
      cases h
      exact ⟨rfl, rfl, .of_quiet hread⟩
    next t₁ bytes hread =>
      have hstep : Idle env w (w.setOs t₁) := ⟨rfl, rfl, .of_quiet hread⟩
      split at h
      · exact hstep.trans (ih _ _ h)
      · cases h
        exact hstep

theorem idle_workCalcFileCRC32 : Idle env w (w.workCalcFileCRC32 env.traced).1 := by
  unfold workCalcFileCRC32
  dsimp only
  split
  · exact ⟨rfl, rfl, .refl _⟩
  split
  next h => exact ⟨rfl, rfl, (Framed.of_openFile env _ h).1⟩
  next t₁ new h₁ =>
    obtain ⟨hopen, hnew⟩ := Framed.of_openFile env w.ftp.session.fd h₁
    have hopened : Idle env w
        { ftp := { w.ftp with os := t₁ }, payload := w.payload.dataAsCstring } :=
      ⟨rfl, rfl, hopen⟩
    split
    next h =>
      have hloop := hopened.trans (idle_crcLoop _ _ _ _ h)
      exact { hloop with framed := hloop.framed.close (hnew new rfl).1 _ }
    next h =>
      have hloop := hopened.trans (idle_crcLoop _ _ _ _ h)
      exact { hloop with framed := hloop.framed.close (hnew new rfl).1 _ }

end Work

end Px4.MavlinkFtp
