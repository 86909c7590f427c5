import Px4.Common.Run
import Px4.Mavlink.Ftp
import Px4.Mavlink.FtpTrace

/-!
# Write permission

`_workWrite` asks whether the path in the first work buffer may be written, which is the path of the
session only as long as no other request and no new allocation has filled the buffer.
-/

namespace Px4.MavlinkFtp

open Option Run

/-! ## The session and the first work buffer -/

namespace Ftp

variable {O : Type*} {env : FtpEnv O} {ftp ftp' : Ftp (Traced O)}

/-- The path with which the session was opened. -/
def openedPath (ftp : Ftp (Traced O)) : Option Path := ftp.session.fd.bind ftp.os.opened

/-- The path may be written if and only if the file of the session may. -/
def AgreesWithSession (env : FtpEnv O) (ftp : Ftp (Traced O)) (path : Path) : Prop :=
  ∀ p ∈ ftp.openedPath, env.validatePathIsWritable path = env.validatePathIsWritable p
deriving Decidable

/-- An open session has a file, the path in the first work buffer agrees with it, and bytes were
written to writable files only. -/
structure Permitted (env : FtpEnv O) (ftp : Ftp (Traced O)) : Prop where
  opened : ftp.session.fd.isSome → ftp.openedPath.isSome
  agrees : ∀ path ∈ ftp.workBuffer1, AgreesWithSession env ftp path
  written : ∀ entry ∈ ftp.os.written, IsWritable env entry

theorem openedPath_of_framed (hopened : ftp.session.fd.isSome → ftp.openedPath.isSome)
    (hfd : ftp'.session.fd = ftp.session.fd)
    (hframed : Framed env ftp.session.fd ftp.os ftp'.os) : ftp'.openedPath = ftp.openedPath := by
  unfold openedPath at hopened ⊢
  rw [hfd]
  cases h : ftp.session.fd with
  | none => rfl
  | some fd =>
    rw [h] at hopened hframed
    exact hframed.opened fd rfl (hopened rfl)

namespace Permitted

/-- What leaves the session alone keeps the invariant if the path in the buffer agrees. -/
theorem of_framed (h : ftp.Permitted env) (hfd : ftp'.session.fd = ftp.session.fd)
    (hframed : Framed env ftp.session.fd ftp.os ftp'.os)
    (hpath : ∀ path ∈ ftp'.workBuffer1, AgreesWithSession env ftp path) : ftp'.Permitted env := by
  have hsame := openedPath_of_framed h.opened hfd hframed
  refine ⟨?_, ?_, ?_⟩
  · rw [hfd, hsame]
    exact h.opened
  · unfold AgreesWithSession
    rw [hsame]
    exact hpath
  · intro entry hentry
    exact (hframed.written entry hentry).elim (h.written entry) id

theorem of_closed (hfd : ftp.session.fd = none)
    (hwritten : ∀ entry ∈ ftp.os.written, IsWritable env entry) : ftp.Permitted env where
  opened h := by rw [hfd] at h; cases h
  agrees _ _ p hp := by rw [openedPath, hfd] at hp; cases hp
  written := hwritten

theorem of_idle {w w' : Work (Traced O)} (h : w.ftp.Permitted env) (hidle : w.Idle env w') :
    w'.ftp.Permitted env :=
  h.of_framed hidle.fd_eq hidle.framed fun path hpath =>
    h.agrees path (hidle.workBuffer1_eq ▸ hpath)

end Permitted

end Ftp

/-- The path with which a request fills the first work buffer while a session is open. -/
def Payload.namedPath {O : Type*} (env : FtpEnv O) (payload : Payload) : Option Path :=
  match Command.ofOpcode payload.header.opcode with
  | some .listDirectory | some .listDirectoryWithTime | some .removeFile | some .truncateFile
  | some .rename | some .createDirectory | some .removeDirectory =>
    some (env.constructPath workBuffer1Len (payload.dataAsCstring.cstringAt 0))
  | _ => none

namespace Work

variable {O : Type*} {env : FtpEnv O} {w : Work (Traced O)}

open Ftp (Permitted AgreesWithSession)

section

variable (h : w.ftp.Permitted env)
include h

theorem permitted_constructPath (hpath : AgreesWithSession env w.ftp
      (env.constructPath workBuffer1Len (w.payload.dataAsCstring.cstringAt 0))) :
    (w.constructPath env.traced).ftp.Permitted env := by
  refine h.of_framed rfl (.refl _) ?_
  rintro path ⟨⟩
  exact hpath

variable {oflag : OpenFlags} {fileSize : UInt32} {p : Path}

theorem permitted_openFile {path : Path} (hpath : w.ftp.workBuffer1 = some path) :
    (w.openFile env.traced oflag fileSize).1.ftp.Permitted env := by
  unfold openFile
  split
  next hopen => exact h.of_idle ⟨rfl, rfl, (Framed.of_openFile env _ hopen).1⟩
  next t new hopen =>
    obtain ⟨hframed, hnew⟩ := Framed.of_openFile env w.ftp.session.fd hopen
    have hopened : t.opened new = some path := by
      rw [(hnew new rfl).2, Function.update_self, Work.path, hpath, getD_some]
    refine ⟨fun _ => ?_, ?_, ?_⟩
    · change (t.opened new).isSome
      rw [hopened]
      rfl
    · intro path' hpath' p hp
      have hp : t.opened new = some p := hp
      have hpath' : w.ftp.workBuffer1 = some path' := hpath'
      rw [hopened] at hp
      rw [hpath] at hpath'
      rw [← some.inj hp, ← some.inj hpath']
    · intro entry hentry
      exact (hframed.written entry hentry).elim (h.written entry) id

theorem permitted_workOpen :
    (w.workOpen env.traced oflag).1.ftp.Permitted env := by
  unfold workOpen
  split
  · exact h
  next hfd =>
    have hfd : w.ftp.session.fd = none := by simpa using hfd
    have hpath : (w.constructPath env.traced).ftp.Permitted env := .of_closed hfd h.written
    dsimp only
    split
    · exact hpath
    split
    next t _ hstat =>
      have hidle : Idle env (w.constructPath env.traced) ((w.constructPath env.traced).setOs t) :=
        ⟨rfl, rfl, .of_quiet hstat⟩
      exact permitted_openFile (hpath.of_idle hidle) rfl
    next t hstat =>
      have hidle : Idle env (w.constructPath env.traced) ((w.constructPath env.traced).setOs t) :=
        ⟨rfl, rfl, .of_quiet hstat⟩
      split
      · exact hpath.of_idle ⟨rfl, rfl, .of_quiet hstat⟩
      · exact permitted_openFile (hpath.of_idle hidle) rfl

/-- While the buffer agrees with the session, `_workWrite` decides by the path of the session. -/
theorem workWrite_protected (hbuffer : w.ftp.workBuffer1.isSome)
    (hsession : w.payload.header.session = 0) (hp : w.ftp.openedPath = some p) :
    (w.workWrite env.traced).2 = .failFileProtected ↔ ¬env.validatePathIsWritable p := by
  obtain ⟨path, hpath⟩ := isSome_iff_exists.mp hbuffer
  have hagrees := h.agrees path hpath p hp
  have hw : w.path = path := by rw [Work.path, hpath, getD_some]
  have hfd : w.sessionFd = w.ftp.session.fd := if_neg (not_not.mpr hsession)
  obtain ⟨fd, hfd', -⟩ := bind_eq_some_iff.mp hp
  unfold workWrite
  rw [hfd, hfd', hw, ← hagrees, env.traced_validatePathIsWritable]
  dsimp only
  by_cases hwritable : env.validatePathIsWritable path
  · rw [if_neg (by simpa using hwritable)]
    refine iff_of_false ?_ (not_not.mpr hwritable)
    split
    · nofun
    · split <;> nofun
  · rw [if_pos (by simpa using hwritable)]
    exact iff_of_true rfl hwritable

theorem permitted_workWrite (hbuffer : w.ftp.workBuffer1.isSome) :
    (w.workWrite env.traced).1.ftp.Permitted env := by
  obtain ⟨path, hpath⟩ := isSome_iff_exists.mp hbuffer
  have hw : w.path = path := by rw [Work.path, hpath, getD_some]
  unfold workWrite
  split
  · exact h
  next fd hfd =>
    split
    · exact h
    next hwritable =>
      rw [env.traced_validatePathIsWritable] at hwritable
      split
      next hseek => exact h.of_idle ⟨rfl, rfl, .of_quiet hseek⟩
      next t _ hseek =>
        -- the descriptor is the one of the session, so its file may be written as well
        have hfd : w.ftp.session.fd = some fd := by
          unfold sessionFd at hfd
          split at hfd
          · cases hfd
          · exact hfd
        obtain ⟨p, hp⟩ := isSome_iff_exists.mp (h.opened (by rw [hfd]; rfl))
        have hagrees := h.agrees path hpath p hp
        have hopened : IsWritable env (t.opened fd) := by
          rw [Traced.quiet_opened hseek]
          rw [Ftp.openedPath, hfd] at hp
          exact ⟨p, hp, by rw [← hagrees, ← hw]; simpa using hwritable⟩
        have hseek : Framed env w.ftp.session.fd w.ftp.os t := .of_quiet hseek
        split
        next hwrite => exact h.of_idle ⟨rfl, rfl, (hseek.write hopened hwrite).1⟩
        next hwrite => exact h.of_idle ⟨rfl, rfl, (hseek.write hopened hwrite).1⟩

theorem permitted_workTerminate : (w.workTerminate env.traced).1.ftp.Permitted env := by
  unfold workTerminate
  split
  · exact h
  · exact .of_closed rfl h.written

theorem permitted_workReset : (w.workReset env.traced).1.ftp.Permitted env := by
  unfold workReset
  split
  · exact h.of_idle ⟨rfl, rfl, .refl _⟩
  · exact .of_closed rfl h.written

end

variable {targetSystemId targetCompId : UInt8}

/-- Every command keeps the invariant, if the path it names agrees with the session. -/
theorem permitted_execute (hstorage : StorageIsWritable env) (h : w.ftp.Permitted env)
    (hbuffer : w.ftp.workBuffer1.isSome)
    (hpath : ∀ path ∈ w.payload.namedPath env, AgreesWithSession env w.ftp path) :
    (w.execute env.traced targetSystemId targetCompId).1.ftp.Permitted env := by
  unfold execute
  unfold Payload.namedPath at hpath
  cases hcommand : Command.ofOpcode w.payload.header.opcode with
  | none => exact h
  | some command =>
    rw [hcommand] at hpath
    cases command with
    | none => exact h
    | terminateSession => exact permitted_workTerminate h
    | resetSessions => exact permitted_workReset h
    | openFileRO => exact permitted_workOpen h
    | createFile => exact permitted_workOpen h
    | openFileWO => exact permitted_workOpen h
    | readFile => exact h.of_idle (idle_workRead w)
    | burstReadFile => exact h.of_idle (idle_workBurst w)
    | writeFile => exact permitted_workWrite h hbuffer
    | calcFileCRC32 => exact h.of_idle (idle_workCalcFileCRC32 w)
    | listDirectory =>
      exact (permitted_constructPath h (hpath _ rfl)).of_idle (idle_workList w)
    | listDirectoryWithTime =>
      exact (permitted_constructPath h (hpath _ rfl)).of_idle (idle_workList w)
    | removeFile => exact (permitted_constructPath h (hpath _ rfl)).of_idle (idle_workPath w)
    | createDirectory => exact (permitted_constructPath h (hpath _ rfl)).of_idle (idle_workPath w)
    | removeDirectory => exact (permitted_constructPath h (hpath _ rfl)).of_idle (idle_workPath w)
    | truncateFile =>
      exact (permitted_constructPath h (hpath _ rfl)).of_idle (idle_workTruncateFile hstorage w)
    | rename =>
      rcases idle_workRename w with hidle | hidle
      · exact h.of_idle hidle
      · exact (permitted_constructPath h (hpath _ rfl)).of_idle hidle

end Work

/-! ## Runs of the server -/

namespace Ftp

variable {O : Type*} {env : FtpEnv O} {ftp : Ftp (Traced O)}

/-- What the request brings into the first work buffer agrees with the session: its path, and the
contents of a buffer that is allocated anew. -/
structure RequestAgrees (env : FtpEnv O) (ftp : Ftp (Traced O)) (alloc : Allocation)
    (r : FtpRequest) : Prop where
  named : ∀ path ∈ r.message.payload.namedPath env, AgreesWithSession env ftp path
  allocated : ftp.workBuffer1 = none →
    ∀ path ∈ alloc.workBuffer1, AgreesWithSession env ftp path

instance (env : FtpEnv O) (ftp : Ftp (Traced O)) (alloc : Allocation) (r : FtpRequest) :
    Decidable (RequestAgrees env ftp alloc r) :=
  decidable_of_iff
    ((∀ path ∈ r.message.payload.namedPath env, AgreesWithSession env ftp path) ∧
      (ftp.workBuffer1 = none → ∀ path ∈ alloc.workBuffer1, AgreesWithSession env ftp path))
    ⟨fun h => ⟨h.1, h.2⟩, fun h => ⟨h.named, h.allocated⟩⟩

/-- The condition on an event: while a session is open, requests agree with it. -/
def EventAgrees (env : FtpEnv O) (ftp : Ftp (Traced O)) : FtpEvent → Prop
  | .request _ alloc r => RequestAgrees env ftp alloc r
  | .send _ => True

instance (env : FtpEnv O) (ftp : Ftp (Traced O)) :
    (e : FtpEvent) → Decidable (EventAgrees env ftp e)
  | .request .. => inferInstanceAs (Decidable (RequestAgrees ..))
  | .send _ => isTrue trivial

namespace Permitted

variable {alloc : Allocation} {result : Work (Traced O) × ErrorCode} {r : FtpRequest} {e : FtpEvent}

theorem ensureBuffersExist (h : ftp.Permitted env) (now)
    (halloc : ftp.workBuffer1 = none → ∀ path ∈ alloc.workBuffer1, AgreesWithSession env ftp path) :
    (ftp.ensureBuffersExist now alloc).Permitted env := by
  refine h.of_framed rfl (.refl _) fun path hpath => ?_
  change (ftp.workBuffer1 <|> alloc.workBuffer1) = some path at hpath
  cases hbuffer : ftp.workBuffer1 with
  | none =>
    rw [hbuffer] at hpath
    exact halloc hbuffer path hpath
  | some path' =>
    rw [hbuffer] at hpath
    cases hpath
    exact h.agrees path hbuffer

theorem respond (h : result.1.ftp.Permitted env) (r streamSend) :
    (respond r streamSend result).1.Permitted env := by
  unfold Ftp.respond
  split
  · exact h.of_framed rfl (.refl _) h.agrees
  · exact h.of_framed rfl (.refl _) h.agrees

theorem handleMessage (hstorage : Work.StorageIsWritable env) (h : ftp.Permitted env) (now)
    (hr : RequestAgrees env ftp alloc r) :
    (ftp.handleMessage env.traced now alloc r).1.Permitted env := by
  have hensure := h.ensureBuffersExist now hr.allocated
  unfold Ftp.handleMessage Ftp.processRequest
  split
  · split
    · exact respond (hensure.of_framed rfl (.refl _) hensure.agrees) r false
    next hbuffers =>
      split
      · exact respond hensure r false
      split
      · exact hensure
      · refine respond (Work.permitted_execute hstorage hensure ?_ hr.named) r _
        have hbuffers : ftp.hasBuffers alloc := by simpa using hbuffers
        exact (Bool.and_eq_true_iff.mp hbuffers).1
  · exact h

theorem releaseUnused (h : ftp.Permitted env) (now) :
    (ftp.releaseUnused env.traced now).Permitted env := by
  unfold Ftp.releaseUnused
  split
  · split
    · exact h.of_framed rfl (.refl _) nofun
    · exact h
  · split
    · exact h
    · split
      · exact .of_closed rfl h.written
      · exact h

theorem framed_streamRead {result : Except ErrorCode Bytes}
    {os} (h : ftp.streamRead env.traced = (os, result)) :
    Framed env ftp.session.fd ftp.os os := by
  unfold Ftp.streamRead at h
  split at h
  · cases h
    exact .refl _
  split at h
  · cases h
    exact .refl _
  split at h
  next hseek =>
    cases h
    exact .of_quiet hseek
  next t _ hseek =>
    have hseek : Framed env ftp.session.fd ftp.os t := .of_quiet hseek
    split at h
    next hread =>
      cases h
      exact hseek.trans (.of_quiet hread)
    next hread =>
      cases h
      exact hseek.trans (.of_quiet hread)

theorem sendLoop (uninitialized fuel) (h : ftp.Permitted env) (maxBytesToSend) :
    (ftp.sendLoop env.traced uninitialized fuel maxBytesToSend).1.Permitted env := by
  induction fuel generalizing ftp maxBytesToSend with
  | zero => exact h
  | succ fuel ih =>
    unfold Ftp.sendLoop
    dsimp only
    split
    next hread => exact h.of_framed rfl (framed_streamRead hread) h.agrees
    next hread =>
      have hframed := framed_streamRead hread
      split
      · unfold Ftp.replyLast
        split
        · exact h.of_framed rfl hframed h.agrees
        · exact h.of_framed rfl hframed h.agrees
      · apply ih
        exact h.of_framed rfl hframed h.agrees

theorem send (h : ftp.Permitted env) (c) : (ftp.send env.traced c).1.Permitted env := by
  have hrelease := h.releaseUnused c.now
  unfold Ftp.send
  dsimp only
  split
  · exact hrelease.sendLoop ..
  · exact hrelease

theorem step (hstorage : Work.StorageIsWritable env) (h : ftp.Permitted env)
    (he : EventAgrees env ftp e) : (ftp.step env.traced e).Permitted env := by
  cases e with
  | request now alloc r => exact handleMessage hstorage h now he
  | send c => exact h.send c

theorem init (os) : (Ftp.init ({ os } : Traced O)).Permitted env := .of_closed rfl nofun

end Permitted

variable (env) in
/-- `_workWrite` rejects the request because of the path. -/
def rejectsWrite (ftp : Ftp (Traced O)) (now : UInt64) (alloc : Allocation) (r : FtpRequest) :
    Bool :=
  (Work.workWrite env.traced
    { ftp := ftp.ensureBuffersExist now alloc, payload := r.message.payload }).2 =
      .failFileProtected

/-- A request to write to the open session that the server executes. -/
structure WritesSession (ftp : Ftp (Traced O)) (alloc : Allocation) (r : FtpRequest) : Prop where
  buffers : ftp.hasBuffers alloc
  opcode : r.message.payload.header.opcode = 7
  session : r.message.payload.header.session = 0

variable {alloc : Allocation} {r : FtpRequest} {p : Path} {now : UInt64}

/-- The decision about a request to write, by the path with which the session was opened. -/
theorem Permitted.rejectsWrite_iff (h : ftp.Permitted env)
    (hr : RequestAgrees env ftp alloc r) (hwrite : ftp.WritesSession alloc r)
    (hp : ftp.openedPath = some p) :
    ftp.rejectsWrite env now alloc r ↔ ¬env.validatePathIsWritable p := by
  unfold rejectsWrite
  rw [decide_eq_true_iff]
  exact Work.workWrite_protected (h.ensureBuffersExist now hr.allocated)
    (Bool.and_eq_true_iff.mp hwrite.buffers).1 hwrite.session hp

end Ftp

/-- Two runs of the server, on any operating systems and with any events, in which no request that
arrives while a session is open brings a path of another permission into the first work buffer.
Bytes are written only to files that were opened with a writable path, and if the sessions of both
runs were opened with the same path, requests to write are rejected in both or in none. -/
theorem write_permission_of_session {O : Type*} (env : FtpEnv O)
    (hstorage : Work.StorageIsWritable env) (os₁ os₂ : O) (es₁ es₂ : List FtpEvent)
    (h₁ : Run.Along (Ftp.step env.traced) (Ftp.EventAgrees env) (.init { os := os₁ }) es₁)
    (h₂ : Run.Along (Ftp.step env.traced) (Ftp.EventAgrees env) (.init { os := os₂ }) es₂) :
    let ftp₁ := after (Ftp.step env.traced) (.init { os := os₁ }) es₁
    let ftp₂ := after (Ftp.step env.traced) (.init { os := os₂ }) es₂
    (∀ entry ∈ ftp₁.os.written, ∃ p, entry = some p ∧ env.validatePathIsWritable p) ∧
      ∀ p now₁ alloc₁ r₁ now₂ alloc₂ r₂, ftp₁.openedPath = some p → ftp₂.openedPath = some p →
        ftp₁.WritesSession alloc₁ r₁ → ftp₂.WritesSession alloc₂ r₂ →
        Ftp.RequestAgrees env ftp₁ alloc₁ r₁ → Ftp.RequestAgrees env ftp₂ alloc₂ r₂ →
        ftp₁.rejectsWrite env now₁ alloc₁ r₁ = ftp₂.rejectsWrite env now₂ alloc₂ r₂ := by
  intro ftp₁ ftp₂
  have hpermitted₁ : ftp₁.Permitted env :=
    after_of_invariant (fun _ _ h he => h.step hstorage he) (.init os₁) h₁
  have hpermitted₂ : ftp₂.Permitted env :=
    after_of_invariant (fun _ _ h he => h.step hstorage he) (.init os₂) h₂
  refine ⟨hpermitted₁.written, ?_⟩
  intro p now₁ alloc₁ r₁ now₂ alloc₂ r₂ hp₁ hp₂ hw₁ hw₂ hr₁ hr₂
  rw [Bool.eq_iff_iff, hpermitted₁.rejectsWrite_iff hr₁ hw₁ hp₁,
    hpermitted₂.rejectsWrite_iff hr₂ hw₂ hp₂]

/-! An operating system that opens and writes everything. -/

def microsd : Path := ascii ['/', 'f', 's', '/', 'm', 'i', 'c', 'r', 'o', 's', 'd']

/-- The path `/fs/microsd/a`. -/
def storedFile : Path := microsd ++ ascii ['/', 'a']

/-- The path `/fs/mtd_params`, which is not on the storage. -/
def systemFile : Path :=
  ascii ['/', 'f', 's', '/', 'm', 't', 'd', '_', 'p', 'a', 'r', 'a', 'm', 's']

/-- Its calls: there is one descriptor. -/
def openAnything : FtpEnv Unit :=
  { FtpEnv.failing Unit with
    boardRootPath := microsd
    storageDir := microsd
    openFile := fun os _ _ => (os, some 3)
    lseek := fun os _ _ => (os, some ())
    write := fun os _ bytes => (os, some bytes.length) }

/-- A request with this opcode and data. -/
def requestOf (seqNumber : UInt16) (opcode : UInt8) (data : Bytes) : FtpRequest where
  message :=
    { targetSystem := 1
      targetComponent := 1
      payload :=
        { header := { seqNumber, opcode, size := .ofNat data.length }
          data := fun i => data.getD i 0 } }
  systemId := 255
  componentId := 190

/-- It arrives at the given time, with memory for both work buffers. -/
def FtpRequest.event (r : FtpRequest) (now : UInt64) : FtpEvent :=
  .request now ⟨some [], true⟩ r

/-- A file is opened for writing. -/
def opening (path : Path) : List FtpEvent := [(requestOf 1 11 path).event 0]

/-- Then the storage is listed. -/
def listing (path : Path) : List FtpEvent :=
  opening path ++ [(requestOf 2 3 (microsd ++ [slash])).event 100]

theorem write_permission_of_stored_file :
    let ftp₁ := after (Ftp.step openAnything.traced) (.init { os := () }) (opening storedFile)
    let ftp₂ := after (Ftp.step openAnything.traced) (.init { os := () }) (listing storedFile)
    ftp₁.rejectsWrite openAnything 200 ⟨some [], true⟩ (requestOf 3 7 [1]) =
      ftp₂.rejectsWrite openAnything 200 ⟨some [], true⟩ (requestOf 3 7 [1]) :=
  (write_permission_of_session openAnything
      (show openAnything.validatePathIsWritable _ by decide +kernel) () () (opening storedFile)
      (listing storedFile) (by decide +kernel) (by decide +kernel)).2
    storedFile 200 ⟨some [], true⟩ (requestOf 3 7 [1]) 200 ⟨some [], true⟩ (requestOf 3 7 [1])
    (by decide +kernel) (by decide +kernel) ⟨by decide +kernel, rfl, rfl⟩
    ⟨by decide +kernel, rfl, rfl⟩ (by decide +kernel) (by decide +kernel)

/-- A system file is opened. A request to write to it is rejected, unless a directory on the storage
has been listed before: then the bytes are written. -/
theorem listing_permits_write :
    let ftp₁ := after (Ftp.step openAnything.traced) (.init { os := () }) (opening systemFile)
    let ftp₂ := after (Ftp.step openAnything.traced) (.init { os := () }) (listing systemFile)
    let ftp₃ := ftp₂.step openAnything.traced ((requestOf 3 7 [1]).event 200)
    ftp₁.openedPath = some systemFile ∧ ftp₂.openedPath = some systemFile ∧
      ftp₁.rejectsWrite openAnything 200 ⟨some [], true⟩ (requestOf 3 7 [1]) = true ∧
      ftp₂.rejectsWrite openAnything 200 ⟨some [], true⟩ (requestOf 3 7 [1]) = false ∧
      ftp₃.os.written = [some systemFile] ∧
      openAnything.validatePathIsWritable systemFile = false := by
  decide +kernel

end Px4.MavlinkFtp
