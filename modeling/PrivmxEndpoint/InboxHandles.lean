import PrivmxEndpoint.GuardedRuns
import PrivmxEndpoint.RecordLayer
import PrivmxEndpoint.ThrowingPrograms

/-!
# The handles of prepared inbox entries

An `InboxHandleManager` keeps four tables: the handles that were given out, the
files, the prepared entries, and a list with one mark for each file of each
prepared entry.  The calls of `InboxApiImpl` change them one after the other, and
an exception may come between any two changes.
-/

namespace PrivmxEndpoint

namespace Inbox

open Throwing Runs

/-- The exceptions of a file, of the server and of the cryptography. -/
inductive CallException
  | dataDifferentThanDeclared
  | other (code : ℕ)
  deriving Repr, DecidableEq

/-- The exceptions of the calls on handles. -/
inductive HandleException
  | unknownInboxHandle
  | invalidFileHandle
  | storeInvalidFileWriteHandle
  | invalidFileWriteHandle
  | invalidFileReadHandle
  | handleIsUsedInInboxHandle
  | writingToEntryInterupted
  /-- `erase(end())`, which C++ leaves undefined. -/
  | eraseOfEnd
  | call (e : CallException)
  deriving Repr, DecidableEq

/-- `isReadHandle` and `isWriteHandle` of a `store::FileHandle`. -/
inductive FileHandleKind
  | read
  | write
  deriving Repr, DecidableEq

/-- `InboxHandle`; a file is named by its handle. -/
structure InboxHandle where
  id : ℕ
  inboxId : Bytes
  inboxResourceId : Bytes
  data : Bytes
  inboxFileHandles : List ℕ
  userPrivKey : Option Bytes
  deriving Repr, DecidableEq

/-- The state of `core::HandleManager`, `store::FileHandleManager` and
`InboxHandleManager`. -/
structure InboxHandleManager where
  /-- `HandleManager::_id`. -/
  lastId : ℕ
  /-- `HandleManager::_map`. -/
  labels : AList (fun _ : ℕ => String)
  /-- `FileHandleManager::_map`. -/
  fileHandles : AList (fun _ : ℕ => FileHandleKind)
  /-- `InboxHandleManager::_map`. -/
  inboxHandles : AList (fun _ : ℕ => InboxHandle)
  fileHandlesUsedByInboxHandles : List ℕ
  /-- Not in the code: the entries that the server has taken. -/
  sent : List ℕ

/-- The managers of a new connection. -/
def InboxHandleManager.initial : InboxHandleManager where
  lastId := 0
  labels := ∅
  fileHandles := ∅
  inboxHandles := ∅
  fileHandlesUsedByInboxHandles := []
  sent := []

/-- Programs over the managers. -/
abbrev HandleProg := Prog HandleException InboxHandleManager

/-- A call that ends in some way. -/
def answer {α : Type} (x : Except CallException α) : HandleProg α :=
  lift (x.mapError .call)

namespace InboxHandleManager

/-- The first id after `id` that is not taken; a map with `fuel` entries cannot
take more. -/
def nextFree (labels : AList (fun _ : ℕ => String)) : ℕ → ℕ → ℕ
  | 0, id => id + 1
  | fuel + 1, id => if id + 1 ∈ labels then nextFree labels fuel (id + 1) else id + 1

/-- `HandleManager::createHandle`. -/
def createHandle (label : String) : HandleProg ℕ := do
  let s ← get
  let id := nextFree s.labels s.labels.entries.length s.lastId
  modify fun s => { s with lastId := id, labels := s.labels.insert id label }
  return id

/-- `HandleManager::removeHandle`. -/
def removeHandle (id : ℕ) : HandleProg Unit :=
  modify fun s => { s with labels := s.labels.erase id }

/-- `FileHandleManager::getFileHandle`. -/
def getFileHandle (id : ℕ) : HandleProg FileHandleKind := do
  let s ← get
  match s.fileHandles.lookup id with
  | none => throw .invalidFileHandle
  | some kind => return kind

/-- `FileHandleManager::getFileWriteHandle`. -/
def storeGetFileWriteHandle (id : ℕ) : HandleProg Unit := do
  let kind ← getFileHandle id
  if kind ≠ .write then throw .storeInvalidFileWriteHandle

/-- `FileHandleManager::removeHandle`. -/
def removeStoreHandle (id : ℕ) : HandleProg Unit := do
  let s ← get
  if id ∉ s.fileHandles then throw .invalidFileHandle
  modify fun s => { s with fileHandles := s.fileHandles.erase id }
  removeHandle id

/-- `InboxHandleManager::getFileWriteHandle`. -/
def getFileWriteHandle (id : ℕ) : HandleProg Unit := do
  let kind ← getFileHandle id
  if kind ≠ .write then throw .invalidFileWriteHandle
  storeGetFileWriteHandle id

/-- `InboxHandleManager::removeFileHandle`. -/
def removeFileHandle (id : ℕ) (force : Bool) : HandleProg Unit := do
  let s ← get
  if force then
    if id ∉ s.fileHandlesUsedByInboxHandles then throw .eraseOfEnd
    modify fun s =>
      { s with fileHandlesUsedByInboxHandles := s.fileHandlesUsedByInboxHandles.erase id }
  else
    if id ∈ s.fileHandlesUsedByInboxHandles then throw .handleIsUsedInInboxHandle
  removeStoreHandle id

/-- `InboxHandleManager::getInboxHandle`. -/
def getInboxHandle (id : ℕ) : HandleProg InboxHandle := do
  let s ← get
  match s.inboxHandles.lookup id with
  | none => throw .unknownInboxHandle
  | some inboxHandle => return inboxHandle

/-- `InboxHandleManager::createInboxHandle`. -/
def createInboxHandle (inboxId inboxResourceId data : Bytes) (inboxFileHandles : List ℕ)
    (userPrivKey : Option Bytes) : HandleProg ℕ := do
  inboxFileHandles.forM fun inboxFileHandle => do
    storeGetFileWriteHandle inboxFileHandle
    modify fun s => { s with
      fileHandlesUsedByInboxHandles := s.fileHandlesUsedByInboxHandles ++ [inboxFileHandle] }
  let id ← createHandle "Inbox:FilesWrite"
  let result : InboxHandle :=
    { id := id
      inboxId := inboxId
      inboxResourceId := inboxResourceId
      data := data
      inboxFileHandles := inboxFileHandles
      userPrivKey := userPrivKey }
  modify fun s => { s with inboxHandles := s.inboxHandles.insert id result }
  return id

end InboxHandleManager

/-- `CommitFileInfo`, as far as an entry is made from it. -/
structure CommitFileInfo where
  requestId : Bytes
  size : ℕ
  publicMeta : Bytes
  privateMeta : Bytes
  deriving Repr, DecidableEq

/-- `inbox::server::InboxSendModel`, without the fresh resource ids. -/
structure InboxSendModel where
  requestId : Option Bytes
  /-- The index and the encrypted record of each file. -/
  files : List (ℕ × Bytes)
  inboxId : Bytes
  message : Bytes
  deriving Repr, DecidableEq

/-- How the calls end that `InboxApiImpl::sendEntry` makes. -/
structure SendCalls where
  /-- `getInboxPublicViewData`, and the keys of the inbox and of the sender. -/
  readKeys : InboxHandle → Except CallException Unit
  /-- `isReadyToFinalize` of a file. -/
  isReadyToFinalize : ℕ → Bool
  /-- `finalize` of a file. -/
  finalize : ℕ → Except CallException CommitFileInfo
  encryptFileMeta : CommitFileInfo → Except CallException Bytes
  packMessage : InboxHandle → Except CallException Bytes
  inboxSend : InboxSendModel → Except CallException Unit

namespace SendCalls

variable (calls : SendCalls)

/-- The files of an entry are committed: first all of them are looked at. -/
def commitFiles (files : List ℕ) : Except CallException (List CommitFileInfo) :=
  if files.all calls.isReadyToFinalize then files.mapM calls.finalize
  else .error .dataDifferentThanDeclared

/-- What `sendEntry` does after the files are committed. -/
def transmit (handle : InboxHandle) (filesInfo : List CommitFileInfo) :
    Except CallException Unit := do
  let metas ← filesInfo.mapM calls.encryptFileMeta
  let serializedMessage ← calls.packMessage handle
  calls.inboxSend
    { requestId := filesInfo.head?.map (·.requestId)
      files := (List.range metas.length).zip metas
      inboxId := handle.inboxId
      message := serializedMessage }

end SendCalls

/-- How the calls end that `InboxApiImpl::prepareEntry` makes. -/
structure PrepareCalls where
  /-- `getInboxPublicViewData`, which yields the resource id. -/
  getInboxPublicViewData : Bytes → Except CallException Bytes
  /-- `createRequest` for files. -/
  createRequest : List ℕ → Except CallException Unit

namespace InboxHandleManager

/-- `InboxHandleManager::commitInboxHandle`. -/
def commitInboxHandle (calls : SendCalls) (id : ℕ) : HandleProg (List CommitFileInfo) := do
  let inboxHandle ← getInboxHandle id
  let filesInfo ← answer (calls.commitFiles inboxHandle.inboxFileHandles)
  modify fun s => { s with inboxHandles := s.inboxHandles.erase id }
  removeHandle id
  inboxHandle.inboxFileHandles.forM (removeFileHandle · true)
  return filesInfo

/-- `InboxHandleManager::abortInboxHandle`. -/
def abortInboxHandle (id : ℕ) : HandleProg Unit := do
  let inboxHandle ← getInboxHandle id
  modify fun s => { s with inboxHandles := s.inboxHandles.erase id }
  removeHandle id
  inboxHandle.inboxFileHandles.forM (removeFileHandle · true)

/-- `InboxApiImpl::createFileHandle`. -/
def createFileHandle : HandleProg ℕ := do
  let id ← createHandle "Inbox:FileWrite"
  modify fun s => { s with fileHandles := s.fileHandles.insert id .write }
  return id

/-- `InboxApiImpl::openFile`: the file is found and decrypted before the handle
is taken, its reader is made afterwards. -/
def openFile (found constructed : Except CallException Unit) : HandleProg ℕ := do
  answer found
  let id ← createHandle "Inbox:FileRead"
  answer constructed
  modify fun s => { s with fileHandles := s.fileHandles.insert id .read }
  return id

/-- `InboxApiImpl::closeFile`. -/
def closeFile (handle : ℕ) : HandleProg Unit := do
  let kind ← getFileHandle handle
  if kind ≠ .read then throw .invalidFileReadHandle
  removeFileHandle handle false

/-- `InboxApiImpl::prepareEntry`. -/
def prepareEntry (calls : PrepareCalls) (inboxId data : Bytes) (inboxFileHandles : List ℕ)
    (userPrivKey : Option Bytes) : HandleProg ℕ := do
  let resourceId ← answer (calls.getInboxPublicViewData inboxId)
  if inboxFileHandles ≠ [] then
    inboxFileHandles.forM getFileWriteHandle
    answer (calls.createRequest inboxFileHandles)
  createInboxHandle inboxId resourceId data inboxFileHandles userPrivKey

/-- The part of `sendEntry` that commits the files of an entry. -/
def commitOrAbort (calls : SendCalls) (inboxHandle : ℕ) : HandleProg (List CommitFileInfo) :=
  tryCatch (commitInboxHandle calls inboxHandle) fun e =>
    if e = .call .dataDifferentThanDeclared then do
      abortInboxHandle inboxHandle
      throw .writingToEntryInterupted
    else throw e

/-- `InboxApiImpl::sendEntry`. -/
def sendEntry (calls : SendCalls) (inboxHandle : ℕ) : HandleProg Unit := do
  let handle ← getInboxHandle inboxHandle
  answer (calls.readKeys handle)
  let filesInfo ←
    if handle.inboxFileHandles ≠ [] then commitOrAbort calls inboxHandle else pure []
  answer (calls.transmit handle filesInfo)
  modify fun s => { s with sent := s.sent ++ [inboxHandle] }

/-! ### The tables -/

/-- A file handle is found under its id, or the call throws. -/
theorem exec_getFileHandle (id : ℕ) (s : InboxHandleManager) :
    exec (getFileHandle id) s =
      match s.fileHandles.lookup id with
      | none => (.error .invalidFileHandle, s)
      | some kind => (.ok kind, s) := by
  unfold getFileHandle
  rw [exec_get_bind]
  cases s.fileHandles.lookup id with
  | none => rfl
  | some kind => rfl

/-- An entry is found under its id, or the call throws. -/
theorem exec_getInboxHandle (id : ℕ) (s : InboxHandleManager) :
    exec (getInboxHandle id) s =
      match s.inboxHandles.lookup id with
      | none => (.error .unknownInboxHandle, s)
      | some inboxHandle => (.ok inboxHandle, s) := by
  unfold getInboxHandle
  rw [exec_get_bind]
  cases s.inboxHandles.lookup id with
  | none => rfl
  | some inboxHandle => rfl

/-- A write handle passes the store's check. -/
theorem exec_storeGetFileWriteHandle {id : ℕ} {s : InboxHandleManager}
    (h : s.fileHandles.lookup id = some .write) :
    exec (storeGetFileWriteHandle id) s = (.ok (), s) := by
  unfold storeGetFileWriteHandle
  rw [exec_bind, exec_getFileHandle, h]
  rfl

/-- The check changes nothing: it passes for a write handle and throws for the rest. -/
theorem exec_getFileWriteHandle (id : ℕ) (s : InboxHandleManager) :
    exec (getFileWriteHandle id) s = (.ok (), s) ∧ s.fileHandles.lookup id = some .write ∨
      ∃ e, exec (getFileWriteHandle id) s = (.error e, s) := by
  unfold getFileWriteHandle
  rw [exec_bind, exec_getFileHandle]
  cases hkind : s.fileHandles.lookup id with
  | none => exact Or.inr ⟨_, rfl⟩
  | some kind =>
      cases kind with
      | read => exact Or.inr ⟨_, rfl⟩
      | write => exact Or.inl ⟨exec_storeGetFileWriteHandle hkind, rfl⟩

/-- One file of an entry is given up. -/
def dropFile (s : InboxHandleManager) (id : ℕ) : InboxHandleManager :=
  { s with
    fileHandlesUsedByInboxHandles := s.fileHandlesUsedByInboxHandles.erase id
    fileHandles := s.fileHandles.erase id
    labels := s.labels.erase id }

/-- A forced removal takes the file of an entry. -/
theorem exec_removeFileHandle_force {id : ℕ} {s : InboxHandleManager}
    (hused : id ∈ s.fileHandlesUsedByInboxHandles) (hfile : id ∈ s.fileHandles) :
    exec (removeFileHandle id true) s = (.ok (), s.dropFile id) := by
  unfold removeFileHandle
  rw [exec_get_bind]
  simp only [if_true, hused, not_true_eq_false, if_false]
  rw [exec_modify_bind]
  unfold removeStoreHandle
  rw [exec_get_bind]
  simp only [hfile, not_true_eq_false, if_false]
  rfl

/-- Without force the file of an entry stays. -/
theorem exec_removeFileHandle_used {id : ℕ} {s : InboxHandleManager}
    (hused : id ∈ s.fileHandlesUsedByInboxHandles) :
    exec (removeFileHandle id false) s = (.error .handleIsUsedInInboxHandle, s) := by
  unfold removeFileHandle
  rw [exec_get_bind]
  simp only [Bool.false_eq_true, if_false, hused, if_true]
  rfl

/-- A file that no entry uses is removed. -/
theorem exec_removeFileHandle_unused {id : ℕ} {s : InboxHandleManager}
    (hunused : id ∉ s.fileHandlesUsedByInboxHandles) (hfile : id ∈ s.fileHandles) :
    exec (removeFileHandle id false) s = (.ok (),
      { s with fileHandles := s.fileHandles.erase id, labels := s.labels.erase id }) := by
  unfold removeFileHandle
  rw [exec_get_bind]
  simp only [Bool.false_eq_true, if_false, hunused]
  unfold removeStoreHandle
  rw [exec_get_bind]
  simp only [hfile, not_true_eq_false, if_false]
  rfl

/-- The id that `createHandle` gives out. -/
def freshId (s : InboxHandleManager) : ℕ :=
  nextFree s.labels s.labels.entries.length s.lastId

/-- An id is given out. -/
def takeId (s : InboxHandleManager) (label : String) : InboxHandleManager :=
  { s with lastId := s.freshId, labels := s.labels.insert s.freshId label }

/-- A new handle has an id that was free. -/
theorem exec_createHandle (label : String) (s : InboxHandleManager) :
    exec (createHandle label) s = (.ok s.freshId, s.takeId label) := rfl

/-- The search for a free id only goes up. -/
theorem lt_nextFree (labels : AList (fun _ : ℕ => String)) (fuel id : ℕ) :
    id < nextFree labels fuel id := by
  induction fuel generalizing id with
  | zero => exact Nat.lt_succ_self id
  | succ fuel ih =>
      unfold nextFree
      split
      · exact lt_trans (Nat.lt_succ_self id) (ih (id + 1))
      · exact Nat.lt_succ_self id

/-- A new id is above the last one. -/
theorem lastId_lt_freshId (s : InboxHandleManager) : s.lastId < s.freshId :=
  lt_nextFree _ _ _


@[simp] theorem exec_answer_ok_bind {α β : Type} (a : α) (f : α → HandleProg β)
    (s : InboxHandleManager) : exec (answer (.ok a) >>= f) s = exec (f a) s := rfl

@[simp] theorem exec_answer_error_bind {α β : Type} (e : CallException) (f : α → HandleProg β)
    (s : InboxHandleManager) : exec (answer (.error e) >>= f) s = (.error (.call e), s) := rfl

/-! ### What the loops do -/

@[simp] theorem exec_forM_nil {α : Type} (f : α → HandleProg PUnit) (s : InboxHandleManager) :
    exec (([] : List α).forM f) s = (.ok ⟨⟩, s) := rfl

/-- A loop runs its body and then the rest. -/
theorem exec_forM_cons {α : Type} (a : α) (as : List α) (f : α → HandleProg PUnit)
    (s : InboxHandleManager) :
    exec ((a :: as).forM f) s = exec (f a >>= fun _ => as.forM f) s := rfl

/-- The files of an entry are looked up before anything is changed. -/
theorem exec_forM_getFileWriteHandle (files : List ℕ) (s : InboxHandleManager) :
    exec (files.forM getFileWriteHandle) s = (.ok (), s) ∧
        (∀ f ∈ files, s.fileHandles.lookup f = some .write) ∨
      ∃ e, exec (files.forM getFileWriteHandle) s = (.error e, s) := by
  induction files with
  | nil => exact Or.inl ⟨rfl, by simp⟩
  | cons f files ih =>
      rw [exec_forM_cons, exec_bind]
      obtain ⟨hf, hwrite⟩ | ⟨e, hf⟩ := exec_getFileWriteHandle f s
      · rw [hf]
        obtain ⟨hrest, hall⟩ | ⟨e, hrest⟩ := ih
        · exact Or.inl ⟨hrest, by simpa using ⟨hwrite, hall⟩⟩
        · exact Or.inr ⟨e, hrest⟩
      · rw [hf]
        exact Or.inr ⟨e, rfl⟩

/-- The marks of an entry are set. -/
def markFiles (s : InboxHandleManager) (files : List ℕ) : InboxHandleManager :=
  { s with fileHandlesUsedByInboxHandles := s.fileHandlesUsedByInboxHandles ++ files }

/-- The loop over the files of an entry marks all of them when all of them pass. -/
theorem exec_markFiles {files : List ℕ} {s : InboxHandleManager}
    (h : ∀ f ∈ files, s.fileHandles.lookup f = some .write) :
    exec (files.forM fun f => do
        storeGetFileWriteHandle f
        modify fun s => s.markFiles [f]) s = (.ok (), s.markFiles files) := by
  induction files generalizing s with
  | nil => simp [markFiles]
  | cons f files ih =>
      rw [exec_forM_cons, exec_bind, exec_bind, exec_storeGetFileWriteHandle (h f (by simp))]
      dsimp only
      rw [exec_modify]
      dsimp only
      refine (ih (s := s.markFiles [f]) fun g hg => h g (by simp [hg])).trans ?_
      simp [markFiles]

/-- The files of an entry are given up. -/
def dropFiles (s : InboxHandleManager) (files : List ℕ) : InboxHandleManager :=
  files.foldl dropFile s

@[simp] theorem dropFiles_inboxHandles (s : InboxHandleManager) (files : List ℕ) :
    (s.dropFiles files).inboxHandles = s.inboxHandles := by
  induction files generalizing s with
  | nil => rfl
  | cons f files ih => exact ih (s.dropFile f)

@[simp] theorem dropFiles_lastId (s : InboxHandleManager) (files : List ℕ) :
    (s.dropFiles files).lastId = s.lastId := by
  induction files generalizing s with
  | nil => rfl
  | cons f files ih => exact ih (s.dropFile f)

@[simp] theorem dropFiles_sent (s : InboxHandleManager) (files : List ℕ) :
    (s.dropFiles files).sent = s.sent := by
  induction files generalizing s with
  | nil => rfl
  | cons f files ih => exact ih (s.dropFile f)

@[simp] theorem dropFiles_used (s : InboxHandleManager) (files : List ℕ) :
    (s.dropFiles files).fileHandlesUsedByInboxHandles =
      s.fileHandlesUsedByInboxHandles.diff files := by
  induction files generalizing s with
  | nil => rfl
  | cons f files ih =>
      refine (ih (s.dropFile f)).trans ?_
      rw [List.diff_cons]
      rfl

/-- The other files stay. -/
theorem dropFiles_lookup (s : InboxHandleManager) {files : List ℕ} {f : ℕ} (h : f ∉ files) :
    (s.dropFiles files).fileHandles.lookup f = s.fileHandles.lookup f := by
  induction files generalizing s with
  | nil => rfl
  | cons g files ih =>
      rw [List.mem_cons, not_or] at h
      refine (ih (s.dropFile g) h.2).trans ?_
      exact AList.lookup_erase_ne h.1

/-- Dropping files adds none. -/
theorem mem_of_mem_dropFiles {s : InboxHandleManager} {files : List ℕ} {id : ℕ}
    (h : id ∈ (s.dropFiles files).fileHandles) : id ∈ s.fileHandles := by
  induction files generalizing s with
  | nil => exact h
  | cons f files ih => exact (AList.mem_erase.mp (ih (s := s.dropFile f) h)).2

/-- Different files that are marked and registered are given up without an
exception. -/
theorem exec_dropFiles {files : List ℕ} {s : InboxHandleManager} (hnodup : files.Nodup)
    (hused : ∀ f ∈ files, f ∈ s.fileHandlesUsedByInboxHandles)
    (hfiles : ∀ f ∈ files, f ∈ s.fileHandles) :
    exec (files.forM (removeFileHandle · true)) s = (.ok (), s.dropFiles files) := by
  induction files generalizing s with
  | nil => rfl
  | cons f files ih =>
      obtain ⟨hf, hnodup⟩ := List.nodup_cons.mp hnodup
      rw [exec_forM_cons, exec_bind,
        exec_removeFileHandle_force (hused f (by simp)) (hfiles f (by simp))]
      have hne : ∀ g ∈ files, g ≠ f := fun g hg heq => hf (heq ▸ hg)
      refine ih hnodup (fun g hg => ?_) (fun g hg => ?_)
      · exact (List.mem_erase_of_ne (hne g hg)).mpr (hused g (by simp [hg]))
      · exact AList.mem_erase.mpr ⟨hne g hg, hfiles g (by simp [hg])⟩


/-! ### What the calls do -/

/-- An entry is prepared. -/
def addEntry (s : InboxHandleManager) (inboxId resourceId data : Bytes) (files : List ℕ)
    (userPrivKey : Option Bytes) : InboxHandleManager :=
  { (s.markFiles files).takeId "Inbox:FilesWrite" with
    inboxHandles := s.inboxHandles.insert s.freshId
      { id := s.freshId
        inboxId := inboxId
        inboxResourceId := resourceId
        data := data
        inboxFileHandles := files
        userPrivKey := userPrivKey } }

/-- An entry over write handles is recorded under a new id. -/
theorem exec_createInboxHandle (inboxId resourceId data : Bytes) {files : List ℕ}
    (userPrivKey : Option Bytes) {s : InboxHandleManager}
    (h : ∀ f ∈ files, s.fileHandles.lookup f = some .write) :
    exec (createInboxHandle inboxId resourceId data files userPrivKey) s =
      (.ok s.freshId, s.addEntry inboxId resourceId data files userPrivKey) := by
  unfold createInboxHandle
  rw [exec_bind]
  have hmark := exec_markFiles h
  unfold markFiles at hmark
  rw [hmark]
  rfl

/-- `prepareEntry` either changes nothing or goes through with registered files. -/
theorem exec_prepareEntry (calls : PrepareCalls) (inboxId data : Bytes) (files : List ℕ)
    (userPrivKey : Option Bytes) (s : InboxHandleManager) :
    (∃ e, exec (prepareEntry calls inboxId data files userPrivKey) s = (.error e, s)) ∨
      ∃ resourceId,
        exec (prepareEntry calls inboxId data files userPrivKey) s =
          (.ok s.freshId, s.addEntry inboxId resourceId data files userPrivKey) ∧
        ∀ f ∈ files, s.fileHandles.lookup f = some .write := by
  unfold prepareEntry
  cases hview : calls.getInboxPublicViewData inboxId with
  | error e => exact Or.inl ⟨_, exec_answer_error_bind e _ s⟩
  | ok resourceId =>
      rw [exec_answer_ok_bind]
      by_cases hfiles : files = []
      · subst hfiles
        simp only [ne_eq, not_true_eq_false, if_false]
        exact Or.inr ⟨resourceId,
          exec_createInboxHandle inboxId resourceId data userPrivKey (by simp), by simp⟩
      · simp only [ne_eq, hfiles, not_false_eq_true, if_true]
        rw [exec_bind]
        obtain ⟨hlook, hall⟩ | ⟨e, hlook⟩ := exec_forM_getFileWriteHandle files s
        · rw [hlook]
          dsimp only
          cases hreq : calls.createRequest files with
          | error e => exact Or.inl ⟨_, exec_answer_error_bind e _ s⟩
          | ok _ =>
              rw [exec_answer_ok_bind]
              exact Or.inr ⟨resourceId,
                exec_createInboxHandle inboxId resourceId data userPrivKey hall, hall⟩
        · rw [hlook]
          exact Or.inl ⟨e, rfl⟩

/-- An entry is erased. -/
def eraseEntry (s : InboxHandleManager) (id : ℕ) : InboxHandleManager :=
  { s with inboxHandles := s.inboxHandles.erase id, labels := s.labels.erase id }

/-- An entry and its files are given up. -/
def dropEntry (s : InboxHandleManager) (id : ℕ) (files : List ℕ) : InboxHandleManager :=
  (s.eraseEntry id).dropFiles files

/-- The files of an entry can be given up one after the other. -/
structure Droppable (s : InboxHandleManager) (files : List ℕ) : Prop where
  nodup : files.Nodup
  used : ∀ f ∈ files, f ∈ s.fileHandlesUsedByInboxHandles
  registered : ∀ f ∈ files, f ∈ s.fileHandles

/-- Aborting a live entry drops it with its files. -/
theorem exec_abortInboxHandle {id : ℕ} {s : InboxHandleManager} {handle : InboxHandle}
    (hlive : s.inboxHandles.lookup id = some handle)
    (hdrop : s.Droppable handle.inboxFileHandles) :
    exec (abortInboxHandle id) s = (.ok (), s.dropEntry id handle.inboxFileHandles) := by
  unfold abortInboxHandle
  rw [exec_bind, exec_getInboxHandle, hlive]
  exact exec_dropFiles hdrop.nodup hdrop.used hdrop.registered

/-- A commit that throws leaves the entry as it was. -/
theorem exec_commitInboxHandle_error {calls : SendCalls} {id : ℕ} {s : InboxHandleManager}
    {handle : InboxHandle} {e : CallException} (hlive : s.inboxHandles.lookup id = some handle)
    (hcommit : calls.commitFiles handle.inboxFileHandles = .error e) :
    exec (commitInboxHandle calls id) s = (.error (.call e), s) := by
  unfold commitInboxHandle
  rw [exec_bind, exec_getInboxHandle, hlive]
  dsimp only
  rw [hcommit]
  rfl

/-- A commit that succeeds drops the entry with its files. -/
theorem exec_commitInboxHandle_ok {calls : SendCalls} {id : ℕ} {s : InboxHandleManager}
    {handle : InboxHandle} {filesInfo : List CommitFileInfo}
    (hlive : s.inboxHandles.lookup id = some handle)
    (hcommit : calls.commitFiles handle.inboxFileHandles = .ok filesInfo)
    (hdrop : s.Droppable handle.inboxFileHandles) :
    exec (commitInboxHandle calls id) s =
      (.ok filesInfo, s.dropEntry id handle.inboxFileHandles) := by
  unfold commitInboxHandle
  rw [exec_bind, exec_getInboxHandle, hlive]
  dsimp only
  rw [hcommit]
  show exec (handle.inboxFileHandles.forM (removeFileHandle · true) >>= fun _ =>
    pure filesInfo) (s.eraseEntry id) = _
  rw [exec_bind,
    exec_dropFiles (s := s.eraseEntry id) hdrop.nodup hdrop.used hdrop.registered]
  rfl

end InboxHandleManager

end Inbox

end PrivmxEndpoint
