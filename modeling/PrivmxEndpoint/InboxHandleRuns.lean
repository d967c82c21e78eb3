import PrivmxEndpoint.InboxHandles

/-!
# Runs of the calls on inbox handles

Whatever an application calls and however these calls end, the marks on files are
the files of the prepared entries.  This needs that an entry is given up only if no
file of it is marked twice: `prepareEntry` lets a file be named twice, by one entry
or by several, and the first entry that is given up takes the file with it.
-/

namespace PrivmxEndpoint

namespace Inbox

open Throwing Runs

namespace InboxHandleManager

/-- The files of the live entries. -/
def liveFiles (s : InboxHandleManager) : List ℕ :=
  s.inboxHandles.entries.flatMap fun entry => entry.2.inboxFileHandles

/-- What holds between the calls. -/
structure Valid (s : InboxHandleManager) : Prop where
  marks : s.fileHandlesUsedByInboxHandles.Perm s.liveFiles
  registered : ∀ f ∈ s.liveFiles, s.fileHandles.lookup f = some .write
  files_le : ∀ id ∈ s.fileHandles, id ≤ s.lastId
  entries_le : ∀ id ∈ s.inboxHandles, id ≤ s.lastId
  sent_le : ∀ id ∈ s.sent, id ≤ s.lastId
  sent_nodup : s.sent.Nodup
  sent_live : ∀ id ∈ s.sent, ∀ handle, s.inboxHandles.lookup id = some handle →
    handle.inboxFileHandles = []

/-- At the start there is no entry. -/
theorem valid_initial : Valid .initial where
  marks := List.Perm.refl []
  registered := by simp [liveFiles, initial]
  files_le := by simp [initial]
  entries_le := by simp [initial]
  sent_le := by simp [initial]
  sent_nodup := List.nodup_nil
  sent_live := by simp [initial]

/-- The files of a new entry are live. -/
theorem liveFiles_addEntry {s : InboxHandleManager} (hs : s.Valid)
    (inboxId resourceId data : Bytes) (files : List ℕ) (userPrivKey : Option Bytes) :
    (s.addEntry inboxId resourceId data files userPrivKey).liveFiles = files ++ s.liveFiles := by
  have hfresh : s.freshId ∉ s.inboxHandles := fun hmem =>
    absurd (hs.entries_le _ hmem) (not_le_of_gt s.lastId_lt_freshId)
  unfold liveFiles addEntry
  dsimp only
  rw [AList.entries_insert_of_notMem hfresh]
  rfl

/-- The files of an entry that is given up are live no more. -/
theorem liveFiles_erase {m : AList (fun _ : ℕ => InboxHandle)} {id : ℕ} {handle : InboxHandle}
    (hlive : m.lookup id = some handle) :
    (m.entries.flatMap fun entry => entry.2.inboxFileHandles).Perm
      (handle.inboxFileHandles ++
        (m.erase id).entries.flatMap fun entry => entry.2.inboxFileHandles) := by
  have hmem : id ∈ m.entries.keys := AList.lookup_isSome.mp (by rw [hlive]; rfl)
  obtain ⟨other, before, after, -, hentries, herase⟩ := List.exists_of_kerase hmem
  have hother : other = handle := by
    have hin : (⟨id, other⟩ : Sigma fun _ : ℕ => InboxHandle) ∈ m.entries := by
      rw [hentries]
      simp
    have hlookup := AList.mem_lookup_iff.mpr hin
    rw [hlive] at hlookup
    exact (Option.some.inj hlookup).symm
  subst hother
  show List.Perm _ (_ ++ (List.kerase id m.entries).flatMap _)
  rw [herase, hentries]
  simp only [List.flatMap_append, List.flatMap_cons]
  exact List.perm_append_comm_assoc _ _ _


/-- An id that nothing is stored under. -/
theorem Valid.takeId {s : InboxHandleManager} (hs : s.Valid) (label : String) :
    (s.takeId label).Valid where
  marks := hs.marks
  registered := hs.registered
  files_le := fun id hid => (hs.files_le id hid).trans s.lastId_lt_freshId.le
  entries_le := fun id hid => (hs.entries_le id hid).trans s.lastId_lt_freshId.le
  sent_le := fun id hid => (hs.sent_le id hid).trans s.lastId_lt_freshId.le
  sent_nodup := hs.sent_nodup
  sent_live := hs.sent_live

/-- The files of live entries are open. -/
theorem Valid.mem_fileHandles {s : InboxHandleManager} (hs : s.Valid) {f : ℕ}
    (hf : f ∈ s.liveFiles) : f ∈ s.fileHandles :=
  AList.lookup_isSome.mp (by rw [hs.registered f hf]; rfl)

/-- A file is registered. -/
theorem Valid.addFile {s : InboxHandleManager} (hs : s.Valid) (label : String)
    (kind : FileHandleKind) :
    Valid { s.takeId label with fileHandles := s.fileHandles.insert s.freshId kind } where
  marks := hs.marks
  registered := fun f hf => by
    have hle := hs.files_le f (hs.mem_fileHandles hf)
    have hne : f ≠ s.freshId := (lt_of_le_of_lt hle s.lastId_lt_freshId).ne
    exact (AList.lookup_insert_ne hne).trans (hs.registered f hf)
  files_le := fun id hid => by
    obtain rfl | hid := (AList.mem_insert s.fileHandles).mp hid
    · exact le_refl _
    · exact (hs.takeId label).files_le id hid
  entries_le := (hs.takeId label).entries_le
  sent_le := (hs.takeId label).sent_le
  sent_nodup := hs.sent_nodup
  sent_live := hs.sent_live

/-- A file that no entry uses is closed. -/
theorem Valid.removeFile {s : InboxHandleManager} (hs : s.Valid) {f : ℕ}
    (hf : f ∉ s.fileHandlesUsedByInboxHandles) :
    Valid { s with fileHandles := s.fileHandles.erase f, labels := s.labels.erase f } where
  marks := hs.marks
  registered := fun g hg => by
    have hne : g ≠ f := fun heq => hf (heq ▸ hs.marks.mem_iff.mpr hg)
    exact (AList.lookup_erase_ne hne).trans (hs.registered g hg)
  files_le := fun id hid => hs.files_le id (AList.mem_erase.mp hid).2
  entries_le := hs.entries_le
  sent_le := hs.sent_le
  sent_nodup := hs.sent_nodup
  sent_live := hs.sent_live

/-- An entry of registered files is prepared. -/
theorem Valid.addEntry {s : InboxHandleManager} (hs : s.Valid) (inboxId resourceId data : Bytes)
    {files : List ℕ} (userPrivKey : Option Bytes)
    (hfiles : ∀ f ∈ files, s.fileHandles.lookup f = some .write) :
    (s.addEntry inboxId resourceId data files userPrivKey).Valid where
  marks := by
    rw [liveFiles_addEntry hs]
    exact List.perm_append_comm.trans (hs.marks.append_left files)
  registered := fun f hf => by
    rw [liveFiles_addEntry hs] at hf
    obtain hf | hf := List.mem_append.mp hf
    · exact hfiles f hf
    · exact hs.registered f hf
  files_le := (hs.takeId "Inbox:FilesWrite").files_le
  entries_le := fun id hid => by
    obtain rfl | hid := (AList.mem_insert s.inboxHandles).mp hid
    · exact le_refl _
    · exact (hs.takeId "Inbox:FilesWrite").entries_le id hid
  sent_le := (hs.takeId "Inbox:FilesWrite").sent_le
  sent_nodup := hs.sent_nodup
  sent_live := fun id hid handle hlive => by
    have hne : id ≠ s.freshId :=
      (lt_of_le_of_lt (hs.sent_le id hid) s.lastId_lt_freshId).ne
    exact hs.sent_live id hid handle ((AList.lookup_insert_ne hne).symm.trans hlive)

/-- No file of an entry is marked twice. -/
def Unshared (s : InboxHandleManager) (files : List ℕ) : Prop :=
  ∀ f ∈ files, s.fileHandlesUsedByInboxHandles.count f = 1

/-- The marks of a live entry and of the others. -/
theorem Valid.used_perm {s : InboxHandleManager} (hs : s.Valid) {id : ℕ} {handle : InboxHandle}
    (hlive : s.inboxHandles.lookup id = some handle) :
    s.fileHandlesUsedByInboxHandles.Perm (handle.inboxFileHandles ++
      (s.inboxHandles.erase id).entries.flatMap fun entry => entry.2.inboxFileHandles) :=
  hs.marks.trans (liveFiles_erase hlive)

/-- The files of an entry that shares none can be dropped. -/
theorem Valid.droppable {s : InboxHandleManager} (hs : s.Valid) {id : ℕ} {handle : InboxHandle}
    (hlive : s.inboxHandles.lookup id = some handle)
    (hunshared : s.Unshared handle.inboxFileHandles) : s.Droppable handle.inboxFileHandles where
  nodup := by
    refine List.nodup_iff_count_le_one.mpr fun f => ?_
    by_cases hf : f ∈ handle.inboxFileHandles
    · have hcount := (hs.used_perm hlive).count_eq f
      rw [hunshared f hf, List.count_append] at hcount
      omega
    · rw [List.count_eq_zero_of_not_mem hf]
      exact Nat.zero_le 1
  used := fun f hf => by
    refine List.count_pos_iff.mp ?_
    rw [hunshared f hf]
    exact Nat.one_pos
  registered := fun f hf => hs.mem_fileHandles
    ((liveFiles_erase hlive).mem_iff.mpr (List.mem_append_left _ hf))

/-- An entry whose files no other entry uses is given up with them. -/
theorem Valid.dropEntry {s : InboxHandleManager} (hs : s.Valid) {id : ℕ} {handle : InboxHandle}
    (hlive : s.inboxHandles.lookup id = some handle)
    (hunshared : s.Unshared handle.inboxFileHandles) :
    (s.dropEntry id handle.inboxFileHandles).Valid where
  marks := by
    unfold InboxHandleManager.dropEntry liveFiles
    rw [dropFiles_used, dropFiles_inboxHandles]
    unfold eraseEntry
    dsimp only
    refine List.perm_iff_count.mpr fun f => ?_
    have hcount := (hs.used_perm hlive).count_eq f
    rw [List.count_append] at hcount
    rw [List.count_diff]
    omega
  registered := fun f hf => by
    unfold InboxHandleManager.dropEntry liveFiles at hf
    rw [dropFiles_inboxHandles] at hf
    unfold eraseEntry at hf
    dsimp only at hf
    have hother : f ∉ handle.inboxFileHandles := fun hmem => by
      have hcount := (hs.used_perm hlive).count_eq f
      rw [hunshared f hmem, List.count_append] at hcount
      have hfirst := List.count_pos_iff.mpr hmem
      have hsecond := List.count_pos_iff.mpr hf
      omega
    exact (dropFiles_lookup _ hother).trans
      (hs.registered f ((liveFiles_erase hlive).mem_iff.mpr (List.mem_append_right _ hf)))
  files_le := fun g hg => by
    unfold InboxHandleManager.dropEntry at hg ⊢
    rw [dropFiles_lastId]
    exact hs.files_le g (mem_of_mem_dropFiles (s := s.eraseEntry id) hg)
  entries_le := fun g hg => by
    unfold InboxHandleManager.dropEntry at hg ⊢
    rw [dropFiles_inboxHandles] at hg
    rw [dropFiles_lastId]
    exact hs.entries_le g (AList.mem_erase.mp hg).2
  sent_le := fun g hg => by
    unfold InboxHandleManager.dropEntry at hg ⊢
    rw [dropFiles_sent] at hg
    rw [dropFiles_lastId]
    exact hs.sent_le g hg
  sent_nodup := by
    unfold InboxHandleManager.dropEntry
    rw [dropFiles_sent]
    exact hs.sent_nodup
  sent_live := fun g hg other hother => by
    unfold InboxHandleManager.dropEntry at hg hother
    rw [dropFiles_sent] at hg
    rw [dropFiles_inboxHandles] at hother
    unfold eraseEntry at hother
    dsimp only at hother
    by_cases hne : g = id
    · subst hne
      rw [AList.lookup_erase] at hother
      cases hother
    · exact hs.sent_live g hg other ((AList.lookup_erase_ne hne).symm.trans hother)

/-- The server takes an entry. -/
theorem Valid.addSent {s : InboxHandleManager} (hs : s.Valid) {id : ℕ} (hle : id ≤ s.lastId)
    (hnew : id ∉ s.sent)
    (hlive : ∀ handle, s.inboxHandles.lookup id = some handle → handle.inboxFileHandles = []) :
    Valid { s with sent := s.sent ++ [id] } where
  marks := hs.marks
  registered := hs.registered
  files_le := hs.files_le
  entries_le := hs.entries_le
  sent_le := fun g hg => by
    obtain hg | hg := List.mem_append.mp hg
    · exact hs.sent_le g hg
    · rw [List.mem_singleton.mp hg]
      exact hle
  sent_nodup := by
    refine List.nodup_append.mpr ⟨hs.sent_nodup, List.nodup_singleton id, ?_⟩
    intro g hg other hother heq
    rw [List.mem_singleton.mp hother] at heq
    exact hnew (heq ▸ hg)
  sent_live := fun g hg handle hhandle => by
    obtain hg | hg := List.mem_append.mp hg
    · exact hs.sent_live g hg handle hhandle
    · rw [List.mem_singleton.mp hg] at hhandle
      exact hlive handle hhandle


/-- Nothing is erased that does not exist, and an exception leaves everything as it
was. -/
def Atomic {α : Type} (m : HandleProg α) (s : InboxHandleManager) : Prop :=
  ∀ e t, exec m s = (.error e, t) → e ≠ .eraseOfEnd ∧ t = s

/-- What the marks promise about the state between two calls. -/
structure Consistent (s : InboxHandleManager) : Prop where
  marks : s.fileHandlesUsedByInboxHandles.Perm s.liveFiles
  kept : ∀ f ∈ s.liveFiles, f ∈ s.fileHandles ∧
    exec (removeFileHandle f false) s = (.error .handleIsUsedInInboxHandle, s)
  prepare : ∀ calls inboxId data files userPrivKey e t,
    exec (prepareEntry calls inboxId data files userPrivKey) s = (.error e, t) →
      t.fileHandlesUsedByInboxHandles = s.fileHandlesUsedByInboxHandles
  sent_once : s.sent.Nodup

/-- A valid state is a consistent one. -/
theorem Valid.consistent {s : InboxHandleManager} (hs : s.Valid) : s.Consistent where
  marks := hs.marks
  kept := fun f hf =>
    ⟨hs.mem_fileHandles hf, exec_removeFileHandle_used (hs.marks.mem_iff.mpr hf)⟩
  prepare := fun calls inboxId data files userPrivKey e t ht => by
    obtain ⟨e', hexec⟩ | ⟨resourceId, hexec, -⟩ :=
      exec_prepareEntry calls inboxId data files userPrivKey s
    · rw [hexec] at ht
      cases ht
      rfl
    · rw [hexec] at ht
      cases ht
  sent_once := hs.sent_nodup

end InboxHandleManager

/-- Whether the commit of an entry's files ends with the files given up: because
they are all committed, or because one of them is too short. -/
def SendCalls.GivesUp (calls : SendCalls) (files : List ℕ) : Prop :=
  ∀ e, calls.commitFiles files = .error e → e = .dataDifferentThanDeclared

/-- The calls of an application, with what their own calls answer. -/
inductive Call
  | createFileHandle
  | openFile (found constructed : Except CallException Unit)
  | closeFile (handle : ℕ)
  | prepareEntry (calls : PrepareCalls) (inboxId data : Bytes) (inboxFileHandles : List ℕ)
      (userPrivKey : Option Bytes)
  | sendEntry (calls : SendCalls) (inboxHandle : ℕ)
  | abort (inboxHandle : ℕ)

namespace Call

open InboxHandleManager

/-- The result is not used. -/
def void {α : Type} (m : HandleProg α) : HandleProg Unit := do
  let _ ← m
  return ()

/-- Dropping the result leaves the effect. -/
theorem exec_void_snd {α : Type} (m : HandleProg α) (s : InboxHandleManager) :
    (exec (void m) s).2 = (exec m s).2 := by
  unfold void
  rw [exec_bind]
  cases hm : exec m s with
  | mk result t =>
      cases result with
      | ok a => rfl
      | error e => rfl

/-- What a call runs. -/
def run : Call → HandleProg Unit
  | createFileHandle => void InboxHandleManager.createFileHandle
  | openFile found constructed => void (InboxHandleManager.openFile found constructed)
  | closeFile handle => InboxHandleManager.closeFile handle
  | prepareEntry calls inboxId data inboxFileHandles userPrivKey =>
      void (InboxHandleManager.prepareEntry calls inboxId data inboxFileHandles userPrivKey)
  | sendEntry calls inboxHandle => InboxHandleManager.sendEntry calls inboxHandle
  | abort inboxHandle => abortInboxHandle inboxHandle

/-- One call; an exception ends it, not the run. -/
def Step (s : InboxHandleManager) (call : Call) (t : InboxHandleManager) : Prop :=
  t = (exec call.run s).2

/-- The commit and the abort that a call comes to. -/
def Settles (s : InboxHandleManager) : Call → Prop
  | sendEntry calls inboxHandle =>
      ∀ handle, s.inboxHandles.lookup inboxHandle = some handle →
        calls.readKeys handle = .ok () →
          Atomic (commitInboxHandle calls inboxHandle) s ∧
            (calls.commitFiles handle.inboxFileHandles = .error .dataDifferentThanDeclared →
              Atomic (abortInboxHandle inboxHandle) s)
  | abort inboxHandle => Atomic (abortInboxHandle inboxHandle) s
  | _ => True

/-- An entry is given up only if no file of it is marked twice, and an entry
without files is not sent again. -/
def Ok (s : InboxHandleManager) : Call → Prop
  | sendEntry calls inboxHandle => ∀ handle, s.inboxHandles.lookup inboxHandle = some handle →
      calls.readKeys handle = .ok () →
        (calls.GivesUp handle.inboxFileHandles → s.Unshared handle.inboxFileHandles) ∧
          (handle.inboxFileHandles = [] → calls.transmit handle [] = .ok () →
            inboxHandle ∉ s.sent)
  | abort inboxHandle => ∀ handle, s.inboxHandles.lookup inboxHandle = some handle →
      s.Unshared handle.inboxFileHandles
  | _ => True

/-- An entry whose files are marked once is given up without an exception. -/
theorem atomic_abortInboxHandle {s : InboxHandleManager} (hs : s.Valid) {id : ℕ}
    (hunshared : ∀ handle, s.inboxHandles.lookup id = some handle →
      s.Unshared handle.inboxFileHandles) : Atomic (abortInboxHandle id) s := by
  intro e t ht
  cases hlive : s.inboxHandles.lookup id with
  | none =>
      unfold abortInboxHandle at ht
      rw [exec_bind, exec_getInboxHandle, hlive] at ht
      cases ht
      exact ⟨by decide, rfl⟩
  | some handle =>
      rw [exec_abortInboxHandle hlive (hs.droppable hlive (hunshared handle hlive))] at ht
      cases ht

/-- A commit drops the entry with its files, or nothing. -/
theorem atomic_commitInboxHandle {s : InboxHandleManager} (hs : s.Valid) {calls : SendCalls}
    {id : ℕ} {handle : InboxHandle} (hlive : s.inboxHandles.lookup id = some handle)
    (hunshared : calls.GivesUp handle.inboxFileHandles →
      s.Unshared handle.inboxFileHandles) : Atomic (commitInboxHandle calls id) s := by
  intro e t ht
  cases hcommit : calls.commitFiles handle.inboxFileHandles with
  | error e' =>
      rw [exec_commitInboxHandle_error hlive hcommit] at ht
      cases ht
      exact ⟨by simp, rfl⟩
  | ok filesInfo =>
      have hgives : calls.GivesUp handle.inboxFileHandles := by
        intro failure hfailure
        rw [hcommit] at hfailure
        cases hfailure
      rw [exec_commitInboxHandle_ok hlive hcommit
        (hs.droppable hlive (hunshared hgives))] at ht
      cases ht

/-- The commit in `sendEntry` leaves everything as it was or gives the entry up. -/
theorem exec_commitOrAbort {s : InboxHandleManager} (hs : s.Valid) {calls : SendCalls}
    {id : ℕ} {handle : InboxHandle} (hlive : s.inboxHandles.lookup id = some handle)
    (hunshared : calls.GivesUp handle.inboxFileHandles →
      s.Unshared handle.inboxFileHandles) :
    (∃ e, exec (commitOrAbort calls id) s = (.error e, s)) ∨
      s.Unshared handle.inboxFileHandles ∧
        ∃ result, exec (commitOrAbort calls id) s =
          (result, s.dropEntry id handle.inboxFileHandles) := by
  unfold commitOrAbort
  rw [exec_tryCatch]
  cases hcommit : calls.commitFiles handle.inboxFileHandles with
  | error e =>
      rw [exec_commitInboxHandle_error hlive hcommit]
      dsimp only
      by_cases he : e = .dataDifferentThanDeclared
      · subst he
        have hfiles : s.Unshared handle.inboxFileHandles := hunshared fun failure hfailure => by
          rw [hcommit] at hfailure
          cases hfailure
          rfl
        right
        refine ⟨hfiles, .error .writingToEntryInterupted, ?_⟩
        rw [if_pos rfl, exec_bind,
          exec_abortInboxHandle hlive (hs.droppable hlive hfiles)]
        rfl
      · left
        refine ⟨.call e, ?_⟩
        rw [if_neg fun heq => he (HandleException.call.inj heq)]
        rfl
  | ok filesInfo =>
      have hfiles : s.Unshared handle.inboxFileHandles := hunshared fun failure hfailure => by
        rw [hcommit] at hfailure
        cases hfailure
      right
      refine ⟨hfiles, .ok filesInfo, ?_⟩
      rw [exec_commitInboxHandle_ok hlive hcommit (hs.droppable hlive hfiles)]

/-- The end of `sendEntry`: the server takes the entry or does not. -/
theorem valid_transmit {s : InboxHandleManager} (hs : s.Valid) {calls : SendCalls} {id : ℕ}
    {handle : InboxHandle} {filesInfo : List CommitFileInfo}
    (hsent : calls.transmit handle filesInfo = .ok () →
      Valid { s with sent := s.sent ++ [id] }) :
    (exec (answer (calls.transmit handle filesInfo) >>= fun _ =>
      modify fun t : InboxHandleManager => { t with sent := t.sent ++ [id] }) s).2.Valid := by
  cases htransmit : calls.transmit handle filesInfo with
  | error e => exact hs
  | ok _ => exact hsent htransmit

/-- Sending an entry keeps the state valid. -/
theorem valid_sendEntry {s : InboxHandleManager} (hs : s.Valid) {calls : SendCalls} {id : ℕ}
    (hok : Ok s (sendEntry calls id)) : (exec (InboxHandleManager.sendEntry calls id) s).2.Valid := by
  unfold InboxHandleManager.sendEntry
  rw [exec_bind, exec_getInboxHandle]
  cases hlive : s.inboxHandles.lookup id with
  | none => exact hs
  | some handle =>
      dsimp only
      cases hkeys : calls.readKeys handle with
      | error e => exact hs
      | ok _ =>
          rw [exec_answer_ok_bind]
          obtain ⟨hunshared, hagain⟩ := hok handle hlive hkeys
          have hle : id ≤ s.lastId := hs.entries_le id (AList.lookup_isSome.mp (by rw [hlive]; rfl))
          by_cases hfiles : handle.inboxFileHandles = []
          · -- the entry has no files and stays where it is
            simp only [hfiles, ne_eq, not_true_eq_false, if_false]
            refine valid_transmit hs fun hsent => ?_
            refine hs.addSent hle (hagain hfiles hsent) fun other hother => ?_
            rw [hlive] at hother
            cases hother
            exact hfiles
          · simp only [hfiles, ne_eq, not_false_eq_true, if_true]
            rw [exec_bind]
            obtain ⟨e, hcommit⟩ | ⟨hfiles', result, hcommit⟩ :=
              exec_commitOrAbort hs hlive hunshared
            · rw [hcommit]
              exact hs
            · rw [hcommit]
              have hdrop := hs.dropEntry hlive hfiles'
              cases result with
              | error e => exact hdrop
              | ok filesInfo =>
                  refine valid_transmit hdrop fun _ => hdrop.addSent ?_ ?_ ?_
                  · unfold InboxHandleManager.dropEntry
                    rw [dropFiles_lastId]
                    exact hle
                  · unfold InboxHandleManager.dropEntry
                    rw [dropFiles_sent]
                    exact fun hmem => hfiles (hs.sent_live id hmem handle hlive)
                  · intro other hother
                    unfold InboxHandleManager.dropEntry eraseEntry at hother
                    rw [dropFiles_inboxHandles, AList.lookup_erase] at hother
                    cases hother

/-- Giving an entry up keeps the state valid. -/
theorem valid_abort {s : InboxHandleManager} (hs : s.Valid) {id : ℕ}
    (hok : Ok s (abort id)) : (exec (abortInboxHandle id) s).2.Valid := by
  cases hlive : s.inboxHandles.lookup id with
  | none =>
      unfold abortInboxHandle
      rw [exec_bind, exec_getInboxHandle, hlive]
      exact hs
  | some handle =>
      have hunshared := hok handle hlive
      rw [exec_abortInboxHandle hlive (hs.droppable hlive hunshared)]
      exact hs.dropEntry hlive hunshared

/-- Opening a file keeps the state valid. -/
theorem valid_openFile {s : InboxHandleManager} (hs : s.Valid)
    (found constructed : Except CallException Unit) :
    (exec (InboxHandleManager.openFile found constructed) s).2.Valid := by
  unfold InboxHandleManager.openFile
  cases found with
  | error e => exact hs
  | ok _ =>
      rw [exec_answer_ok_bind, exec_bind, exec_createHandle]
      cases constructed with
      | error e => exact hs.takeId "Inbox:FileRead"
      | ok _ => exact hs.addFile "Inbox:FileRead" .read

/-- Closing a file keeps the state valid. -/
theorem valid_closeFile {s : InboxHandleManager} (hs : s.Valid) (f : ℕ) :
    (exec (InboxHandleManager.closeFile f) s).2.Valid := by
  unfold InboxHandleManager.closeFile
  rw [exec_bind, exec_getFileHandle]
  cases hkind : s.fileHandles.lookup f with
  | none => exact hs
  | some kind =>
      cases kind with
      | write => exact hs
      | read =>
          have hfile : f ∈ s.fileHandles := AList.lookup_isSome.mp (by rw [hkind]; rfl)
          have hunused : f ∉ s.fileHandlesUsedByInboxHandles := fun hmem => by
            have hwrite := hs.registered f (hs.marks.mem_iff.mp hmem)
            rw [hkind] at hwrite
            cases hwrite
          show (exec (removeFileHandle f false) s).2.Valid
          rw [exec_removeFileHandle_unused hunused hfile]
          exact hs.removeFile hunused

/-- Every call keeps the tables in agreement. -/
theorem Step.valid {s t : InboxHandleManager} {call : Call} (hs : s.Valid)
    (hstep : guarded Ok Step s call t) : t.Valid := by
  obtain ⟨hok, rfl⟩ := hstep
  cases call with
  | createFileHandle =>
      show (exec (void InboxHandleManager.createFileHandle) s).2.Valid
      rw [exec_void_snd]
      exact hs.addFile "Inbox:FileWrite" .write
  | openFile found constructed =>
      show (exec (void (InboxHandleManager.openFile found constructed)) s).2.Valid
      rw [exec_void_snd]
      exact valid_openFile hs found constructed
  | closeFile handle => exact valid_closeFile hs handle
  | prepareEntry calls inboxId data files userPrivKey =>
      show (exec (void (InboxHandleManager.prepareEntry calls inboxId data files
        userPrivKey)) s).2.Valid
      rw [exec_void_snd]
      obtain ⟨e, hexec⟩ | ⟨resourceId, hexec, hfiles⟩ :=
        exec_prepareEntry calls inboxId data files userPrivKey s
      · rw [hexec]
        exact hs
      · rw [hexec]
        exact hs.addEntry inboxId resourceId data userPrivKey hfiles
  | sendEntry calls inboxHandle => exact valid_sendEntry hs hok
  | abort inboxHandle => exact valid_abort hs hok

/-- What a call gives up, it gives up without an exception. -/
theorem settles_of_ok {s : InboxHandleManager} (hs : s.Valid) {call : Call} (hok : Ok s call) :
    Settles s call := by
  cases call with
  | createFileHandle | openFile | closeFile | prepareEntry => exact trivial
  | sendEntry calls inboxHandle =>
      intro handle hlive hkeys
      have hunshared := (hok handle hlive hkeys).1
      refine ⟨atomic_commitInboxHandle hs hlive hunshared, fun hcommit => ?_⟩
      refine atomic_abortInboxHandle hs fun other hother => ?_
      rw [hlive] at hother
      cases hother
      refine hunshared fun failure hfailure => ?_
      rw [hcommit] at hfailure
      cases hfailure
      rfl
  | abort inboxHandle => exact atomic_abortInboxHandle hs hok

/-- **The handles of an inbox.**  If no entry is given up while one of its files is
marked twice, and no entry without files is sent again, then in every state that is
reached the marks are the files of the live entries, these files cannot be removed, a
failed `prepareEntry` leaves no mark, and no entry was sent twice; and every call
gives an entry up completely or not at all. -/
theorem handles_consistent {s : InboxHandleManager} {calls : List Call}
    (hrun : Run (guarded Ok Step) .initial calls s) :
    s.Consistent ∧ ∀ call, Ok s call → Settles s call := by
  have hs : s.Valid := hrun.preserves Valid (fun _ _ _ hs hstep => Step.valid hs hstep) valid_initial
  exact ⟨hs.consistent, fun _ hok => settles_of_ok hs hok⟩

/-- The state after some calls. -/
def after (calls : List Call) : InboxHandleManager :=
  calls.foldl (fun s call => (exec call.run s).2) .initial

/-- The calls of a list make a run. -/
theorem run_after (calls : List Call) : Run Step .initial calls (after calls) := by
  suffices h : ∀ s : InboxHandleManager,
      Run Step s calls (calls.foldl (fun s call => (exec call.run s).2) s) from h _
  induction calls with
  | nil => exact Run.nil
  | cons call calls ih => exact fun s => Run.cons rfl (ih _)

/-- Calls that succeed. -/
def samplePrepareCalls : PrepareCalls where
  getInboxPublicViewData := fun _ => .ok []
  createRequest := fun _ => .ok ()

@[inherit_doc samplePrepareCalls]
def sampleSendCalls : SendCalls where
  readKeys := fun _ => .ok ()
  isReadyToFinalize := fun _ => true
  finalize := fun _ => .ok { requestId := [], size := 0, publicMeta := [], privateMeta := [] }
  encryptFileMeta := fun _ => .ok []
  packMessage := fun _ => .ok []
  inboxSend := fun _ => .ok ()

/-- An entry of the given files. -/
def samplePrepare (files : List ℕ) : Call :=
  prepareEntry samplePrepareCalls [] [] files none

/-- Two entries with a file each are prepared, and neither file can be closed. -/
def twoEntriesCalls : List Call :=
  [createFileHandle, createFileHandle, samplePrepare [1], samplePrepare [2], closeFile 1,
    closeFile 2]

/-- The first entry is given up with its file, and the second one stays with its own. -/
theorem handles_consistent_sample :
    (after twoEntriesCalls).inboxHandles.keys = [4, 3] ∧
      Settles (after twoEntriesCalls) (sendEntry sampleSendCalls 3) ∧
        (after (twoEntriesCalls ++ [sendEntry sampleSendCalls 3])).inboxHandles.keys = [4] ∧
          (after (twoEntriesCalls ++ [sendEntry sampleSendCalls 3])).Consistent := by
  have hsend : Ok (after twoEntriesCalls) (sendEntry sampleSendCalls 3) := by
    intro handle hlive _
    cases hlive
    refine ⟨fun _ f hf => ?_, fun hfiles => ?_⟩
    · rw [List.mem_singleton.mp hf]
      decide
    · cases hfiles
  have hprepared : Run (guarded Ok Step) .initial twoEntriesCalls (after twoEntriesCalls) :=
    .cons ⟨trivial, rfl⟩ (.cons ⟨trivial, rfl⟩ (.cons ⟨trivial, rfl⟩ (.cons ⟨trivial, rfl⟩
      (.cons ⟨trivial, rfl⟩ (.cons ⟨trivial, rfl⟩ (.nil _))))))
  have hsent : Run (guarded Ok Step) .initial (twoEntriesCalls ++ [sendEntry sampleSendCalls 3])
      (after (twoEntriesCalls ++ [sendEntry sampleSendCalls 3])) :=
    .cons ⟨trivial, rfl⟩ (.cons ⟨trivial, rfl⟩ (.cons ⟨trivial, rfl⟩ (.cons ⟨trivial, rfl⟩
      (.cons ⟨trivial, rfl⟩ (.cons ⟨trivial, rfl⟩ (.cons ⟨hsend, rfl⟩ (.nil _)))))))
  exact ⟨by decide, (handles_consistent hprepared).2 _ hsend, by decide,
    (handles_consistent hsent).1⟩

/-- An entry that names a file twice is erased before the second removal throws; an
entry whose file another one uses takes the file with it; an entry without files is
sent as often as one likes. -/
theorem handles_not_consistent :
    (Run Step .initial [createFileHandle, samplePrepare [1, 1]]
        (after [createFileHandle, samplePrepare [1, 1]]) ∧
      ¬ Settles (after [createFileHandle, samplePrepare [1, 1]])
          (sendEntry sampleSendCalls 2)) ∧
    (Run Step .initial
        [createFileHandle, samplePrepare [1], samplePrepare [1], sendEntry sampleSendCalls 2]
        (after [createFileHandle, samplePrepare [1], samplePrepare [1],
          sendEntry sampleSendCalls 2]) ∧
      ¬ (after [createFileHandle, samplePrepare [1], samplePrepare [1],
          sendEntry sampleSendCalls 2]).Consistent) ∧
    (Run Step .initial
        [samplePrepare [], sendEntry sampleSendCalls 1, sendEntry sampleSendCalls 1]
        (after [samplePrepare [], sendEntry sampleSendCalls 1, sendEntry sampleSendCalls 1]) ∧
      ¬ (after [samplePrepare [], sendEntry sampleSendCalls 1,
          sendEntry sampleSendCalls 1]).Consistent) := by
  refine ⟨⟨run_after _, fun h => ?_⟩, ⟨run_after _, fun h => ?_⟩, run_after _, fun h => ?_⟩
  · have hsame := ((h _ rfl rfl).1 .invalidFileHandle _ rfl).2
    have hlive := congrArg (fun s => (s.inboxHandles.lookup 2).isSome) hsame
    exact absurd hlive (by decide)
  · exact absurd (h.kept 1 (by decide)).1 (by decide)
  · exact absurd h.sent_once (by decide)

end Call

end Inbox

end PrivmxEndpoint
