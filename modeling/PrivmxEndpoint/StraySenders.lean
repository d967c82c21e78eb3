import PrivmxEndpoint.WebRtcKeys

/-!
# Senders that no map leads to

A track that is added under the identifier of another one gets a sender, but no place in the
map.  `updateKeys` and `updateStream` do not find that sender any more: it goes on with the
keys that it was made with, until the connection is closed (`stray_keeps_keys`).
-/

namespace PrivmxEndpoint

open Runs

namespace Stream

namespace WebRtcRoom

variable {x x' y : WebRtcRoom} {c n i : ℕ} {t : ConnectionType}
  {action a : WebRtcAction} {next : Option (List WebRtcAction)}

/-- The inner steps neither move a thread nor open a connection. -/
theorem exec_threads (hexec : x.exec action = some (x', next)) :
    x'.threads = x.threads ∧ x'.opened = x.opened := by
  cases action <;> simp only [exec] at hexec
  case addTrack => split at hexec <;> cases hexec; exact ⟨rfl, rfl⟩
  case removeTrack =>
    split at hexec
    · cases hexec
      exact ⟨rfl, rfl⟩
    · split at hexec <;> cases hexec
      exact ⟨rfl, rfl⟩
  all_goals
    cases hexec
    exact ⟨rfl, rfl⟩

section Step

variable {P : PeerConnection → Prop}

/-- What holds of a connection after an update. -/
theorem holds_update {f : PeerConnection → PeerConnection} {c₀ : ℕ}
    (hf : c = c₀ → P (x.connections c) → P (f (x.connections c))) (h : P (x.connections c)) :
    P ((x.update c₀ f).connections c) := by
  by_cases hc : c = c₀
  · subst hc
    rw [connections_update_self]
    exact hf rfl h
  · rwa [connections_update_ne hc]

/-- Connections are only opened. -/
theorem opened_getConnectionWithSession :
    x.opened ≤ (x.getConnectionWithSession t).2.opened := by
  rw [WebRtcRoom.getConnectionWithSession]
  cases x.connection t with
  | some _ => exact le_rfl
  | none => exact Nat.le_succ _

/-- A connection is old, or it was just created. -/
theorem holds_getConnectionWithSession
    (hcreate : x.opened ≤ c → c < (x.getConnectionWithSession t).2.opened → P .create)
    (h : P (x.connections c)) : P ((x.getConnectionWithSession t).2.connections c) := by
  rw [WebRtcRoom.getConnectionWithSession] at hcreate ⊢
  cases hcurrent : x.connection t with
  | some _ => exact h
  | none =>
      rw [hcurrent] at hcreate
      show P (Function.update x.connections x.opened .create c)
      by_cases hc : c = x.opened
      · subst hc
        rw [Function.update_self]
        exact hcreate le_rfl (Nat.lt_succ_self _)
      · rwa [Function.update_of_ne hc]

/-- Closing opens nothing. -/
theorem opened_closeConnection : (x.closeConnection t).opened = x.opened := by
  rw [WebRtcRoom.closeConnection]
  cases x.connection t with
  | none => rfl
  | some _ => cases t <;> rfl

/-- What holds of a connection after a close. -/
theorem holds_closeConnection (hclose : ∀ d, P d → P d.close) (h : P (x.connections c)) :
    P ((x.closeConnection t).connections c) := by
  rw [WebRtcRoom.closeConnection]
  cases x.connection t with
  | none => exact h
  | some closed =>
      have hclosed : P ((x.update closed .close).connections c) :=
        holds_update (fun _ => hclose _) h
      cases t <;> exact hclosed

/-- What no function on a connection breaks, no step breaks. -/
theorem Step.connection {e : WebRtcEvent} (hstep : x.Step e y)
    (hcreate : x.opened ≤ c → c < y.opened → P .create)
    (hadd : ∀ d, d.hasPc = true → P d → P d.addSender)
    (hinsert : ∀ d kind id n, x.Inserting c n → P d → P (d.insertTrack kind id n))
    (hremove : ∀ d kind id n, (d.tracks kind).lookup id = some n → P d →
      P (d.removeTrack kind id n))
    (hset : ∀ d keys, P d → P (d.setKeys keys)) (happly : ∀ d, P d → P d.applyKeys)
    (honAdd : ∀ d track, P d → P (d.onAddTrack track))
    (hreceive : ∀ d receiver, P d → P (d.insertReceiver receiver))
    (honRemove : ∀ d track, P d → P (d.onRemoveTrack track)) (hclose : ∀ d, P d → P d.close)
    (h : P (x.connections c)) : P (y.connections c) := by
  cases e with
  | call call =>
      obtain rfl := hstep
      cases call with
      | createPeerConnectionWithLocalStream _ _ => exact holds_getConnectionWithSession hcreate h
      | updatePeerConnectionWithLocalStream _ _ _ _ =>
          exact holds_getConnectionWithSession hcreate h
      | updateKeys keys =>
          refine holds_getConnectionWithSession
            (fun hle hlt => hcreate (opened_getConnectionWithSession.trans hle) hlt) ?_
          exact holds_getConnectionWithSession
            (fun hle hlt => hcreate hle (hlt.trans_le opened_getConnectionWithSession)) h
      | closeSingleConnection _ => exact holds_closeConnection hclose h
      | close => exact holds_closeConnection hclose (holds_closeConnection hclose h)
      | getConnectionWithSession t => exact holds_getConnectionWithSession hcreate h
  | run i action =>
      obtain ⟨rest, x', next, hthread, hexec, rfl⟩ := hstep
      have hconnections : (x'.continueThread i rest next).connections = x'.connections := by
        cases next <;> rfl
      rw [hconnections]
      cases action with
      | addTrack c₀ kind id =>
          rw [exec] at hexec
          split at hexec
          · rename_i hpc
            cases hexec
            exact holds_update (fun hc => hadd _ (hc ▸ hpc)) h
          · cases hexec
      | insertTrack c₀ kind id n =>
          cases hexec
          refine holds_update (fun hc => ?_) h
          subst hc
          exact hinsert _ kind id n
            ⟨kind, id, _, List.mem_of_getElem? hthread, List.mem_cons_self⟩
      | removeTrack c₀ kind id =>
          rw [exec] at hexec
          cases hlookup : ((x.connections c₀).tracks kind).lookup id with
          | none =>
              rw [hlookup] at hexec
              cases hexec
              exact h
          | some n =>
              rw [hlookup] at hexec
              dsimp only at hexec
              split at hexec
              · cases hexec
                refine holds_update (fun hc => ?_) h
                subst hc
                exact hremove _ kind id n hlookup
              · cases hexec
      | setKeys p s keys =>
          cases hexec
          exact holds_update (fun _ => hset _ keys) (holds_update (fun _ => hset _ keys) h)
      | applyKeys p s =>
          cases hexec
          exact holds_update (fun _ => happly _) (holds_update (fun _ => happly _) h)
  | onAddTrack c₀ track =>
      obtain ⟨-, rfl⟩ := hstep
      exact holds_update (fun _ => honAdd _ track) h
  | insertReceiver c₀ receiver =>
      obtain ⟨-, rfl⟩ := hstep
      exact holds_update (fun _ => hreceive _ receiver) h
  | onRemoveTrack c₀ track =>
      obtain ⟨-, rfl⟩ := hstep
      exact holds_update (fun _ => honRemove _ track) h

end Step

/-- **Step.** No step takes a connection's number back. -/
theorem Step.opened_le {e : WebRtcEvent} (hstep : x.Step e y) : x.opened ≤ y.opened := by
  cases e with
  | call call =>
      obtain rfl := hstep
      cases call with
      | createPeerConnectionWithLocalStream _ _ => exact opened_getConnectionWithSession
      | updatePeerConnectionWithLocalStream _ _ _ _ => exact opened_getConnectionWithSession
      | updateKeys keys =>
          exact opened_getConnectionWithSession.trans opened_getConnectionWithSession
      | closeSingleConnection _ => exact opened_closeConnection.ge
      | close => exact (opened_closeConnection.trans opened_closeConnection).ge
      | getConnectionWithSession t => exact opened_getConnectionWithSession
  | run i action =>
      obtain ⟨rest, x', next, -, hexec, rfl⟩ := hstep
      rw [← (exec_threads hexec).2]
      cases next <;> exact le_rfl
  | onAddTrack c₀ track =>
      obtain ⟨-, rfl⟩ := hstep
      exact le_rfl
  | insertReceiver c₀ receiver =>
      obtain ⟨-, rfl⟩ := hstep
      exact le_rfl
  | onRemoveTrack c₀ track =>
      obtain ⟨-, rfl⟩ := hstep
      exact le_rfl

/-- Fetching a connection leaves every thread's next action. -/
theorem pending_getConnectionWithSession :
    (x.getConnectionWithSession t).2.Pending a ↔ x.Pending a := by
  rw [WebRtcRoom.getConnectionWithSession]
  cases x.connection t with
  | some _ => exact Iff.rfl
  | none => exact pending_initializeConnection

/-- Only a sender that has just been made is about to be inserted for the first time. -/
theorem Step.inserting {e : WebRtcEvent} (hstep : x.Step e y) (hn : y.Inserting c n) :
    x.Inserting c n ∨ n = (x.connections c).made := by
  obtain ⟨kind, id, hn⟩ := hn
  cases e with
  | call call =>
      obtain rfl := hstep
      refine Or.inl ⟨kind, id, ?_⟩
      cases call with
      | createPeerConnectionWithLocalStream _ _ =>
          have hold := (pending_start.mp hn).resolve_right (by simp)
          exact pending_getConnectionWithSession.mp hold
      | updatePeerConnectionWithLocalStream _ _ _ _ =>
          have hold := (pending_start.mp hn).resolve_right (by simp)
          exact pending_getConnectionWithSession.mp hold
      | updateKeys keys =>
          have hold := (pending_start.mp hn).resolve_right (by simp)
          exact pending_getConnectionWithSession.mp (pending_getConnectionWithSession.mp hold)
      | closeSingleConnection _ => exact pending_closeConnection.mp hn
      | close => exact pending_closeConnection.mp (pending_closeConnection.mp hn)
      | getConnectionWithSession t => exact pending_getConnectionWithSession.mp hn
  | run i action =>
      obtain ⟨rest, x', next, hthread, hexec, rfl⟩ := hstep
      rcases pending_continueThread (exec_threads hexec).1 hthread hn with hold | ⟨first, hfirst, hmem⟩
      · exact Or.inl ⟨kind, id, hold⟩
      · refine Or.inr ?_
        subst hfirst
        cases action with
        | addTrack c₀ kind₀ id₀ =>
            rw [exec] at hexec
            split at hexec
            · cases hexec
              cases List.mem_singleton.mp hmem
              rfl
            · cases hexec
        | insertTrack _ _ _ _ =>
            cases hexec
            cases hmem
        | removeTrack c₀ kind₀ id₀ =>
            rw [exec] at hexec
            split at hexec
            · cases hexec
            · split at hexec <;> cases hexec
              cases hmem
        | setKeys _ _ _ =>
            cases hexec
            cases hmem
        | applyKeys _ _ =>
            cases hexec
            cases hmem
  | onAddTrack c₀ track =>
      obtain ⟨-, rfl⟩ := hstep
      exact Or.inl ⟨kind, id, hn⟩
  | insertReceiver c₀ receiver =>
      obtain ⟨-, rfl⟩ := hstep
      exact Or.inl ⟨kind, id, hn⟩
  | onRemoveTrack c₀ track =>
      obtain ⟨-, rfl⟩ := hstep
      exact Or.inl ⟨kind, id, hn⟩

/-- The senders of a connection are numbered, and a connection that is not open has none. -/
structure Numbered (x : WebRtcRoom) : Prop where
  made : ∀ c, ∀ s ∈ (x.connections c).senders, s.number < (x.connections c).made
  opened : ∀ c, x.opened ≤ c → (x.connections c).hasPc = false ∧ (x.connections c).senders = []

/-- At the start nothing is open. -/
theorem numbered_initial : initial.Numbered where
  made _ _ hs := absurd hs List.not_mem_nil
  opened _ _ := ⟨rfl, rfl⟩

/-- **Step.** Every connection a thread works on has been opened. -/
theorem Numbered.step (h : x.Numbered) {e : WebRtcEvent} (hstep : x.Step e y) : y.Numbered where
  made c := by
    refine hstep.connection (P := fun d => ∀ s ∈ d.senders, s.number < d.made)
      ?_ ?_ ?_ ?_ ?_ ?_ ?_ ?_ ?_ ?_ (h.made c)
    · intro _ _ s hs
      cases hs
    · intro d _ hd s hs
      rcases List.mem_append.mp hs with hold | hnew
      · exact Nat.lt_succ_of_lt (hd s hold)
      · obtain rfl := List.mem_singleton.mp hnew
        exact Nat.lt_succ_self _
    · intro d kind id n _ hd
      rw [PeerConnection.insertTrack]
      split <;> exact hd
    · intro d kind id n _ hd s hs
      exact hd s (List.mem_of_mem_filter hs)
    · exact fun d keys hd => hd
    · intro d hd s hs
      obtain ⟨s', hs', rfl⟩ := List.mem_map.mp hs
      split <;> exact hd s' hs'
    · exact fun d track hd => hd
    · exact fun d receiver hd => hd
    · exact fun d track hd => hd
    · intro d hd s hs
      cases hs
  opened c hc := by
    have hold := h.opened c (hstep.opened_le.trans hc)
    refine hstep.connection (P := fun d => d.hasPc = false ∧ d.senders = [])
      ?_ ?_ ?_ ?_ ?_ ?_ ?_ ?_ ?_ ?_ hold
    · exact fun _ hlt => absurd hc (not_le.mpr hlt)
    · intro d hpc hd
      rw [hd.1] at hpc
      cases hpc
    · intro d kind id n _ hd
      rw [PeerConnection.insertTrack]
      split <;> exact hd
    · exact fun d kind id n _ hd => ⟨hd.1, by rw [PeerConnection.removeTrack, hd.2]; rfl⟩
    · exact fun d keys hd => hd
    · exact fun d hd => ⟨hd.1, by rw [PeerConnection.applyKeys, hd.2]; rfl⟩
    · exact fun d track hd => hd
    · exact fun d receiver hd => hd
    · exact fun d track hd => hd
    · exact fun d hd => ⟨rfl, rfl⟩

/-- A sender that is in no map, and that no thread is about to insert. -/
structure Stray (x : WebRtcRoom) (c : ℕ) (s : RtpSender) : Prop where
  sender : s ∈ (x.connections c).senders
  untracked : (x.connections c).hasTrack s.number = false
  inserting : ¬ x.Inserting c s.number

/-- The connection of a stray sender has been opened. -/
theorem Stray.opened {s : RtpSender} (h : x.Stray c s) (hx : x.Numbered) : c < x.opened := by
  by_contra hnot
  have hmem := h.sender
  rw [(hx.opened c (not_lt.mp hnot)).2] at hmem
  cases hmem

/-- A step closes the connection of a stray sender, or leaves the sender as it is. -/
theorem Stray.step {s : RtpSender} (h : x.Stray c s) (hx : x.Numbered) {e : WebRtcEvent}
    (hstep : x.Step e y) : (y.connections c).hasPc = false ∨ y.Stray c s := by
  have hmade := hx.made c s h.sender
  have hopened := h.opened hx
  have hstays : (y.connections c).hasPc = false ∨
      s ∈ (y.connections c).senders ∧ (y.connections c).hasTrack s.number = false := by
    refine hstep.connection (P := fun d => d.hasPc = false ∨
      s ∈ d.senders ∧ d.hasTrack s.number = false) ?_ ?_ ?_ ?_ ?_ ?_ ?_ ?_ ?_ ?_
      (Or.inr ⟨h.sender, h.untracked⟩)
    · exact fun hle _ => absurd hopened (not_lt.mpr hle)
    · exact fun d _ hd => hd.imp_right fun h => ⟨List.mem_append_left _ h.1, h.2⟩
    · intro d kind id n hn hd
      have hne : s.number ≠ n := fun heq => h.inserting (heq ▸ hn)
      by_cases hfree : (d.tracks kind).lookup id = none
      · rw [PeerConnection.insertTrack_of_free hfree]
        refine hd.imp_right fun h => ⟨h.1, ?_⟩
        rw [← PeerConnection.insertTrack_of_free hfree]
        refine Bool.eq_false_iff.mpr fun htrue => ?_
        rcases (PeerConnection.hasTrack_insertTrack hfree).mp htrue with heq | hold
        · exact hne heq
        · exact absurd hold (by simp [h.2])
      · rw [PeerConnection.insertTrack, if_pos (Option.isSome_iff_ne_none.mpr hfree)]
        exact hd
    · intro d kind id n hfound hd
      refine hd.imp_right fun h => ⟨List.mem_filter.mpr ⟨h.1, ?_⟩, ?_⟩
      · have htrack : d.hasTrack n = true :=
          PeerConnection.hasTrack_iff.mpr ⟨kind, mem_of_lookup hfound⟩
        have hne : s.number ≠ n := by
          intro heq
          have huntracked := h.2
          rw [heq, htrack] at huntracked
          cases huntracked
        simpa using hne
      · refine Bool.eq_false_iff.mpr fun htrue => ?_
        exact absurd (PeerConnection.mem_of_removeTrack htrue) (by simp [h.2])
    · exact fun d keys hd => hd
    · intro d hd
      refine hd.imp_right fun h => ⟨List.mem_map.mpr ⟨s, h.1, ?_⟩, h.2⟩
      rw [if_neg (by simp [h.2])]
    · exact fun d track hd => hd
    · exact fun d receiver hd => hd
    · exact fun d track hd => hd
    · exact fun d _ => Or.inl rfl
  refine hstays.imp_right fun hboth => ⟨hboth.1, hboth.2, fun hn => ?_⟩
  rcases hstep.inserting hn with hold | hnew
  · exact h.inserting hold
  · exact absurd hmade (by omega)

/-- A connection that has been closed is not opened again. -/
theorem Step.closed {e : WebRtcEvent} (hstep : x.Step e y) (hopened : c < x.opened)
    (h : (x.connections c).hasPc = false) : (y.connections c).hasPc = false := by
  refine hstep.connection (P := fun d => d.hasPc = false) ?_ ?_ ?_ ?_ ?_ ?_ ?_ ?_ ?_ ?_ h
  · exact fun hle _ => absurd hopened (not_lt.mpr hle)
  · intro d hpc hd
    rw [hd] at hpc
    cases hpc
  · intro d kind id n _ hd
    rw [PeerConnection.insertTrack]
    split <;> exact hd
  · exact fun d kind id n _ hd => hd
  · exact fun d keys hd => hd
  · exact fun d hd => hd
  · exact fun d track hd => hd
  · exact fun d receiver hd => hd
  · exact fun d track hd => hd
  · exact fun d hd => rfl

/-- **A stray sender keeps its keys.**  Once a sender is in no map, and no thread is about to
insert it, no call removes it or gives its frame cryptor other keys, until the connection is
closed. -/
theorem stray_keeps_keys {events later : List WebRtcEvent} {s : RtpSender}
    (hrun : Run Step initial events x) (hstray : x.Stray c s) (hlater : Run Step x later y) :
    (y.connections c).hasPc = false ∨ y.Stray c s := by
  have hx : x.Numbered :=
    hrun.preserves Numbered (fun _ _ _ h hstep => h.step hstep) numbered_initial
  have hy : y.Numbered ∧ c < y.opened ∧ ((y.connections c).hasPc = false ∨ y.Stray c s) := by
    refine hlater.preserves (fun z => z.Numbered ∧ c < z.opened ∧
      ((z.connections c).hasPc = false ∨ z.Stray c s)) ?_ ⟨hx, hstray.opened hx, Or.inr hstray⟩
    rintro z e z' ⟨hnumbered, hopened, hz⟩ hstep
    refine ⟨hnumbered.step hstep, hopened.trans_le hstep.opened_le, ?_⟩
    rcases hz with hclosed | hz
    · exact Or.inl (hstep.closed hopened hclosed)
    · exact hz.step hnumbered hstep
  exact hy.2.2

/-- A published track is added once more. -/
def sampleReadd : List WebRtcEvent :=
  [.call (.createPeerConnectionWithLocalStream [[97]] []), .run 1 (.addTrack 0 .audio [97]),
    .run 1 (.insertTrack 0 .audio [97] 0),
    .call (.updatePeerConnectionWithLocalStream [[97]] [] [] []), .run 2 (.addTrack 0 .audio [97]),
    .run 2 (.insertTrack 0 .audio [97] 1)]

/-- The track is removed, and the keys change. -/
def sampleRemove : List WebRtcEvent :=
  [.call (.updatePeerConnectionWithLocalStream [] [] [[97]] []),
    .run 3 (.removeTrack 0 .audio [97]), .call (.updateKeys [sampleKey 2]),
    .run 4 (.setKeys 0 1 [sampleKey 2]), .run 4 (.applyKeys 0 1)]

/-- The second sender of a track that was added twice is still there when the track has been
removed, with the keys from before. -/
theorem stray_keeps_keys_sample :
    ∃ x y, Run Step initial (sampleJoin [sampleKey 1] ++ sampleReadd) x ∧
      Run Step x sampleRemove y ∧ (y.connections 0).keys = some [sampleKey 2] ∧
        ⟨1, some [sampleKey 1]⟩ ∈ (y.connections 0).senders := by
  obtain ⟨x, y, hrun, hlater, hthreads, hstray, huntracked, hopen, hkeys⟩ : ∃ x y,
      Run Step initial (sampleJoin [sampleKey 1] ++ sampleReadd) x ∧ Run Step x sampleRemove y ∧
        x.threads.all List.isEmpty = true ∧
          (x.connections 0).senders[1]? = some ⟨1, some [sampleKey 1]⟩ ∧
            (x.connections 0).hasTrack 1 = false ∧ (y.connections 0).hasPc = true ∧
              (y.connections 0).keys = some [sampleKey 2] :=
    ⟨_, _, .cons rfl <| .cons ⟨_, _, _, rfl, rfl, rfl⟩ <| .cons ⟨_, _, _, rfl, rfl, rfl⟩ <|
      .cons rfl <| .cons ⟨_, _, _, rfl, rfl, rfl⟩ <| .cons ⟨_, _, _, rfl, rfl, rfl⟩ <|
      .cons rfl <| .cons ⟨_, _, _, rfl, rfl, rfl⟩ <| .cons ⟨_, _, _, rfl, rfl, rfl⟩ <| .nil _,
      .cons rfl <| .cons ⟨_, _, _, rfl, rfl, rfl⟩ <| .cons rfl <|
      .cons ⟨_, _, _, rfl, rfl, rfl⟩ <| .cons ⟨_, _, _, rfl, rfl, rfl⟩ <| .nil _,
      rfl, rfl, rfl, rfl, rfl⟩
  refine ⟨x, y, hrun, hlater, hkeys, ?_⟩
  have hstay : x.Stray 0 ⟨1, some [sampleKey 1]⟩ :=
    ⟨List.mem_of_getElem? hstray, huntracked, fun ⟨_, _, hn⟩ => not_pending hthreads hn⟩
  rcases stray_keeps_keys hrun hstay hlater with hclosed | hlast
  · rw [hopen] at hclosed
    cases hclosed
  · exact hlast.sender

end WebRtcRoom

end Stream

end PrivmxEndpoint
