import RustDds.Concurrency.Discovery

/-!
# No announcement is lost

A local endpoint and a peer meet when one has been registered and the other stored.  The
registration puts the endpoint into its table and then looks for peers; storing puts the peer
into its table and then tells the peer listener, which looks for endpoints later.  Whichever
insertion is the second, the look that follows it finds the other.

Until the announcement is sent, then, some task is on its way to send it, or the peer is still
in the queue of the listener.  `Owes` says which tasks those are, and the rule of debts does the
rest (`announced_of_quiet`).
-/

namespace RustDds

/-- A local endpoint, and a peer with its UDP address. -/
structure Meeting where
  info : EndpointInfo
  peer : ParticipantProxy
  dst : SocketAddr

namespace Meeting

/-- The endpoint is registered, and the peer is stored. -/
def Due (s : DiscoveryState) (x : Meeting) : Prop :=
  (x.info ∈ s.sedp.localWriters.values ∨ x.info ∈ s.sedp.localReaders.values) ∧
    x.peer ∈ s.spdp.knownPeers ∧ x.peer.metatrafficUnicast.udpAddr = some x.dst

/-- An announcement of the endpoint to the peer, among some datagrams. -/
def Among (cfg : SedpConfig) (x : Meeting) (dgrams : List (Bytes × SocketAddr)) : Prop :=
  ∃ seqNum, (endpointMessage cfg x.info seqNum, x.dst) ∈ dgrams

/-- An announcement has been sent, or the peer is still in the queue. -/
def Paid (cfg : SedpConfig) (s : DiscoveryState) (x : Meeting) : Prop :=
  x.Among cfg s.sent ∨ x.peer ∈ s.pendingPeers

/-- The task is on its way to send one. -/
def Owes (cfg : SedpConfig) (x : Meeting) : DiscoveryTask → Prop
  | .scanWriters info _ => info = x.info
  | .nextSeqNum info _ => info = x.info
  | .knownPeers info _ _ => info = x.info
  | .broadcast left _ => x.Among cfg left
  | .reportPeer proxy => proxy = x.peer
  | .localWriters proxy => proxy = x.peer
  -- the readers are still to be looked for
  | .localReaders proxy infos => proxy = x.peer ∧ (x.info ∈ infos ∨ x.info.isWriter = false)
  | .announce proxy infos => proxy = x.peer ∧ x.info ∈ infos
  | .sendTo proxy msg infos =>
    proxy = x.peer ∧ ((∃ seqNum, msg = endpointMessage cfg x.info seqNum) ∨ x.info ∈ infos)
  | _ => False

end Meeting

namespace DiscoveryState

/-- The configuration stays, the peer listener is in place, and each table holds endpoints of its
own kind. -/
structure Sound (cfg : SedpConfig) (s : DiscoveryState) : Prop where
  config : s.sedp.config = cfg
  listener : ∃ told, s.spdp.peerListener = some told ∧ s.peersTaken ≤ told.length
  writers : ∀ info ∈ s.sedp.localWriters.values, info.isWriter = true
  readers : ∀ info ∈ s.sedp.localReaders.values, info.isWriter = false

variable {cfg : SedpConfig} {s : DiscoveryState} {p : Pool DiscoveryState DiscoveryTask} {i : ℕ}

lemma sound_new (cfg : ParticipantConfig) : Sound cfg.sedp (new cfg) :=
  ⟨rfl, ⟨[], rfl, le_rfl⟩, fun _ h => (by cases h), fun _ h => (by cases h)⟩

lemma Sound.insertReader (h : Sound cfg s) (eid : EntityId) (topic : String) :
    Sound cfg { s with sedp := s.sedp.insertReader eid topic } := by
  refine ⟨h.config, h.listener, h.writers, fun info hinfo => ?_⟩
  rcases Table.mem_values_of_insert hinfo with rfl | hold
  · rfl
  · exact h.readers info hold

lemma Sound.insertWriter (h : Sound cfg s) (eid : EntityId) (topic : String) :
    Sound cfg { s with sedp := s.sedp.insertWriter eid topic } := by
  refine ⟨h.config, h.listener, fun info hinfo => ?_, h.readers⟩
  rcases Table.mem_values_of_insert hinfo with rfl | hold
  · rfl
  · exact h.writers info hold

lemma Sound.reportPeer (h : Sound cfg s) (proxy : ParticipantProxy) :
    Sound cfg { s with spdp := s.spdp.reportPeer proxy } := by
  obtain ⟨told, htold, hlen⟩ := h.listener
  refine ⟨h.config, ⟨told ++ [proxy], ?_, ?_⟩, h.writers, h.readers⟩
  · rw [SpdpService.reportPeer, htold, Option.map_some]
  · rw [List.length_append]
    exact Nat.le_add_right_of_le hlen

lemma Sound.enter (h : Sound cfg s) (c : DiscoveryCall) : Sound cfg (s.enter c).1 := by
  cases c with
  | newReader topic =>
    rw [DiscoveryState.enter]
    split <;> exact ⟨h.config, h.listener, h.writers, h.readers⟩
  | registerReader eid topic => exact h.insertReader eid topic
  | registerWriter eid topic => exact h.insertWriter eid topic
  | onRemoteWriter | storePeer => exact ⟨h.config, h.listener, h.writers, h.readers⟩
  | matchListener =>
    rw [DiscoveryState.enter]
    split <;> exact ⟨h.config, h.listener, h.writers, h.readers⟩
  | peerListener =>
    rw [DiscoveryState.enter]
    split
    · exact h
    rename_i proxy proxies hpending
    obtain ⟨told, htold, -⟩ := h.listener
    refine ⟨h.config, ⟨told, htold, ?_⟩, h.writers, h.readers⟩
    rw [pendingPeers, htold, Option.getD_some] at hpending
    have hlt : told.drop s.peersTaken ≠ [] := by
      rw [hpending]
      exact List.cons_ne_nil _ _
    exact Nat.lt_of_not_le fun hle => hlt (List.drop_eq_nil_of_le hle)

lemma Sound.move (h : Sound cfg s) (t : DiscoveryTask) : Sound cfg (s.move t).1 := by
  have hsame : Sound cfg s → ∀ s' : DiscoveryState, s'.sedp.config = s.sedp.config →
      s'.spdp = s.spdp → s'.peersTaken = s.peersTaken →
      s'.sedp.localWriters = s.sedp.localWriters → s'.sedp.localReaders = s.sedp.localReaders →
        Sound cfg s' := by
    intro h s' hconfig hspdp htaken hwriters hreaders
    exact ⟨hconfig.trans h.config, by rw [hspdp, htaken]; exact h.listener,
      hwriters ▸ h.writers, hreaders ▸ h.readers⟩
  cases t with
  | call c => exact h.enter c
  | insertReader reader eid topic => exact h.insertReader eid topic
  | reportPeer proxy => exact h.reportPeer proxy
  | broadcast left matched =>
    rcases left with _ | ⟨dgram, left⟩
    · cases matched <;> exact hsame h _ rfl rfl rfl rfl rfl
    · exact hsame h _ rfl rfl rfl rfl rfl
  | sendMatches guid readers => cases readers <;> exact hsame h _ rfl rfl rfl rfl rfl
  | announce proxy infos => cases infos <;> exact hsame h _ rfl rfl rfl rfl rfl
  | applyMatch m =>
    rw [DiscoveryState.move]
    split <;> exact hsame h _ rfl rfl rfl rfl rfl
  | insertState | scanWriters | nextSeqNum | knownPeers | scanReaders | insertLocator |
    localWriters | localReaders | sendTo | done => exact hsame h _ rfl rfl rfl rfl rfl

/-! ## The steps -/

open Meeting

/-- A step that neither registers an endpoint nor stores a peer has only to settle what its task
owed. -/
lemma covers_of_same (h : Program.Covers Due (Paid cfg) (Owes cfg) p) {t : DiscoveryTask}
    (ht : p.task i = t) {s' : DiscoveryState} {t' : DiscoveryTask}
    (hmove : p.shared.move t = (s', t'))
    (hwriters : s'.sedp.localWriters = p.shared.sedp.localWriters)
    (hreaders : s'.sedp.localReaders = p.shared.sedp.localReaders)
    (hspdp : s'.spdp = p.shared.spdp) (htaken : s'.peersTaken = p.shared.peersTaken)
    (hsent : ∀ dgram ∈ p.shared.sent, dgram ∈ s'.sent)
    (howes : ∀ x, Due s' x → Owes cfg x t → Paid cfg s' x ∨ Owes cfg x t') :
    Program.Covers Due (Paid cfg) (Owes cfg) (program.step p (.task i ())) := by
  subst ht
  refine h.step_task i () hmove (fun x hx => .inl ?_) (fun x _ hpaid => .inl ?_)
    fun x hx howed => (howes x hx howed).imp_right .inl
  · rw [Due, hwriters, hreaders, hspdp] at hx
    exact hx
  · rcases hpaid with ⟨seqNum, hmem⟩ | hpending
    · exact .inl ⟨seqNum, hsent _ hmem⟩
    · refine .inr ?_
      rw [pendingPeers, hspdp, htaken]
      exact hpending

/-- The first step of a call. -/
lemma covers_enter (h : Program.Covers Due (Paid cfg) (Owes cfg) p) {c : DiscoveryCall}
    (ht : p.task i = .call c) :
    Program.Covers Due (Paid cfg) (Owes cfg) (program.step p (.task i ())) := by
  have hfree : ∀ x, ¬ Owes cfg x (p.task i) := fun x hx => by
    rw [ht] at hx
    exact hx
  have hmove : p.shared.move (p.task i) = p.shared.enter c := congrArg p.shared.move ht
  have hsame : ∀ {s' t'}, p.shared.enter c = (s', t') →
      s'.sedp.localWriters = p.shared.sedp.localWriters →
      s'.sedp.localReaders = p.shared.sedp.localReaders → s'.spdp = p.shared.spdp →
      s'.peersTaken = p.shared.peersTaken → s'.sent = p.shared.sent →
        Program.Covers Due (Paid cfg) (Owes cfg) (program.step p (.task i ())) :=
    fun henter hwriters hreaders hspdp htaken hsent =>
      covers_of_same h ht henter hwriters hreaders hspdp htaken (fun _ hd => hsent ▸ hd)
        fun x _ hx => (hfree x (ht ▸ hx)).elim
  cases c with
  | newReader topic =>
    rcases enter_newReader_cases p.shared topic with henter | henter <;>
      exact hsame henter rfl rfl rfl rfl rfl
  | registerReader eid topic =>
    refine h.step_task i () hmove ?_ (fun x _ hpaid => .inl hpaid) fun x _ hx => (hfree x hx).elim
    rintro x ⟨hinfo | hinfo, hpeer⟩
    · exact .inl ⟨.inl hinfo, hpeer⟩
    · rcases Table.mem_values_of_insert hinfo with heq | hold
      · exact .inr (.inr (.inl heq.symm))
      · exact .inl ⟨.inr hold, hpeer⟩
  | registerWriter eid topic =>
    refine h.step_task i () hmove ?_ (fun x _ hpaid => .inl hpaid) fun x _ hx => (hfree x hx).elim
    rintro x ⟨hinfo | hinfo, hpeer⟩
    · rcases Table.mem_values_of_insert hinfo with heq | hold
      · exact .inr (.inr (.inl heq.symm))
      · exact .inl ⟨.inl hold, hpeer⟩
    · exact .inl ⟨.inr hinfo, hpeer⟩
  | onRemoteWriter info dataLocator => exact hsame rfl rfl rfl rfl rfl rfl
  | storePeer now proxy =>
    refine h.step_task i () hmove ?_ (fun x _ hpaid => .inl hpaid) fun x _ hx => (hfree x hx).elim
    rintro x ⟨hinfo, hpeer, hdst⟩
    rcases Table.mem_values_of_insert hpeer with heq | hold
    · exact .inr (.inr (.inl heq.symm))
    · exact .inl ⟨hinfo, hold, hdst⟩
  | matchListener =>
    cases hpending : p.shared.pendingMatches with
    | nil => exact hsame (enter_matchListener_nil hpending) rfl rfl rfl rfl rfl
    | cons m ms => exact hsame (enter_matchListener_cons hpending) rfl rfl rfl rfl rfl
  | peerListener =>
    cases hpending : p.shared.pendingPeers with
    | nil => exact hsame (enter_peerListener_nil hpending) rfl rfl rfl rfl rfl
    | cons proxy proxies =>
      -- the peer that is taken is the task's from now on
      rw [enter_peerListener_cons hpending] at hmove
      refine h.step_task i () hmove (fun x hx => .inl hx) ?_ fun x _ hx => (hfree x hx).elim
      rintro x - (hsent | hqueued)
      · exact .inl (.inl hsent)
      rw [hpending] at hqueued
      rcases List.mem_cons.mp hqueued with heq | hrest
      · exact .inr (.inl heq.symm)
      · refine .inl (.inr ?_)
        have htail : (p.shared.spdp.peerListener.getD []).drop (p.shared.peersTaken + 1) =
            p.shared.pendingPeers.tail := by
          rw [pendingPeers, List.tail_drop]
        rw [pendingPeers, htail, hpending]
        exact hrest

/-- **The step.** -/
lemma covers_task (hsound : Sound cfg p.shared) (h : Program.Covers Due (Paid cfg) (Owes cfg) p) :
    Program.Covers Due (Paid cfg) (Owes cfg) (program.step p (.task i ())) := by
  have hmessage : ∀ info seqNum, p.shared.announcement info seqNum =
      endpointMessage cfg info seqNum := fun info seqNum => by rw [announcement, hsound.config]
  cases ht : p.task i with
  | call c => exact covers_enter h ht
  | insertState reader eid topic =>
    exact covers_of_same h ht rfl rfl rfl rfl rfl (fun _ hd => hd) fun _ _ hx => hx.elim
  | insertReader reader eid topic =>
    refine h.step_task i () (congrArg p.shared.move ht) ?_ (fun x _ hpaid => .inl hpaid)
      fun x _ hx => ?_
    · rintro x ⟨hinfo | hinfo, hpeer⟩
      · exact .inl ⟨.inl hinfo, hpeer⟩
      · rcases Table.mem_values_of_insert hinfo with heq | hold
        · exact .inr (.inr (.inl heq.symm))
        · exact .inl ⟨.inr hold, hpeer⟩
    · rw [ht] at hx
      exact hx.elim
  | scanWriters info reader =>
    exact covers_of_same h ht rfl rfl rfl rfl rfl (fun _ hd => hd) fun _ _ hx => .inr hx
  | nextSeqNum info matched =>
    exact covers_of_same h ht rfl rfl rfl rfl rfl (fun _ hd => hd) fun _ _ hx => .inr hx
  | knownPeers info seqNum matched =>
    refine covers_of_same h ht rfl rfl rfl rfl rfl (fun _ hd => hd) fun x hx hinfo => .inr ?_
    obtain ⟨-, hpeer, hdst⟩ := hx
    refine ⟨seqNum, List.mem_map.mpr ⟨x.dst, List.mem_filterMap.mpr ⟨x.peer, hpeer, hdst⟩, ?_⟩⟩
    rw [hmessage, show info = x.info from hinfo]
  | broadcast left matched =>
    cases left with
    | nil =>
      have hnone : ∀ x, ¬ Owes cfg x (.broadcast [] matched) := fun x ⟨_, hmem⟩ => by cases hmem
      cases matched with
      | none =>
        exact covers_of_same h ht rfl rfl rfl rfl rfl (fun _ hd => hd)
          fun x _ hx => (hnone x hx).elim
      | some matched =>
        exact covers_of_same h ht rfl rfl rfl rfl rfl (fun _ hd => hd)
          fun x _ hx => (hnone x hx).elim
    | cons dgram left =>
      refine covers_of_same h ht rfl rfl rfl rfl rfl (fun _ hd => List.mem_append_left _ hd) ?_
      rintro x - ⟨seqNum, hmem⟩
      rcases List.mem_cons.mp hmem with heq | hrest
      · exact .inl (.inl ⟨seqNum, List.mem_append_right _ (heq ▸ List.mem_singleton_self _)⟩)
      · exact .inr ⟨seqNum, hrest⟩
  | scanReaders info dataLocator =>
    exact covers_of_same h ht rfl rfl rfl rfl rfl (fun _ hd => hd) fun _ _ hx => hx.elim
  | insertLocator guid dataLocator readers =>
    exact covers_of_same h ht rfl rfl rfl rfl rfl (fun _ hd => hd) fun _ _ hx => hx.elim
  | sendMatches guid readers =>
    cases readers with
    | nil => exact covers_of_same h ht rfl rfl rfl rfl rfl (fun _ hd => hd) fun _ _ hx => hx.elim
    | cons eid readers =>
      exact covers_of_same h ht rfl rfl rfl rfl rfl (fun _ hd => hd) fun _ _ hx => hx.elim
  | applyMatch m =>
    cases hreader : p.shared.readers.lookup m.readerEid with
    | none =>
      exact covers_of_same h ht (move_applyMatch_none hreader) rfl rfl rfl rfl (fun _ hd => hd)
        fun _ _ hx => hx.elim
    | some reader =>
      exact covers_of_same h ht (move_applyMatch_some hreader) rfl rfl rfl rfl (fun _ hd => hd)
        fun _ _ hx => hx.elim
  | reportPeer proxy =>
    -- the peer joins the queue, behind those that wait there
    obtain ⟨told, htold, hlen⟩ := hsound.listener
    have hqueue : ({ p.shared with spdp := p.shared.spdp.reportPeer proxy } :
        DiscoveryState).pendingPeers = p.shared.pendingPeers ++ [proxy] := by
      rw [pendingPeers, pendingPeers, SpdpService.reportPeer, htold, Option.map_some,
        Option.getD_some, Option.getD_some, List.drop_append_of_le_length hlen]
    refine h.step_task i () (congrArg p.shared.move ht) (fun x hx => .inl hx) ?_ fun x _ hx => ?_
    · rintro x - (hsent | hqueued)
      · exact .inl (.inl hsent)
      · refine .inl (.inr ?_)
        rw [hqueue]
        exact List.mem_append_left _ hqueued
    · rw [ht] at hx
      refine .inl (.inr ?_)
      rw [hqueue, show proxy = x.peer from hx]
      exact List.mem_append_right _ (List.mem_singleton_self _)
  | localWriters proxy =>
    refine covers_of_same h ht rfl rfl rfl rfl rfl (fun _ hd => hd)
      fun x hx hpeer => .inr ⟨hpeer, ?_⟩
    exact hx.1.imp id fun hreader => hsound.readers _ hreader
  | localReaders proxy infos =>
    refine covers_of_same h ht rfl rfl rfl rfl rfl (fun _ hd => hd) ?_
    rintro x ⟨hinfo, -⟩ ⟨hpeer, hinfos⟩
    refine .inr ⟨hpeer, List.mem_append.mpr (hinfos.imp id fun hkind => ?_)⟩
    refine hinfo.resolve_left fun hwriter => ?_
    rw [hsound.writers _ hwriter] at hkind
    cases hkind
  | announce proxy infos =>
    cases infos with
    | nil =>
      exact covers_of_same h ht rfl rfl rfl rfl rfl (fun _ hd => hd)
        fun _ _ hx => (List.not_mem_nil hx.2).elim
    | cons info infos =>
      refine covers_of_same h ht rfl rfl rfl rfl rfl (fun _ hd => hd) ?_
      rintro x - ⟨hpeer, hinfos⟩
      refine .inr ⟨hpeer, (List.mem_cons.mp hinfos).imp
        (fun heq => ⟨p.shared.sedp.seqCounter + 1, ?_⟩) id⟩
      rw [hmessage, heq]
  | sendTo proxy msg infos =>
    refine covers_of_same h ht rfl rfl rfl rfl rfl (fun _ hd => List.mem_append_left _ hd) ?_
    rintro x hx ⟨rfl, ⟨seqNum, rfl⟩ | hinfos⟩
    · refine .inl (.inl ⟨seqNum, List.mem_append_right _ ?_⟩)
      rw [hx.2.2]
      exact List.mem_singleton_self _
    · exact .inr ⟨rfl, hinfos⟩
  | done => exact covers_of_same h ht rfl rfl rfl rfl rfl (fun _ hd => hd) fun _ _ hx => hx.elim

/-- The sweep only removes peers. -/
lemma covers_env (h : Program.Covers Due (Paid cfg) (Owes cfg) p) (now : ℕ) :
    Program.Covers Due (Paid cfg) (Owes cfg) (program.step p (.env now)) :=
  h.step_env now
    (fun _ ⟨hinfo, hpeer, hdst⟩ => ⟨hinfo, Table.mem_values_of_retain hpeer, hdst⟩)
    fun _ hpaid => hpaid

/-! ## The run -/

/-- Every step keeps the invariant. -/
lemma covers_step (turn : Turn)
    (h : Sound cfg p.shared ∧ Program.Covers Due (Paid cfg) (Owes cfg) p) :
    Sound cfg (program.step p turn).shared ∧
      Program.Covers Due (Paid cfg) (Owes cfg) (program.step p turn) := by
  obtain ⟨hsound, hcovers⟩ := h
  cases turn with
  | task i _ => exact ⟨hsound.move _, covers_task hsound hcovers⟩
  | env now =>
    exact ⟨⟨hsound.config, hsound.listener, hsound.writers, hsound.readers⟩,
      covers_env hcovers now⟩

lemma covers_start (cfg : ParticipantConfig) (calls : ℕ → DiscoveryCall) :
    Program.Covers Due (Paid cfg.sedp) (Owes cfg.sedp) (start cfg calls) := by
  rintro x ⟨hinfo | hinfo, -⟩ <;> cases hinfo

/-- An idle task owes nothing. -/
lemma not_owes_of_idle {t : DiscoveryTask} (h : t.Idle) (x : Meeting) : ¬ Owes cfg x t := by
  cases t with
  | call | done => exact id
  | _ => exact h.elim

/-- Participant 2, on IPv4. -/
def peer2 : ParticipantProxy where
  guid := ⟨(ParticipantConfig.numbered 2).guidPrefix, entityIdParticipant⟩
  metatrafficUnicast := .udpV4 (FixedBytes.zero 4) 7410
  defaultUnicast := .udpV4 (FixedBytes.zero 4) 7411
  builtinEndpoints := 0
  leaseDuration := 0
  lastSeen := none

/-- A writer is registered, and participant 2 stored. -/
def twoMeet : ℕ → DiscoveryCall
  | 0 => .registerWriter (entityIdForWriter 1) "a"
  | 1 => .storePeer 0 peer2
  | _ => .peerListener

/-- The peer is stored when the writer is in its table already, and has seen no peer yet. -/
def crossing : List Turn :=
  [.task 0 (), .task 0 (), .task 0 (), .task 1 (), .task 0 (), .task 0 (), .task 1 (),
    .task 2 (), .task 2 (), .task 2 (), .task 2 (), .task 2 (), .task 2 ()]

end DiscoveryState

end RustDds
