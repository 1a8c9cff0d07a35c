import RustDds.Network.Honesty
import RustDds.Network.Matching

/-!
# Announcements in flight

A datagram that comes late must not undo what a later one has done.  So that it does not,
a participant never announces two endpoints under one id, as long as it makes fewer than `2 ^ 24`:
the ids of its endpoints are of numbers drawn (`RtpsUdpParticipant.Numbered`), and what it has in
flight announces endpoints that it has (`Network.Announcing`).

What another participant knows of an endpoint, it knows until it is told otherwise (`Host.Known`).
-/

namespace RustDds

/-! ## The numbers of the endpoints -/

namespace RtpsUdpParticipant

variable {p : RtpsUdpParticipant} {e : ParticipantEvent}

/-- The local endpoints have ids of numbers drawn so far. -/
def Numbered (p : RtpsUdpParticipant) : Prop :=
  ∀ k eid info, (p.sedp.locals k).lookup eid = some info →
    ∃ n : UInt32, n.toNat ≤ p.inner.entityCounter.toNat ∧ eid = k.entityId n

/-- If the step is to make an endpoint, the number it draws is below `2 ^ 24`. -/
def DrawsFresh (p : RtpsUdpParticipant) (e : ParticipantEvent) : Prop :=
  e.makes ≠ none → p.inner.entityCounter.toNat + 1 < 2 ^ 24

lemma DrawsFresh.of_makes {p : RtpsUdpParticipant} {e : ParticipantEvent} (h : e.makes = none) :
    p.DrawsFresh e := fun hne => absurd h hne

/-- A step that is to make an endpoint may draw a number, and no other does. -/
lemma entityCounter_step (p : RtpsUdpParticipant) (e : ParticipantEvent) :
    (p.step e).inner.entityCounter = p.inner.entityCounter ∨
      e.makes ≠ none ∧ (p.step e).inner.entityCounter = p.inner.entityCounter + 1 := by
  have hmake : ∀ {k topic}, e.makes = some (k, topic) →
      (p.step e).inner.entityCounter = p.inner.entityCounter ∨
        e.makes ≠ none ∧ (p.step e).inner.entityCounter = p.inner.entityCounter + 1 := by
    intro k topic hmakes
    have hne : e.makes ≠ none := by simp [hmakes]
    by_cases h : topic ≠ "" ∧ p.inner.CanNumber
    · exact .inr ⟨hne, (registers_step hmakes h.1 h.2).counter_eq⟩
    · rcases (step_of_not_registers hmakes h).2 with heq | heq
      · exact .inl (by rw [heq])
      · exact .inr ⟨hne, by rw [heq]⟩
  cases e with
  | newPublisher topic qos => exact hmake rfl
  | newSubscriber topic qos opts utc => exact hmake rfl
  | takeMatch =>
    rw [step, handle, takeMatch]
    cases p.pendingMatches <;> exact .inl rfl
  | takePeer =>
    rw [step, handle, takePeer]
    cases p.pendingPeers <;> exact .inl rfl
  | dataPacket d => exact .inl (RtpsParticipant.sameEndpoints_handleDataPacket d p.inner).counter_eq
  | write w utc payload =>
    exact .inl (RtpsParticipant.sameEndpoints_write w utc payload p.inner).counter_eq
  | _ => exact .inl rfl

lemma toNat_entityCounter_step_le (p : RtpsUdpParticipant) (e : ParticipantEvent) :
    (p.step e).inner.entityCounter.toNat ≤
      p.inner.entityCounter.toNat + if e.makes = none then 0 else 1 := by
  rcases p.entityCounter_step e with h | ⟨hmakes, h⟩
  · rw [h]
    exact Nat.le_add_right _ _
  · rw [h, if_neg hmakes, UInt32.toNat_add]
    exact Nat.mod_le _ _

/-- A counter that is far from its end moves up. -/
lemma toNat_entityCounter_le_step (hfresh : DrawsFresh p e) :
    p.inner.entityCounter.toNat ≤ (p.step e).inner.entityCounter.toNat := by
  rcases p.entityCounter_step e with h | ⟨hmakes, h⟩
  · rw [h]
  · have hlt := hfresh hmakes
    rw [h, UInt32.toNat_add, Nat.mod_eq_of_lt (by simp; omega)]
    exact Nat.le_add_right _ _

/-- The id of an endpoint that is registered now is not in use. -/
lemma Numbered.lookup_nextId (h : Numbered p) (hfresh : p.inner.entityCounter.toNat + 1 < 2 ^ 24)
    (k k' : EndpointKind) : (p.sedp.locals k').lookup (p.inner.nextId k) = none := by
  by_contra hne
  obtain ⟨info, hinfo⟩ := Option.ne_none_iff_exists'.mp hne
  obtain ⟨n, hn, heq⟩ := h k' _ info hinfo
  obtain ⟨-, hmod⟩ := EndpointKind.entityId_inj.mp heq
  rw [UInt32.toNat_add, Nat.mod_eq_of_lt (a := _ + _) (by simp; omega)] at hmod
  simp only [UInt32.reduceToNat] at hmod
  omega

/-- **The step.** -/
lemma Numbered.step (h : Numbered p) (hfresh : DrawsFresh p e) : Numbered (p.step e) := by
  have hle := toNat_entityCounter_le_step hfresh
  intro k' eid info hinfo
  have hold : (p.sedp.locals k').lookup eid = some info →
      ∃ n : UInt32, n.toNat ≤ (p.step e).inner.entityCounter.toNat ∧ eid = k'.entityId n := by
    intro hinfo
    obtain ⟨n, hn, heq⟩ := h k' eid info hinfo
    exact ⟨n, hn.trans hle, heq⟩
  rcases p.local_step e with hsame | ⟨k, topic, -, -, -, hreg⟩
  · rw [hsame.locals_eq] at hinfo
    exact hold hinfo
  · rw [hreg.locals_eq] at hinfo
    split at hinfo
    · rename_i hk
      subst hk
      rcases Table.lookup_insert_eq_some.mp hinfo with ⟨rfl, -⟩ | ⟨-, hinfo⟩
      · exact ⟨_, Nat.le_of_eq (congrArg UInt32.toNat hreg.counter_eq.symm), rfl⟩
      · exact hold hinfo
    · exact hold hinfo

/-- A local endpoint stays one. -/
lemma Numbered.mem_localEndpoints_step (h : Numbered p) (hfresh : DrawsFresh p e)
    {info : EndpointInfo} (hinfo : info ∈ p.localEndpoints) :
    info ∈ (p.step e).localEndpoints := by
  rcases p.local_step e with hsame | ⟨k, topic, hmakes, -, -, hreg⟩
  · rw [hsame.localEndpoints_eq]
    exact hinfo
  · obtain ⟨k', eid, hlookup⟩ := mem_localEndpoints.mp hinfo
    refine mem_localEndpoints.mpr ⟨k', eid, ?_⟩
    rw [hreg.locals_eq]
    split
    · rename_i hk
      subst hk
      have hne : eid ≠ p.inner.nextId k' := by
        rintro rfl
        rw [h.lookup_nextId (hfresh (by simp [hmakes]))] at hlookup
        cases hlookup
      rw [AList.lookup_insert_ne hne, hlookup]
    · exact hlookup

/-- Two local endpoints of one GUID are one. -/
lemma Numbered.eq_of_guid_eq {ι : Type*} {H : Hosts ι} {i : ι} (h : Numbered p)
    (hp : H.Hosted i p) {info info' : EndpointInfo} (hinfo : info ∈ p.localEndpoints)
    (hinfo' : info' ∈ p.localEndpoints) (hguid : info.guid = info'.guid) : info = info' := by
  obtain ⟨k, eid, hlookup⟩ := mem_localEndpoints.mp hinfo
  obtain ⟨k', eid', hlookup'⟩ := mem_localEndpoints.mp hinfo'
  obtain ⟨n, -, heid⟩ := h k eid info hlookup
  obtain ⟨n', -, heid'⟩ := h k' eid' info' hlookup'
  have heq : eid = eid' := by
    rw [(hp.locals k eid info hlookup).2, (hp.locals k' eid' info' hlookup').2] at hguid
    exact congrArg Guid.entity hguid
  have hk : k = k' := by
    rw [heid, heid'] at heq
    exact (EndpointKind.entityId_inj.mp heq).1
  subst hk heq
  exact Option.some.inj (hlookup.symm.trans hlookup')

end RtpsUdpParticipant

/-! ## What SEDP knows -/

/-- `q'` knows the remote endpoints that `q` knows. -/
structure SedpService.SameRemotes (q q' : SedpService) : Prop where
  remoteWriters : q'.remoteWriters = q.remoteWriters
  remoteReaders : q'.remoteReaders = q.remoteReaders
  remoteReaderLocators : q'.remoteReaderLocators = q.remoteReaderLocators

/-- Only a datagram teaches SEDP of remote endpoints. -/
lemma RtpsUdpParticipant.sameRemotes_step (p : RtpsUdpParticipant) {e : ParticipantEvent}
    (he : ∀ data src, e ≠ .sedpPacket data src) : p.sedp.SameRemotes (p.step e).sedp := by
  have hunmoved : p.Unmoved (p.step e) → p.sedp.SameRemotes (p.step e).sedp := by
    intro hs
    obtain ⟨localWriters, seqCounter, hsedp⟩ := hs.sedp_eq
    rw [hsedp]
    exact ⟨rfl, rfl, rfl⟩
  have heff := effects_step p e
  cases e with
  | sedpPacket data src => exact absurd rfl (he data src)
  | takeMatch =>
    rcases heff with heq | ⟨-, -, -, hsedp, -⟩
    · rw [heq]
      exact ⟨rfl, rfl, rfl⟩
    · rw [hsedp]
      exact ⟨rfl, rfl, rfl⟩
  | newSubscriber topic qos opts utc =>
    rcases heff with hs | ⟨-, seqCounter, hsedp, -⟩
    · exact hunmoved hs
    · rw [hsedp]
      exact ⟨rfl, rfl, rfl⟩
  | unsubscribe eid =>
    rw [heff.1]
    exact ⟨rfl, rfl, rfl⟩
  | spdpPacket | sweep | takePeer | dataPacket | newPublisher | write => exact hunmoved heff

/-- An endpoint of the host is known, and if it is a reader, where its samples go. -/
def Host.Known (h : Host) (q : SedpService) (info : EndpointInfo) : Prop :=
  if info.isWriter then q.remoteWriters.lookup info.guid = some info
  else q.remoteReaders.lookup info.guid = some info ∧
    q.remoteReaderLocators.lookup info.guid = some (h.addr.locatorAt h.cfg.dataUnicastPort)

namespace Host.Known

variable {h h' : Host} {q q' : SedpService} {info info' : EndpointInfo}

lemma of_sameRemotes (hknown : h.Known q info) (hq : q.SameRemotes q') : h.Known q' info := by
  rw [Host.Known, hq.remoteWriters, hq.remoteReaders, hq.remoteReaderLocators]
  exact hknown

/-- What is announced is known then. -/
lemma record_self (h : Host) (q : SedpService) (info : EndpointInfo) :
    h.Known (q.record (h.announced info)) info := by
  rw [Host.Known, SedpService.record_eq]
  dsimp only
  by_cases hw : info.isWriter
  · rw [if_pos hw, if_pos (show (h.announced info).isWriter from hw)]
    exact AList.lookup_insert ..
  · rw [if_neg hw, if_neg (show ¬ (h.announced info).isWriter from hw),
      if_neg (show ¬ (h.announced info).isWriter from hw)]
    exact ⟨AList.lookup_insert .., AList.lookup_insert ..⟩

/-- An announcement of another endpoint changes nothing about this one. -/
lemma record_of_ne (hknown : h.Known q info) (hne : info.guid ≠ info'.guid) :
    h.Known (q.record (h'.announced info')) info := by
  have hlookup : ∀ {ν : Type} (m : Table Guid ν) (v : ν),
      (m.insert (h'.announced info').guid v).lookup info.guid = m.lookup info.guid :=
    fun _ _ => AList.lookup_insert_ne hne
  rw [Host.Known, SedpService.record_eq]
  cases hw : (h'.announced info').isWriter with
  | true => simpa only [if_true, hlookup, Host.Known] using hknown
  | false => simpa only [Bool.false_eq_true, if_false, hlookup, Host.Known] using hknown

end Host.Known

/-! ## Announcements in flight -/

/-- The announcement of the endpoint fits in a datagram. -/
def Host.Fits (h : Host) (info : EndpointInfo) : Prop :=
  (endpointMessage h.cfg.sedp info 0).length ≤ maxDatagramLen

instance Host.decidableFits (h : Host) (info : EndpointInfo) : Decidable (h.Fits info) :=
  inferInstanceAs (Decidable ((endpointMessage h.cfg.sedp info 0).length ≤ maxDatagramLen))

/-- It does so under any number. -/
lemma Host.Fits.length_le {h : Host} {info : EndpointInfo} (hfits : h.Fits info)
    (seqNum : UInt32) : (endpointMessage h.cfg.sedp info seqNum).length ≤ maxDatagramLen := by
  refine Nat.le_trans (Nat.le_of_eq ?_) hfits
  rw [← Submessage.message_announcement, ← Submessage.message_announcement,
    Submessage.length_message, Submessage.length_message]
  exact congrArg (24 + ·) ((length_dataBody ..).trans (length_dataBody ..).symm)

/-- An endpoint of the participant after a registration is the one registered or was there. -/
lemma RtpsUdpParticipant.Registers.mem_cases {p p' : RtpsUdpParticipant} {out : List Effect}
    {k : EndpointKind} {topic : String} (h : p.Registers p' out k topic) {info : EndpointInfo}
    (hinfo : info ∈ p'.localEndpoints) :
    info = p.nextEndpoint k topic ∨ info ∈ p.localEndpoints := by
  obtain ⟨k', eid, hlookup⟩ := RtpsUdpParticipant.mem_localEndpoints.mp hinfo
  rw [h.locals_eq] at hlookup
  split at hlookup
  · rcases Table.lookup_insert_eq_some.mp hlookup with ⟨-, heq⟩ | ⟨-, hold⟩
    · exact .inl heq
    · exact .inr (RtpsUdpParticipant.mem_localEndpoints.mpr ⟨k, eid, hold⟩)
  · exact .inr (RtpsUdpParticipant.mem_localEndpoints.mpr ⟨k', eid, hlookup⟩)

namespace Network

variable {ι : Type*} {H : Hosts ι} {s : Network ι} {a b i : ι} {e : ParticipantEvent}
  {info : EndpointInfo}

/-- A datagram in flight from `a` to `b` announces the endpoint. -/
def InFlight (H : Hosts ι) (s : Network ι) (a b : ι) (info : EndpointInfo) : Prop :=
  ∃ pkt ∈ s.wire, pkt.sender = a ∧ pkt.dst = (H.host b).addr ∧ H.Announces pkt info

/-- The ids of the endpoints of `a` are of numbers drawn, and what it announces are endpoints that
it has. -/
structure Announcing (H : Hosts ι) (s : Network ι) (a : ι) : Prop where
  honest : Honest H s
  numbered : (s.node a).Numbered
  flight : ∀ pkt ∈ s.wire, pkt.sender = a →
    (∃ info ∈ (s.node a).localEndpoints, H.Announces pkt info) ∨ Silent pkt.msg

lemma announcing_start (H : Hosts ι) (a : ι) : Announcing H (start H) a :=
  ⟨honest_start H, fun k _ _ h => (by cases k <;> cases h), fun _ h => (by cases h)⟩

lemma Announcing.without (h : Announcing H s a) (k : ℕ) : Announcing H (s.without k) a :=
  ⟨h.honest.without k, h.numbered, fun pkt hpkt => h.flight pkt (List.mem_of_mem_eraseIdx hpkt)⟩

variable [DecidableEq ι]

lemma Announcing.perform (h : Announcing H s a) (he : H.Truthful e)
    (hfresh : i = a → (s.node a).DrawsFresh e) : Announcing H (s.perform H i e) a := by
  have hstep := (h.honest.hosted i).step he
  by_cases hi : i = a
  · subst hi
    refine ⟨h.honest.perform he, ?_, fun pkt hpkt hsender => ?_⟩
    · rw [node_perform_self]
      exact h.numbered.step (hfresh rfl)
    · rw [node_perform_self]
      rcases mem_wire_perform.mp hpkt with hold | ⟨msg, dst, hsend, -, rfl⟩
      · refine (h.flight pkt hold hsender).imp_left fun ⟨info, hinfo, hann⟩ => ⟨info, ?_, hann⟩
        exact h.numbered.mem_localEndpoints_step (hfresh rfl) hinfo
      · exact (h.honest.hosted i).sends hstep hsend
  · have hnode : (s.perform H i e).node a = s.node a := node_perform_of_ne (Ne.symm hi)
    refine ⟨h.honest.perform he, ?_, fun pkt hpkt hsender => ?_⟩
    · rw [hnode]
      exact h.numbered
    · rw [hnode]
      rcases mem_wire_perform.mp hpkt with hold | ⟨msg, dst, -, -, rfl⟩
      · exact h.flight pkt hold hsender
      · exact absurd hsender hi

/-- If the step is to make an endpoint of `a`, the number drawn has not been used. -/
def Fresh (a : ι) (s : Network ι) : NetworkEvent ι → Prop
  | .act i e => i = a → (s.node a).DrawsFresh e
  | _ => True

/-- **The step.** -/
lemma Announcing.step (h : Announcing H s a) {e : NetworkEvent ι} (hfresh : Fresh a s e) :
    Announcing H (s.step H e) a := by
  cases e with
  | act i e =>
    rw [Network.step]
    split
    · exact h
    · rename_i hlocal
      exact h.perform (Hosts.truthful_of_not_receives hlocal) hfresh
  | hear i j now seqNum direct =>
    have hspdp := h.perform (i := i) (e := .spdpPacket now ((H.host j).announcement seqNum)
      (H.host j).addr) (H.truthful_announcement now j seqNum) fun _ => .of_makes rfl
    rw [Network.step]
    split
    · exact hspdp.perform trivial fun _ => .of_makes rfl
    · exact hspdp
  | deliver k j now utc again =>
    refine deliver_rule (I := fun t => Announcing H t a) h (fun t k ht => ht.without k)
      (fun pkt hpkt _ => ?_) fun pkt hpkt _ => ?_
    · have hspdp := h.perform (i := j) (e := .spdpPacket now pkt.msg pkt.src)
        (.inr fun sp => h.honest.spdp_wire hpkt sp now _) fun _ => .of_makes rfl
      exact hspdp.perform trivial fun _ => .of_makes rfl
    · exact h.perform trivial fun _ => .of_makes rfl
  | lose k => exact h.without k

/-! ## Counting the endpoints made -/

/-- The step is to make an endpoint of `a`. -/
def makesAt (a : ι) : NetworkEvent ι → Bool
  | .act i e => decide (i = a) && e.makes.isSome
  | _ => false

lemma toNat_entityCounter_node_step_le (H : Hosts ι) (s : Network ι) (e : NetworkEvent ι) (a : ι) :
    ((s.step H e).node a).inner.entityCounter.toNat ≤
      (s.node a).inner.entityCounter.toNat + if makesAt a e then 1 else 0 := by
  obtain ⟨es, hes, hall | ⟨e', rfl, rfl⟩⟩ := node_step H s e a
  · have hle : (es.foldl RtpsUdpParticipant.step (s.node a)).inner.entityCounter.toNat ≤
        (s.node a).inner.entityCounter.toNat := by
      refine (Run.each_of_forall fun e' he' _ => hall e' he').foldl
        (P := fun _ e' => e'.makes = none) (I := fun p : RtpsUdpParticipant =>
          p.inner.entityCounter.toNat ≤ (s.node a).inner.entityCounter.toNat)
        (fun p e' hp hmakes => ?_) le_rfl
      have hstep := p.toNat_entityCounter_step_le e'
      rw [if_pos hmakes] at hstep
      exact hstep.trans hp
    rw [hes]
    exact hle.trans (Nat.le_add_right _ _)
  · rw [hes]
    refine ((s.node a).toNat_entityCounter_step_le e').trans (Nat.add_le_add_left ?_ _)
    cases hmakes : e'.makes <;> simp [makesAt, hmakes]

/-- A run in which `a` is to make fewer than `2 ^ 24` endpoints uses no id of `a` again. -/
lemma fresh_of_countP (H : Hosts ι) (a : ι) (events : List (NetworkEvent ι)) (s : Network ι)
    (hcount : (s.node a).inner.entityCounter.toNat + events.countP (makesAt a) < 2 ^ 24) :
    Run.Each (step H) (Fresh a) s events := by
  induction events generalizing s with
  | nil => trivial
  | cons e events ih =>
    rw [List.countP_cons] at hcount
    refine ⟨?_, ih _ ?_⟩
    · cases e with
      | act i e =>
        rintro rfl hmakes
        have hcons : makesAt i (.act i e) = true := by
          simp [makesAt, Option.isSome_iff_ne_none, hmakes]
        rw [if_pos hcons] at hcount
        omega
      | _ => trivial
    · have hstep := toNat_entityCounter_node_step_le H s e a
      omega

lemma fresh_run (H : Hosts ι) (a : ι) {events : List (NetworkEvent ι)}
    (hcount : events.countP (makesAt a) < 2 ^ 24) :
    Run.Each (step H) (Fresh a) (start H) events := by
  refine fresh_of_countP H a events (start H) ?_
  rw [show ((start H).node a).inner.entityCounter.toNat = 0 from rfl, Nat.zero_add]
  exact hcount

/-- **The run.** -/
lemma announcing_run {events : List (NetworkEvent ι)}
    (hfresh : Run.Each (step H) (Fresh a) (start H) events) :
    Announcing H (run H (start H) events) a :=
  hfresh.foldl (I := fun s => Announcing H s a) (fun _ _ hann he => hann.step he)
    (announcing_start H a)

end Network

end RustDds
