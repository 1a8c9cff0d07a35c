import RustDds.Concurrency.Ordering
import RustDds.Shmem.Paths

/-!
# Which write a sample is of

A publisher has the prefix of its participant and a number that its participant counts.  For the
shared-memory participants the prefix says the domain and no more, so publishers of two of them
on one domain are given the same identifiers, one after the other, and so are their samples.

Whatever a subscriber is handed has been drawn (`everywhere_move`), so samples are as distinct as
what has been drawn.  Where one participant creates all publishers of a domain, and none of its
counters overflows, samples that agree in the writer and the number are the same write
(`sameWrite_of_oneCreator`).
-/

namespace RustDds

open scoped List

/-! ## What the tasks hand on -/

/-- What the task carries has `Q`. -/
def DeliveryTask.Carrying (Q : Delivery → Prop) : DeliveryTask → Prop
  | .pushRead _ x | .enqueueRead _ x | .publish x | .retain _ x | .snapshot x | .push _ x
  | .enqueue _ _ x => Q x
  | _ => True

namespace DeliveryState

variable {cfg : DeliveryConfig} {s s' : DeliveryState} {Q : Delivery → Prop}
  {p : Pool DeliveryState DeliveryTask}

/-- All that subscribers have seen, and all that is kept for later ones, has `Q`. -/
structure Everywhere (Q : Delivery → Prop) (s : DeliveryState) : Prop where
  histories : ∀ sub ∈ s.subscriptions, ∀ x ∈ sub.history, Q x
  caches : ∀ topic st, s.topics.lookup topic = some st → ∀ x ∈ st.cache, Q x
  last : ∀ topic x, s.lastSample.lookup topic = some x → Q x

namespace Everywhere

variable (h : Everywhere Q s)
include h

lemma modifySub {r : ℕ} {f : Subscription → Subscription}
    (hf : ∀ sub : Subscription, ∀ x ∈ (f sub).history, x ∈ sub.history ∨ Q x) :
    Everywhere Q (s.modifySub r f) where
  histories sub hsub y hx := by
    obtain ⟨i, hi⟩ := List.mem_iff_getElem?.1 hsub
    rw [DeliveryState.modifySub, List.getElem?_modify] at hi
    obtain ⟨sub', hsub', rfl⟩ := Option.map_eq_some_iff.1 hi
    have hmem := List.mem_of_getElem? hsub'
    split at hx
    · exact (hf sub' y hx).elim (h.histories sub' hmem y) id
    · exact h.histories sub' hmem y hx
  caches := h.caches
  last := h.last

/-- What is done to a subscriber without touching what it has seen. -/
lemma modifySub_of_eq {r : ℕ} {f : Subscription → Subscription}
    (hf : ∀ sub, (f sub).history = sub.history) : Everywhere Q (s.modifySub r f) :=
  h.modifySub fun sub _ hx => Or.inl (hf sub ▸ hx)

lemma enqueue {r : ℕ} {f : Subscription → Delivery} (hf : ∀ sub, Q (f sub)) :
    Everywhere Q (s.modifySub r fun sub => sub.enqueue (f sub)) := by
  refine h.modifySub fun sub y hy => ?_
  rcases List.mem_append.1 ((sub.history_enqueue (f sub)).subset hy) with hy | hy
  · exact Or.inl hy
  · exact Or.inr (List.mem_singleton.1 hy ▸ hf sub)

lemma push {r : ℕ} {x : Delivery} (hx : Q x) :
    Everywhere Q (s.modifySub r fun sub => sub.push x) := by
  refine h.modifySub fun sub y hy => ?_
  rcases List.mem_append.1 ((sub.history_push x).subset hy) with hy | hy
  · exact Or.inl hy
  · exact Or.inr (List.mem_singleton.1 hy ▸ hx)

lemma concat {sub : Subscription} (hsub : ∀ x ∈ sub.history, Q x) :
    Everywhere Q { s with subscriptions := s.subscriptions ++ [sub] } where
  histories sub' hsub' := by
    rcases List.mem_append.1 hsub' with hold | hnew
    · exact h.histories sub' hold
    · exact List.mem_singleton.1 hnew ▸ hsub
  caches := h.caches
  last := h.last

lemma topicState (topic : String) (qos : DeliveryQoS) :
    ∀ x ∈ (s.topicState cfg topic qos).cache, Q x := by
  rcases s.topicState_cases cfg topic qos with hst | hnew
  · exact h.caches topic _ hst
  · rw [hnew]
    exact fun x hx => absurd hx List.not_mem_nil

lemma insert (topic : String) {st : TopicState} (hst : ∀ x ∈ st.cache, Q x) :
    Everywhere Q { s with topics := s.topics.insert topic st } where
  histories := h.histories
  caches topic' st' hst' := by
    rcases Table.lookup_insert_eq_some.1 hst' with ⟨-, rfl⟩ | ⟨-, hold⟩
    · exact hst
    · exact h.caches topic' st' hold
  last := h.last

lemma adjust (topic : String) {f : TopicState → TopicState} (hf : ∀ st, (f st).cache = st.cache) :
    Everywhere Q { s with topics := s.topics.adjust topic f } where
  histories := h.histories
  caches topic' st' hst' := by
    rw [Table.lookup_adjust] at hst'
    split at hst'
    · obtain ⟨st, hst, rfl⟩ := Option.map_eq_some_iff.1 hst'
      rw [hf]
      exact h.caches topic' st hst
    · exact h.caches topic' st' hst'
  last := h.last

omit h in
lemma pushToCache {x : Delivery} (hx : Q x) {st : TopicState} (hst : ∀ y ∈ st.cache, Q y) :
    ∀ y ∈ (st.pushToCache x).cache, Q y := by
  intro y hy
  rcases List.mem_append.1 ((st.cache_pushToCache x).subset hy) with hy | hy
  · exact hst y hy
  · exact List.mem_singleton.1 hy ▸ hx

end Everywhere

/-- A step leaves `Q` of all there is, and of what the task carries. -/
def Leads (Q : Delivery → Prop) (moved : DeliveryState × DeliveryTask) : Prop :=
  Everywhere Q moved.1 ∧ moved.2.Carrying Q

/-- What the cache of a topic hands to a new subscriber. -/
lemma Everywhere.cached (h : Everywhere Q s) (topic : String) (qos : DeliveryQoS)
    (opts : SubscriberOptions) :
    ∀ x ∈ (if qos.transientLocal then
        (s.topicState cfg topic qos).cache.foldl Subscription.push (.new topic entityIdUnknown opts)
      else Subscription.new topic entityIdUnknown opts).history, Q x := by
  intro x hx
  split at hx
  · exact h.topicState topic qos x ((Subscription.history_foldl_push _ _).subset hx)
  · exact absurd hx List.not_mem_nil

/-- **Whatever comes to a subscriber was drawn, or read, before.**  What the steps of a task hand
on has `Q` if all there is does, and what they draw and read. -/
lemma leads_move (h : Everywhere Q s) {t : DeliveryTask} (ht : t.Carrying Q) (rd : Reading)
    (haddressed : ∀ x sub, Q x → Q (addressed cfg x sub))
    (hread : ∀ r d, rd.file = some d → d.originId ≠ cfg.originId → Q (s.readSample r d))
    (hdraw : ∀ publisher payload x, t = .draw publisher payload →
      (s.move cfg rd t).2 = .publish x → Q x) : Leads Q (s.move cfg rd t) := by
  have hsame : ∀ {s' : DeliveryState} {t' : DeliveryTask}, s'.subscriptions = s.subscriptions →
      s'.topics = s.topics → s'.lastSample = s.lastSample → t'.Carrying Q → Leads Q (s', t') :=
    fun h₁ h₂ h₃ ht' => ⟨⟨h₁ ▸ h.histories, h₂ ▸ h.caches, h₃ ▸ h.last⟩, ht'⟩
  have hmoves := moves_move cfg rd s t
  generalize s.move cfg rd t = moved at hmoves hdraw ⊢
  cases hmoves with
  | waits | pushRead | spare | retain | snapshot | skip | push => exact ⟨h, ht⟩
  | unsubscribe | closeEach => exact ⟨h.modifySub_of_eq fun _ => rfl, trivial⟩
  | storeClosed r t ht' =>
    refine ⟨h.modifySub_of_eq fun _ => rfl, ?_⟩
    rw [ht']
    dsimp only
    split <;> trivial
  | subscribe topic qos opts sub t hbroker hfree hsub ht' =>
    have hnew : ∀ x ∈ sub.history, Q x := hsub ▸ h.cached topic qos opts
    refine ⟨(h.concat hnew).insert topic (h.topicState topic qos), ?_⟩
    rw [ht']
    dsimp only
    split <;> trivial
  | insertReader topic qos opts eid t ht' =>
    have hnew : ∀ x ∈ (Subscription.new topic eid opts).history, Q x :=
      fun x hx => absurd hx List.not_mem_nil
    obtain ⟨hhistories, hcaches, hlast⟩ := h.concat hnew
    refine ⟨⟨hhistories, hcaches, hlast⟩, ?_⟩
    rw [ht']
    dsimp only
    split <;> trivial
  | deliverCached r topic x htopic hlast => exact ⟨h.push (h.last _ x hlast), trivial⟩
  | readFirst r _ d hfile hforeign | readFile r _ d hfile hforeign =>
    exact ⟨h, hread r d hfile hforeign⟩
  | enqueueRead => exact ⟨h.enqueue fun _ => ht, trivial⟩
  | draw => exact hsame rfl rfl rfl (hdraw _ _ _ rfl rfl)
  | publish x =>
    refine ⟨⟨h.histories, h.caches, fun topic y hy => ?_⟩, ht⟩
    rcases Table.lookup_insert_eq_some.1 hy with ⟨-, rfl⟩ | ⟨-, hold⟩
    · exact ht
    · exact h.last topic y hold
  | cache x qos =>
    have hold : ∀ y ∈ (s.topicState cfg x.sample.topic qos).cache, Q y := h.topicState _ qos
    have hcache : ∀ y ∈ (if qos.transientLocal then
        (s.topicState cfg x.sample.topic qos).pushToCache x
        else s.topicState cfg x.sample.topic qos).cache, Q y := by
      split
      · exact Everywhere.pushToCache ht hold
      · exact hold
    obtain ⟨hhistories, hcaches, hlast⟩ := h.insert x.sample.topic hcache
    exact ⟨⟨hhistories, hcaches, hlast⟩, ht⟩
  | sweep r left x => exact ⟨h.adjust x.sample.topic fun _ => rfl, ht⟩
  | enqueue r left x => exact ⟨h.enqueue fun sub => haddressed x sub ht, ht⟩
  | removeSubscriber => exact ⟨h.adjust _ fun _ => rfl, trivial⟩
  | _ => exact hsame rfl rfl rfl trivial

lemma Everywhere.mono {Q' : Delivery → Prop} (h : Everywhere Q s) (himp : ∀ x, Q x → Q' x) :
    Everywhere Q' s where
  histories sub hsub x hx := himp x (h.histories sub hsub x hx)
  caches topic st hst x hx := himp x (h.caches topic st hst x hx)
  last topic x hx := himp x (h.last topic x hx)

lemma carrying_mono {Q' : Delivery → Prop} {t : DeliveryTask} (h : t.Carrying Q)
    (himp : ∀ x, Q x → Q' x) : t.Carrying Q' := by
  cases t <;> first | trivial | exact himp _ h

/-! ## The identifiers of publishers -/

/-- What identifies the samples of each publisher. -/
def identities (s : DeliveryState) : List (Guid × UInt64) :=
  s.publishers.map fun pub => (pub.guid, pub.seq)

lemma getElem?_identities {k : ℕ} {pub : Publication} (h : s.publishers[k]? = some pub) :
    s.identities[k]? = some (pub.guid, pub.seq) := by
  rw [identities, List.getElem?_map, h]
  rfl

lemma identities_modify_closed (k : ℕ) :
    (s.publishers.modify k fun pub => { pub with closed := true }).map
      (fun pub => (pub.guid, pub.seq)) = s.identities := by
  refine List.ext_getElem? fun i => ?_
  rw [identities, List.getElem?_map, List.getElem?_map, List.getElem?_modify]
  by_cases hi : k = i <;> cases s.publishers[i]? <;> simp [hi]

/-- Publishers are created, and draw their numbers, in two kinds of steps. -/
lemma identities_move (hshmem : cfg.transport = .shmem) (rd : Reading) {t : DeliveryTask}
    (hinsert : ∀ topic qos eid, t ≠ .insertWriter topic qos eid)
    (hcreate : ∀ who topic qos, t ≠ .createPublisher who topic qos)
    (hdraw : ∀ publisher payload, t ≠ .draw publisher payload) :
    (s.move cfg rd t).1.identities = s.identities ∧
      (s.move cfg rd t).1.pubCounter = s.pubCounter := by
  have hmoves := moves_move cfg rd s t
  generalize s.move cfg rd t = moved at hmoves ⊢
  cases hmoves with
  | closePublisher k => exact ⟨identities_modify_closed k, rfl⟩
  | newWriter _ _ _ _ hrtps => simp [hshmem] at hrtps
  | createPublisher => exact absurd rfl (hcreate _ _ _)
  | insertWriter => exact absurd rfl (hinsert _ _ _)
  | drawOverflows | draw => exact absurd rfl (hdraw _ _)
  | _ => exact ⟨rfl, rfl⟩

/-- The samples drawn so far have their publishers' identifiers, and no two are of one publisher
and one number.  One participant has created all publishers. -/
structure Numbered (cfg : DeliveryConfig) (ids : List (Guid × UInt64)) (pubCounter : ℕ → UInt64)
    (written : List Delivery) : Prop where
  identified : ∀ x ∈ written, ∃ k guid seq, x.publisher = some k ∧ ids[k]? = some (guid, seq) ∧
    x.sample.writerGuid = guid.toBytes ∧ x.sample.sequenceNumber ≤ seq.toNat
  nodup : (written.map fun x => (x.publisher, x.sample.sequenceNumber)).Nodup
  creator : ∃ who, (∀ other, other ≠ who → pubCounter other = 0) ∧
    (pubCounter who).toNat = ids.length
  length_le : ids.length ≤ 2 ^ 32
  guids : ∀ k guid seq, ids[k]? = some (guid, seq) → guid = cfg.makeGuid (UInt64.ofNat k)

/-- A participant on whose domain no other has created a publisher has counted all there are. -/
lemma Numbered.length_eq {ids : List (Guid × UInt64)} {pubCounter : ℕ → UInt64}
    {written : List Delivery} (h : Numbered cfg ids pubCounter written) {who : ℕ}
    (hothers : ∀ other, other ≠ who → pubCounter other = 0) :
    (pubCounter who).toNat = ids.length := by
  obtain ⟨who', hothers', hlen⟩ := h.creator
  by_cases heq : who' = who
  · rw [← heq, hlen]
  · rw [← hlen, hothers' who (Ne.symm heq), hothers who' heq]

lemma Numbered.create {ids : List (Guid × UInt64)} {pubCounter : ℕ → UInt64}
    {written : List Delivery} (h : Numbered cfg ids pubCounter written) {who : ℕ}
    (hothers : ∀ other, other ≠ who → pubCounter other = 0)
    (hlt : (pubCounter who).toNat < 2 ^ 32) :
    Numbered cfg (ids ++ [(cfg.makeGuid (pubCounter who), 0)])
      (Function.update pubCounter who (pubCounter who + 1)) written := by
  have hlen := h.length_eq hothers
  refine ⟨fun x hx => ?_, h.nodup, ⟨who, fun other hother => ?_, ?_⟩, ?_, fun k guid seq hk => ?_⟩
  · obtain ⟨k, guid, seq, hpub, hk, hrest⟩ := h.identified x hx
    exact ⟨k, guid, seq, hpub, getElem?_concat_of_eq_some hk, hrest⟩
  · rw [Function.update_of_ne hother, hothers other hother]
  · rw [Function.update_self, List.length_append, List.length_singleton, ← hlen, UInt64.toNat_add]
    exact Nat.mod_eq_of_lt (by simp; omega)
  · rw [List.length_append, List.length_singleton, ← hlen]
    exact hlt
  · rcases getElem?_concat_eq_some hk with hold | ⟨rfl, hnew⟩
    · exact h.guids k guid seq hold
    · rw [(Prod.mk.inj hnew).1, ← hlen, UInt64.ofNat_toNat]

lemma Numbered.draw {ids : List (Guid × UInt64)} {pubCounter : ℕ → UInt64}
    {written : List Delivery} (h : Numbered cfg ids pubCounter written) {k : ℕ} {guid : Guid}
    {seq : UInt64} (hk : ids[k]? = some (guid, seq)) (hlt : seq.toNat + 1 < 2 ^ 64) {x : Delivery}
    (hpub : x.publisher = some k) (hguid : x.sample.writerGuid = guid.toBytes)
    (hseq : x.sample.sequenceNumber = seq.toNat + 1) :
    Numbered cfg (ids.modify k fun id => (id.1, id.2 + 1)) pubCounter (written ++ [x]) := by
  have hnext : (seq + 1).toNat = seq.toNat + 1 := by
    rw [UInt64.toNat_add]
    exact Nat.mod_eq_of_lt (by simpa using hlt)
  have hmodify : ∀ j guid' seq', ids[j]? = some (guid', seq') →
      (ids.modify k fun id => (id.1, id.2 + 1))[j]? =
        some (guid', if k = j then seq' + 1 else seq') := by
    intro j guid' seq' hj
    rw [List.getElem?_modify, hj]
    by_cases hkj : k = j <;> simp [hkj]
  refine ⟨fun y hy => ?_, ?_, ?_, ?_, fun j guid' seq' hj => ?_⟩
  · rcases List.mem_append.1 hy with hy | hy
    · obtain ⟨j, guid', seq', hpub', hj, hguid', hle⟩ := h.identified y hy
      refine ⟨j, guid', _, hpub', hmodify j guid' seq' hj, hguid', ?_⟩
      split
      · next hkj =>
        subst hkj
        rw [hk] at hj
        obtain ⟨rfl, rfl⟩ := Prod.mk.inj (Option.some.inj hj)
        rw [hnext]
        exact hle.trans (Nat.le_succ _)
      · exact hle
    · obtain rfl := List.mem_singleton.1 hy
      refine ⟨k, guid, _, hpub, hmodify k guid seq hk, hguid, ?_⟩
      rw [if_pos rfl, hnext, hseq]
  · rw [List.map_append, List.map_singleton, List.nodup_append]
    refine ⟨h.nodup, List.nodup_singleton _, fun a ha b hb heq => ?_⟩
    obtain ⟨y, hy, rfl⟩ := List.mem_map.1 ha
    obtain rfl := List.mem_singleton.1 hb
    obtain ⟨hpubs, hseqs⟩ := Prod.mk.inj heq
    obtain ⟨j, guid', seq', hpub', hj, -, hle⟩ := h.identified y hy
    rw [hpub', hpub] at hpubs
    obtain rfl := Option.some.inj hpubs
    rw [hk] at hj
    obtain ⟨rfl, rfl⟩ := Prod.mk.inj (Option.some.inj hj)
    omega
  · exact h.creator.imp fun who hwho => ⟨hwho.1, by rw [List.length_modify]; exact hwho.2⟩
  · rw [List.length_modify]
    exact h.length_le
  · rw [List.getElem?_modify] at hj
    obtain ⟨id, hid, heq⟩ := Option.map_eq_some_iff.1 hj
    have hsame : id.1 = guid' := by
      split at heq <;> exact congrArg Prod.fst heq
    exact h.guids j guid' id.2 (by rw [hid, ← hsame])

/-! ## Runs -/

/-- The sample that a step draws, if it draws one. -/
def drawn (cfg : DeliveryConfig) (p : Pool DeliveryState DeliveryTask) : Turn → List Delivery
  | .env _ => []
  | .task i rd =>
    match p.task i, (p.shared.move cfg rd (p.task i)).2 with
    | .draw _ _, .publish x => [x]
    | _, _ => []

/-- All that a run has drawn, in order. -/
def written (cfg : DeliveryConfig) (calls : ℕ → DeliveryCall) (turns : List Turn) :
    List Delivery :=
  Run.trace (program cfg).step (drawn cfg) (start calls) turns

/-- No other process writes to the rendezvous file. -/
def OneProcess (cfg : DeliveryConfig) (_ : Pool DeliveryState DeliveryTask) : Turn → Prop
  | .env _ => True
  | .task _ rd => ∀ d, rd.file = some d → d.originId = cfg.originId

/-- A participant creates a publisher only if no other participant of its domain has, and it has
created fewer than `2 ^ 32`; and no publisher draws more than `2 ^ 64 - 1` numbers. -/
def OneCreator (cfg : DeliveryConfig) (p : Pool DeliveryState DeliveryTask) : Turn → Prop
  | .env _ => True
  | .task i _ =>
    match p.task i with
    | .createPublisher who _ _ =>
      (∀ other, other ≠ cfg.owner who → p.shared.pubCounter other = 0) ∧
        (p.shared.pubCounter (cfg.owner who)).toNat < 2 ^ 32
    | .draw publisher _ => p.shared.seqOf publisher + 1 < 2 ^ 64
    | _ => True

/-- What a run that has drawn these samples keeps. -/
structure Identified (cfg : DeliveryConfig) (p : Pool DeliveryState DeliveryTask)
    (written : List Delivery) : Prop where
  shared : Everywhere (· ∈ written) p.shared
  task : ∀ i, (p.task i).Carrying (· ∈ written)
  broker : ∀ i topic qos eid, p.task i ≠ .insertWriter topic qos eid
  numbered : Numbered cfg p.shared.identities p.shared.pubCounter written

/-- Only the UDP participant inserts writers. -/
lemma ne_insertWriter_move (hshmem : cfg.transport = .shmem) (rd : Reading) {t : DeliveryTask}
    (ht : ∀ topic qos eid, t ≠ .insertWriter topic qos eid) (topic : String) (qos : DeliveryQoS)
    (eid : EntityId) : (s.move cfg rd t).2 ≠ .insertWriter topic qos eid := by
  have hmoves := moves_move cfg rd s t
  generalize s.move cfg rd t = moved at hmoves ⊢
  cases hmoves with
  | waits => exact ht topic qos eid
  | newWriter _ _ _ _ hrtps => simp [hshmem] at hrtps
  | subscribe _ _ _ _ _ _ _ _ ht' | insertReader _ _ _ _ _ ht' | storeClosed _ _ ht' =>
    rw [ht']
    dsimp only
    split <;> rintro ⟨⟩
  | _ => rintro ⟨⟩

lemma draw_cases (hshmem : cfg.transport = .shmem) (now : ℤ) (k : ℕ) (payload : Bytes)
    (hlt : s.seqOf k + 1 < 2 ^ 64) :
    s.draw cfg now k payload = (s, .done) ∨
      ∃ pub, s.publishers[k]? = some pub ∧ s.seqOf k = pub.seq.toNat ∧
        s.draw cfg now k payload =
          ({ s with publishers :=
              s.publishers.modify k fun pub => { pub with seq := pub.seq + 1 } },
            .publish ⟨some k, ⟨pub.topic, payload, now, pub.seq.toNat + 1, pub.guid.toBytes⟩⟩) := by
  have hcounter (pub : Publication) : s.counterOf cfg k pub = some k := by simp [counterOf, hshmem]
  unfold draw
  cases hpub : s.publishers[k]? with
  | none => exact Or.inl rfl
  | some pub =>
    have hseq : s.seqOf k = pub.seq.toNat := by simp [seqOf, hpub]
    refine Or.inr ⟨pub, rfl, hseq, ?_⟩
    simp [hcounter, hpub, checkedAdd_of_lt (hseq ▸ hlt)]

lemma drawn_eq_singleton {i : ℕ} {rd : Reading} {k : ℕ} {payload : Bytes} {x : Delivery}
    (ht : p.task i = .draw k payload) (hx : (p.shared.move cfg rd (p.task i)).2 = .publish x) :
    drawn cfg p (.task i rd) = [x] := by
  rw [drawn, hx, ht]

lemma drawn_eq_nil {i : ℕ} {rd : Reading} (h : ∀ k payload, p.task i ≠ .draw k payload) :
    drawn cfg p (.task i rd) = [] := by
  rw [drawn]
  split
  · next k payload x ht _ => exact absurd ht (h k payload)
  · rfl

/-- The environment brings nothing, as only the UDP participant receives. -/
lemma Identified.env (hshmem : cfg.transport = .shmem) {written : List Delivery}
    (h : Identified cfg p written) (e : Surrounding) :
    Identified cfg ((program cfg).step p (.env e)) written := by
  rw [Program.step_env]
  cases e with
  | recv r =>
    exact ⟨h.shared.modifySub_of_eq Subscription.history_recv, h.task, h.broker, h.numbered⟩
  | arrive r sample =>
    simp only [program, hshmem, reduceCtorEq, if_false]
    exact h

lemma Identified.numbered_task (hshmem : cfg.transport = .shmem) {written : List Delivery}
    (h : Identified cfg p written) (i : ℕ) (rd : Reading)
    (hcreator : OneCreator cfg p (.task i rd)) :
    Numbered cfg ((program cfg).step p (.task i rd)).shared.identities
      ((program cfg).step p (.task i rd)).shared.pubCounter
      (written ++ drawn cfg p (.task i rd)) := by
  rw [Program.shared_step_task]
  change Numbered cfg (p.shared.move cfg rd (p.task i)).1.identities
    (p.shared.move cfg rd (p.task i)).1.pubCounter _
  by_cases hdraw : ∃ k payload, p.task i = .draw k payload
  · obtain ⟨k, payload, ht⟩ := hdraw
    rw [OneCreator, ht] at hcreator
    rcases draw_cases hshmem rd.now k payload hcreator with heq | ⟨pub, hpub, hseq, heq⟩
    · have hmove : p.shared.move cfg rd (p.task i) = (p.shared, .done) := by
        rw [ht]
        exact heq
      have hnone : drawn cfg p (.task i rd) = [] := by rw [drawn, hmove, ht]
      rw [hmove, hnone, List.append_nil]
      exact h.numbered
    · have hmove := (congrArg (p.shared.move cfg rd) ht).trans heq
      have hk := getElem?_identities hpub
      have hids : ({ p.shared with publishers := p.shared.publishers.modify k fun pub =>
            { pub with seq := pub.seq + 1 } } : DeliveryState).identities =
          p.shared.identities.modify k fun id => (id.1, id.2 + 1) := by
        rw [identities, identities]
        refine List.ext_getElem? fun j => ?_
        rw [List.getElem?_map, List.getElem?_modify, List.getElem?_modify, List.getElem?_map]
        by_cases hj : k = j <;> cases p.shared.publishers[j]? <;> simp [hj]
      rw [drawn_eq_singleton ht (congrArg Prod.snd hmove), hmove, hids]
      exact h.numbered.draw hk (hseq ▸ hcreator) rfl rfl rfl
  have hdraw' : ∀ k payload, p.task i ≠ .draw k payload := fun k payload ht =>
    hdraw ⟨k, payload, ht⟩
  rw [drawn_eq_nil hdraw', List.append_nil]
  by_cases hcreate : ∃ who topic qos, p.task i = .createPublisher who topic qos
  · obtain ⟨who, topic, qos, ht⟩ := hcreate
    rw [OneCreator, ht] at hcreator
    have hmove : (p.shared.move cfg rd (p.task i)).1.identities =
          p.shared.identities ++ [(cfg.makeGuid (p.shared.pubCounter (cfg.owner who)), 0)] ∧
        (p.shared.move cfg rd (p.task i)).1.pubCounter =
          Function.update p.shared.pubCounter (cfg.owner who)
            (p.shared.pubCounter (cfg.owner who) + 1) := by
      rw [ht]
      change (p.shared.createPublisher cfg who topic qos).1.identities = _ ∧
        (p.shared.createPublisher cfg who topic qos).1.pubCounter = _
      unfold createPublisher
      rw [hshmem]
      simp [identities]
    rw [hmove.1, hmove.2]
    exact h.numbered.create hcreator.1 hcreator.2
  · obtain ⟨hids, hcounter⟩ := identities_move hshmem rd (h.broker i)
      (fun who topic qos ht => hcreate ⟨who, topic, qos, ht⟩) hdraw'
    rw [hids, hcounter]
    exact h.numbered

lemma identified_step (hshmem : cfg.transport = .shmem) {turn : Turn} {written : List Delivery}
    (h : Identified cfg p written) (hprocess : OneProcess cfg p turn)
    (hcreator : OneCreator cfg p turn) :
    Identified cfg ((program cfg).step p turn) (written ++ drawn cfg p turn) := by
  cases turn with
  | env e => simpa [drawn] using h.env hshmem e
  | task i rd =>
    have hmono : ∀ x ∈ written, x ∈ written ++ drawn cfg p (.task i rd) :=
      fun x hx => List.mem_append_left _ hx
    have hleads : Leads (· ∈ written ++ drawn cfg p (.task i rd))
        (p.shared.move cfg rd (p.task i)) := by
      refine leads_move (h.shared.mono hmono) (carrying_mono (h.task i) hmono) rd
        (fun x sub hx => ?_) (fun r d hd hforeign => ?_) fun publisher payload x ht hx => ?_
      · simpa [addressed, hshmem] using hx
      · exact absurd (hprocess d hd) hforeign
      · simp [drawn_eq_singleton ht hx]
    have hself := (program cfg).task_step_self p i rd
    refine ⟨hleads.1, fun j => ?_, fun j => ?_, ?_⟩
    · by_cases hj : j = i
      · rw [hj, hself]
        exact hleads.2
      · rw [(program cfg).task_step_of_ne p hj]
        exact carrying_mono (h.task j) hmono
    · by_cases hj : j = i
      · rw [hj, hself]
        exact ne_insertWriter_move hshmem rd (h.broker i)
      · rw [(program cfg).task_step_of_ne p hj]
        exact h.broker j
    · exact h.numbered_task hshmem i rd hcreator

end DeliveryState

/-! ## What identifiers say -/

/-- A 32-bit number is known from its bytes. -/
lemma uint32_eq_of_bytes {m n : UInt32} (h₃ : (m >>> 24).toUInt8 = (n >>> 24).toUInt8)
    (h₂ : (m >>> 16).toUInt8 = (n >>> 16).toUInt8) (h₁ : (m >>> 8).toUInt8 = (n >>> 8).toUInt8)
    (h₀ : m.toUInt8 = n.toUInt8) : m = n := by
  have hm := m.toNat_lt
  have hn := n.toNat_lt
  rw [← UInt8.toNat_inj] at h₃ h₂ h₁ h₀
  simp only [UInt32.toNat_toUInt8, UInt32.toNat_shiftRight, UInt32.reduceToNat,
    Nat.shiftRight_eq_div_pow, Nat.reduceMod, Nat.reducePow] at h₃ h₂ h₁ h₀
  rw [← UInt32.toNat_inj]
  omega

namespace DeliveryConfig

/-- A publisher's number shows in its identifier, as long as it fits 32 bits. -/
lemma makeGuid_inj {cfg : DeliveryConfig} {m n : ℕ} (hm : m < 2 ^ 32) (hn : n < 2 ^ 32)
    (h : cfg.makeGuid (UInt64.ofNat m) = cfg.makeGuid (UInt64.ofNat n)) : m = n := by
  have hbytes := congrArg (fun g => g.entity.bytes) h
  simp only [makeGuid, List.cons.injEq, and_true] at hbytes
  have heq := uint32_eq_of_bytes hbytes.1 hbytes.2.1 hbytes.2.2.1 hbytes.2.2.2
  rw [← UInt32.toNat_inj] at heq
  simp at heq
  omega

/-- The shared-memory participants of a process on one domain. -/
def shmem (domain : Domain) (originId : UInt64) : DeliveryConfig :=
  ⟨.shmem, ⟨UInt8.ofNat domain.id.toNat :: List.replicate 11 0, rfl⟩, originId⟩

/-- Publishers on different domains have different identifiers. -/
lemma makeGuid_ne_of_domain_ne {d d' : Domain} (h : d ≠ d') (originId originId' id id' : UInt64) :
    (shmem d originId).makeGuid id ≠ (shmem d' originId').makeGuid id' := by
  intro hguid
  have hbytes := congrArg (fun g => g.guidPrefix.bytes) hguid
  simp only [makeGuid, shmem, List.cons.injEq, and_true] at hbytes
  rw [← UInt8.toNat_inj, UInt8.toNat_ofNat', UInt8.toNat_ofNat'] at hbytes
  obtain ⟨id, hid⟩ := d
  obtain ⟨id', hid'⟩ := d'
  rw [maxDomainId] at hid hid'
  simp only at hbytes
  refine h ?_
  congr 1
  omega

end DeliveryConfig

/-- Exactly one of these writes is `x`, and the same one is `y`. -/
def SameWrite (written : List Delivery) (x y : Delivery) : Prop :=
  ∃ n : ℕ, (∀ m : ℕ, written[m]? = some x ↔ m = n) ∧ ∀ m : ℕ, written[m]? = some y ↔ m = n

namespace DeliveryState

variable {cfg : DeliveryConfig} {s : DeliveryState}

/-- No two publishers have one identifier. -/
def GuidsDistinct (s : DeliveryState) : Prop :=
  ∀ (j k : ℕ) (pub pub' : Publication), s.publishers[j]? = some pub →
    s.publishers[k]? = some pub' → pub.guid = pub'.guid → j = k

/-- Samples that subscribers have seen, of one writer and with one number, are of one write. -/
def SamplesIdentified (s : DeliveryState) (written : List Delivery) : Prop :=
  ∀ sub ∈ s.subscriptions, ∀ sub' ∈ s.subscriptions, ∀ x ∈ sub.history, ∀ y ∈ sub'.history,
    x.sample.writerGuid = y.sample.writerGuid →
    x.sample.sequenceNumber = y.sample.sequenceNumber → SameWrite written x y

lemma Numbered.guid_inj {ids : List (Guid × UInt64)} {pubCounter : ℕ → UInt64}
    {written : List Delivery} (h : Numbered cfg ids pubCounter written) {j k : ℕ} {guid : Guid}
    {seq seq' : UInt64} (hj : ids[j]? = some (guid, seq)) (hk : ids[k]? = some (guid, seq')) :
    j = k := by
  have hjlt := (List.getElem?_eq_some_iff.1 hj).1
  have hklt := (List.getElem?_eq_some_iff.1 hk).1
  have hle := h.length_le
  exact DeliveryConfig.makeGuid_inj (by omega) (by omega)
    ((h.guids j guid seq hj).symm.trans (h.guids k guid seq' hk))

lemma Numbered.sameWrite {ids : List (Guid × UInt64)} {pubCounter : ℕ → UInt64}
    {written : List Delivery} (h : Numbered cfg ids pubCounter written) {x y : Delivery}
    (hx : x ∈ written) (hy : y ∈ written) (hguid : x.sample.writerGuid = y.sample.writerGuid)
    (hseq : x.sample.sequenceNumber = y.sample.sequenceNumber) : SameWrite written x y := by
  obtain ⟨j, guid, _, hpub, hj, hg, -⟩ := h.identified x hx
  obtain ⟨k, guid', _, hpub', hk, hg', -⟩ := h.identified y hy
  obtain rfl : guid = guid' := Guid.toBytes_injective (hg.symm.trans (hguid.trans hg'))
  obtain rfl := h.guid_inj hj hk
  obtain ⟨n, hn⟩ := List.mem_iff_getElem?.1 hx
  -- at most one write has this publisher and this number
  have honly : ∀ m z, written[m]? = some z → z.publisher = some j →
      z.sample.sequenceNumber = x.sample.sequenceNumber → m = n := by
    intro m z hm hz hzseq
    have hmlt := (List.getElem?_eq_some_iff.1 hm).1
    have hkeys : (written.map fun z => (z.publisher, z.sample.sequenceNumber))[m]? =
        (written.map fun z => (z.publisher, z.sample.sequenceNumber))[n]? := by
      rw [List.getElem?_map, List.getElem?_map, hm, hn]
      simp [hz, hpub, hzseq]
    exact (List.getElem?_inj (by rwa [List.length_map]) h.nodup).1 hkeys
  obtain ⟨m, hm⟩ := List.mem_iff_getElem?.1 hy
  have hyn : written[n]? = some y := honly m y hm hpub' hseq.symm ▸ hm
  refine ⟨n, fun l => ⟨fun hl => honly l x hl hpub rfl, fun hl => hl ▸ hn⟩,
    fun l => ⟨fun hl => honly l y hl hpub' hseq.symm, fun hl => hl ▸ hyn⟩⟩

lemma identified_run (hshmem : cfg.transport = .shmem) (calls : ℕ → DeliveryCall)
    {turns : List Turn}
    (hrun : Run.Each (program cfg).step
      (fun p turn => OneProcess cfg p turn ∧ OneCreator cfg p turn) (start calls) turns) :
    Identified cfg ((program cfg).run (start calls) turns) (written cfg calls turns) := by
  have hstart : Identified cfg (start calls) [] := by
    refine ⟨⟨by simp [start, new], ?_, ?_⟩, fun i => trivial, fun i => nofun, ?_⟩
    · exact fun topic st hst => absurd hst (by simp [start, new])
    · exact fun topic x hx => absurd hx (by simp [start, new])
    · exact ⟨by simp, by simp, ⟨0, by simp [start, new], rfl⟩, by simp [start, new, identities],
        by simp [start, new, identities]⟩
  have hrun' := hrun.foldl_trace (J := Identified cfg) (f := drawn cfg)
    (fun p turn l hJ hturn => identified_step hshmem hJ hturn.1 hturn.2) hstart
  exact hrun'

/-- **Where one participant creates all publishers of a domain, samples identify their writes**:
no two publishers have one identifier, and what subscribers have seen with one identifier and one
number is of one write.  Identifiers of different domains are different in any case. -/
theorem sameWrite_of_oneCreator (domain : Domain) (originId : UInt64) (calls : ℕ → DeliveryCall)
    (turns : List Turn)
    (hprocess : Run.Each (program (.shmem domain originId)).step
      (OneProcess (.shmem domain originId)) (start calls) turns)
    (hcreator : Run.Each (program (.shmem domain originId)).step
      (OneCreator (.shmem domain originId)) (start calls) turns) :
    GuidsDistinct ((program (.shmem domain originId)).run (start calls) turns).shared ∧
      SamplesIdentified ((program (.shmem domain originId)).run (start calls) turns).shared
        (written (.shmem domain originId) calls turns) ∧
      ∀ domain' originId' id id', domain' ≠ domain →
        (DeliveryConfig.shmem domain' originId').makeGuid id' ≠
          (DeliveryConfig.shmem domain originId).makeGuid id := by
  have h := @identified_run (.shmem domain originId) rfl calls turns
    (Run.each_iff.2 fun pre turn post hsplit =>
      ⟨Run.each_iff.1 hprocess pre turn post hsplit, Run.each_iff.1 hcreator pre turn post hsplit⟩)
  refine ⟨fun j k pub pub' hj hk hguid => ?_, fun sub hsub sub' hsub' x hx y hy hguid hseq => ?_,
    fun domain' originId' id id' hne => ?_⟩
  · exact h.numbered.guid_inj (getElem?_identities hj) (hguid ▸ getElem?_identities hk)
  · exact h.numbered.sameWrite (h.shared.histories sub hsub x hx)
      (h.shared.histories sub' hsub' y hy) hguid hseq
  · exact DeliveryConfig.makeGuid_ne_of_domain_ne hne _ _ _ _

/-- Two publishers, the second by the participant `who`, and a subscriber; both publishers write. -/
def twoPublishers (who : ℕ) : ℕ → DeliveryCall
  | 0 => .newPublisher 0 "t" .default
  | 1 => .newPublisher who "t" .default
  | 2 => .newSubscriber 0 "t" .default ⟨0, .dropNewest⟩
  | 3 => .write 0 [1]
  | 4 => .write 1 [2]
  | _ => .close 0

/-- Both publishers of one participant have been created, and one has drawn a number. -/
theorem sameWrite_of_oneCreator_twoPublishers :
    GuidsDistinct ((program (.shmem ⟨0, by decide⟩ 1)).run (start (twoPublishers 0))
      [turn 0, turn 0, turn 1, turn 1, turn 3, turn 3]).shared := by
  refine (sameWrite_of_oneCreator ⟨0, by decide⟩ 1 (twoPublishers 0)
    [turn 0, turn 0, turn 1, turn 1, turn 3, turn 3] ?_ ?_).1
  · exact ⟨nofun, nofun, nofun, nofun, nofun, nofun, trivial⟩
  · have hothers : ∀ other, other ≠ 0 → Function.update (fun _ : ℕ => (0 : UInt64)) 0 1 other = 0 :=
      fun other hother => Function.update_of_ne hother ..
    refine ⟨trivial, ⟨fun _ _ => rfl, by decide⟩, trivial, ⟨hothers, by decide⟩, trivial, ?_,
      trivial⟩
    change seqOf _ 0 + 1 < 2 ^ 64
    decide +kernel

/-- The same calls, with two participants, in full. -/
def oneAfterAnother : List Turn :=
  [turn 0, turn 0, turn 1, turn 1, turn 2, turn 2] ++ List.replicate 8 (turn 3) ++
    List.replicate 8 (turn 4)

/-- **Two participants give their first publishers one identifier**, and the subscriber gets two
samples with it, both numbered 1, that are not of one write. -/
theorem not_sameWrite_twoPublishers :
    ¬ GuidsDistinct ((program (.shmem ⟨0, by decide⟩ 1)).run (start (twoPublishers 1))
        oneAfterAnother).shared ∧
      ¬ SamplesIdentified ((program (.shmem ⟨0, by decide⟩ 1)).run (start (twoPublishers 1))
        oneAfterAnother).shared
        (written (.shmem ⟨0, by decide⟩ 1) (twoPublishers 1) oneAfterAnother) := by
  let guid := (DeliveryConfig.shmem ⟨0, by decide⟩ 1).makeGuid 0
  let pub : Publication := ⟨"t", .default, guid, 1, false⟩
  let x : Delivery := ⟨some 0, ⟨"t", [1], 0, 1, guid.toBytes⟩⟩
  let y : Delivery := ⟨some 1, ⟨"t", [2], 0, 1, guid.toBytes⟩⟩
  constructor
  · intro h
    have hpublishers : ((program (.shmem ⟨0, by decide⟩ 1)).run (start (twoPublishers 1))
        oneAfterAnother).shared.publishers = [pub, pub] := by decide +kernel
    exact absurd (h 0 1 pub pub (by rw [hpublishers]; rfl) (by rw [hpublishers]; rfl) rfl)
      (by decide)
  · intro h
    have hsubscriptions : ((program (.shmem ⟨0, by decide⟩ 1)).run (start (twoPublishers 1))
        oneAfterAnother).shared.subscriptions =
          [⟨"t", entityIdUnknown, 64, .dropNewest, false, false, [x, y], []⟩] := by
      decide +kernel
    rw [SamplesIdentified, hsubscriptions] at h
    obtain ⟨n, hx, hy⟩ := h _ List.mem_cons_self _ List.mem_cons_self
      x (by simp [Subscription.history]) y (by simp [Subscription.history]) rfl rfl
    have heq : some x = some y := ((hx n).2 rfl).symm.trans ((hy n).2 rfl)
    exact absurd heq (by decide)

end DeliveryState

end RustDds
