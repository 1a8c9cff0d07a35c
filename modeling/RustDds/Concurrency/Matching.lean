import RustDds.Concurrency.Discovery
import RustDds.Discovery.Endpoints

/-!
# No match is lost

A new reader enters the dispatch table, then the table of SEDP, and then looks for the remote
writers of its topic.  A discovered writer enters its table and then looks for the local readers
of its topic, and the match listener hands what it found to the readers later.

Two debts are kept apart.  A reader that is not in both tables yet still has its registration to
do (`Enrolment`).  A writer that a reader should accept is in its sources, or on its way there
(`Pairing`); where the look of the writer missed the reader, or the listener did not find it,
its registration, which is then still to be done, will see the writer.

Readers are told apart by their ids, which are the low 24 bits of a counter.  Of two readers with
one id, both tables keep the later (`exists_unmatched`).
-/

namespace RustDds

namespace DiscoveryState

/-- The id and the topic of a reader. -/
def profile (s : DiscoveryState) (reader : ℕ) : Option (EntityId × String) :=
  s.states[reader]?.map fun r => (r.eid, r.topic)

/-- The remote writers a reader accepts. -/
def sourcesOf (s : DiscoveryState) (reader : ℕ) : Finset Guid :=
  (s.states[reader]?.map SharedReader.sources).getD ∅

/-- No other reader has the id of this one. -/
def Alone (s : DiscoveryState) (reader : ℕ) (eid : EntityId) : Prop :=
  ∀ other topic, s.profile other = some (eid, topic) → other = reader

section
variable {s s' : DiscoveryState} {reader other : ℕ} {eid : EntityId} {topic : String}
  {guids : List Guid} {g : Guid}

@[simp] lemma profile_addSources (s : DiscoveryState) (reader : ℕ) (guids : List Guid) :
    (s.addSources reader guids).profile = s.profile := by
  funext other
  rw [profile, profile, addSources, List.getElem?_modify, Option.map_eq_map, Option.map_map]
  refine congrArg (fun f => Option.map f s.states[other]?) (funext fun r => ?_)
  dsimp only [Function.comp]
  split <;> rfl

lemma sourcesOf_addSources (s : DiscoveryState) (reader : ℕ) (guids : List Guid) (other : ℕ) :
    s.sourcesOf other ⊆ (s.addSources reader guids).sourcesOf other := by
  rw [sourcesOf, sourcesOf, addSources, List.getElem?_modify, Option.map_eq_map, Option.map_map]
  cases s.states[other]? with
  | none => exact Finset.Subset.refl _
  | some r =>
    simp only [Option.map_some, Option.getD_some, Function.comp]
    split
    · exact Finset.subset_union_left
    · exact Finset.Subset.refl _

lemma mem_sourcesOf_addSources (hreader : s.profile reader = some (eid, topic)) (hg : g ∈ guids) :
    g ∈ (s.addSources reader guids).sourcesOf reader := by
  rw [sourcesOf, addSources, List.getElem?_modify, Option.map_eq_map, Option.map_map]
  rw [profile] at hreader
  obtain ⟨r, hr, -⟩ := Option.map_eq_some_iff.mp hreader
  rw [hr]
  simp only [if_true, Option.map_some, Option.getD_some, Function.comp]
  exact Finset.mem_union_right _ (List.mem_toFinset.mpr hg)

/-- A new reader comes after all others. -/
lemma profile_append (s : DiscoveryState) (r : SharedReader) (other : ℕ) :
    ({ s with states := s.states ++ [r] } : DiscoveryState).profile other =
      if other = s.states.length then some (r.eid, r.topic) else s.profile other := by
  rw [profile, profile]
  dsimp only
  split
  · rename_i h
    rw [h, List.getElem?_append_right le_rfl, Nat.sub_self]
    rfl
  · rename_i h
    rcases Nat.lt_or_gt_of_ne h with hlt | hgt
    · rw [List.getElem?_append_left hlt]
    · rw [List.getElem?_eq_none (by rw [List.length_append, List.length_singleton]; omega),
        List.getElem?_eq_none (by omega)]

lemma sourcesOf_append (s : DiscoveryState) (r : SharedReader) (other : ℕ) :
    s.sourcesOf other ⊆
      ({ s with states := s.states ++ [r] } : DiscoveryState).sourcesOf other := by
  rw [sourcesOf, sourcesOf]
  dsimp only
  by_cases h : other < s.states.length
  · rw [List.getElem?_append_left h]
  · rw [List.getElem?_eq_none (Nat.le_of_not_lt h)]
    exact Finset.empty_subset _

lemma profile_length (s : DiscoveryState) : s.profile s.states.length = none := by
  rw [profile, List.getElem?_eq_none le_rfl, Option.map_none]

/-- A reader is found among those of its topic, if SEDP has it. -/
lemma mem_matchingReaders {sedp : SedpService} {info : EndpointInfo}
    (h : sedp.localReaders.lookup eid = some info) :
    info.guid.entity ∈ sedp.matchingReaders info.topicName :=
  List.mem_map_of_mem <| List.mem_filter.mpr
    ⟨Table.mem_values_iff.mpr ⟨eid, h⟩, decide_eq_true rfl⟩

end

/-- The match listener is in place, and the remote writers are kept under their GUIDs. -/
structure Keyed (s : DiscoveryState) : Prop where
  listener : ∃ told, s.sedp.matchListener = some told ∧ s.matchesTaken ≤ told.length
  writers : ∀ g info, s.sedp.remoteWriters.lookup g = some info → info.guid = g

lemma Keyed.mem_matchingWriters {s : DiscoveryState} (h : s.Keyed) {g : Guid} {topic : String}
    (hknown : s.sedp.KnownUnder g topic) : g ∈ s.sedp.matchingWriters topic := by
  obtain ⟨info, hinfo, htopic⟩ := hknown
  rw [← h.writers g info hinfo]
  exact List.mem_map_of_mem <| List.mem_filter.mpr
    ⟨Table.mem_values_iff.mpr ⟨g, hinfo⟩, decide_eq_true htopic⟩

lemma keyed_new (cfg : ParticipantConfig) : (new cfg).Keyed :=
  ⟨⟨[], rfl, le_rfl⟩, fun _ _ h => (by cases h)⟩

end DiscoveryState

/-! ## The debts -/

/-- A reader, with its id and its topic. -/
structure Enrolment where
  reader : ℕ
  eid : EntityId
  topic : String

namespace Enrolment

/-- The reader exists, and no other has its id. -/
def Due (s : DiscoveryState) (x : Enrolment) : Prop :=
  s.profile x.reader = some (x.eid, x.topic) ∧ s.Alone x.reader x.eid

/-- Both tables have it. -/
def Paid (s : DiscoveryState) (x : Enrolment) : Prop :=
  s.readers.lookup x.eid = some x.reader ∧
    ∃ info, s.sedp.localReaders.lookup x.eid = some info ∧
      info.guid.entity = x.eid ∧ info.topicName = x.topic

/-- The task is still to put it into them. -/
def Owes (x : Enrolment) : DiscoveryTask → Prop
  | .insertState reader _ _ | .insertReader reader _ _ => reader = x.reader
  | _ => False

end Enrolment

/-- A reader, and a remote writer. -/
structure Pairing extends Enrolment where
  guid : Guid

namespace Pairing

/-- The reader should accept the writer. -/
def Due (s : DiscoveryState) (x : Pairing) : Prop :=
  x.toEnrolment.Due s ∧ s.sedp.KnownUnder x.guid x.topic

/-- It does, or its match is in the queue. -/
def Paid (s : DiscoveryState) (x : Pairing) : Prop :=
  x.guid ∈ s.sourcesOf x.reader ∨ ⟨x.eid, x.guid⟩ ∈ s.pendingMatches

/-- The task is on its way to match the two. -/
def Owes (x : Pairing) : DiscoveryTask → Prop
  -- the reader is still to look for its writers
  | .insertState reader _ _ | .insertReader reader _ _ => reader = x.reader
  | .scanWriters _ reader => reader = some x.reader
  | .nextSeqNum _ matched | .knownPeers _ _ matched | .broadcast _ matched =>
    ∃ guids, matched = some (x.reader, guids) ∧ x.guid ∈ guids
  -- the writer is still to look for its readers
  | .scanReaders info _ => info.guid = x.guid ∧ info.topicName = x.topic
  | .insertLocator guid _ readers | .sendMatches guid readers => guid = x.guid ∧ x.eid ∈ readers
  | .applyMatch m => m = ⟨x.eid, x.guid⟩
  | _ => False

/-- A reader that is not in both tables yet will look for its writers. -/
lemma owes_of_enrolment {x : Pairing} {t : DiscoveryTask} (h : x.toEnrolment.Owes t) :
    x.Owes t := by
  cases t with
  | insertState | insertReader => exact h
  | _ => exact h.elim

end Pairing

/-- What a task has on record about its reader is so.  No reader is registered with SEDP but by
`new_reader_impl`. -/
def DiscoveryTask.Honest (s : DiscoveryState) : DiscoveryTask → Prop
  | .call (.registerReader _ _) => False
  | .insertState reader eid topic => s.profile reader = some (eid, topic)
  | .insertReader reader eid topic =>
    s.profile reader = some (eid, topic) ∧
      (s.Alone reader eid → s.readers.lookup eid = some reader)
  | .scanWriters info (some reader) => ∃ eid, s.profile reader = some (eid, info.topicName)
  | _ => True

namespace DiscoveryState

variable {s s' : DiscoveryState} {p : Pool DiscoveryState DiscoveryTask} {i : ℕ}

lemma Alone.of_profile {reader : ℕ} {eid : EntityId} (h : s'.Alone reader eid)
    (hprofile : ∀ k x, s.profile k = some x → s'.profile k = some x) : s.Alone reader eid :=
  fun other topic hother => h other topic (hprofile _ _ hother)

/-- Readers stay what they are, and in the dispatch table. -/
lemma honest_mono {t : DiscoveryTask} (h : t.Honest s)
    (hprofile : ∀ k x, s.profile k = some x → s'.profile k = some x)
    (hreaders : ∀ k eid topic, s.profile k = some (eid, topic) → s'.Alone k eid →
      s.readers.lookup eid = some k → s'.readers.lookup eid = some k) : t.Honest s' := by
  cases t with
  | call c =>
    cases c with
    | registerReader => exact h
    | _ => trivial
  | insertState reader eid topic => exact hprofile _ _ h
  | insertReader reader eid topic =>
    exact ⟨hprofile _ _ h.1, fun halone =>
      hreaders reader eid topic h.1 halone (h.2 (halone.of_profile hprofile))⟩
  | scanWriters info reader =>
    cases reader with
    | none => trivial
    | some reader => exact h.imp fun _ hreader => hprofile _ _ hreader
  | _ => trivial

/-- The invariant of a run. -/
structure Accounted (p : Pool DiscoveryState DiscoveryTask) : Prop where
  keyed : p.shared.Keyed
  honest : ∀ i, (p.task i).Honest p.shared
  enrolled : Program.Covers Enrolment.Due Enrolment.Paid Enrolment.Owes p
  paired : Program.Covers Pairing.Due Pairing.Paid Pairing.Owes p

/-- What a step must do for the invariant. -/
lemma Accounted.step (h : Accounted p) {t' : DiscoveryTask}
    (hmove : p.shared.move (p.task i) = (s', t')) (hkeyed : s'.Keyed) (hself : t'.Honest s')
    (hprofile : ∀ k x, p.shared.profile k = some x → s'.profile k = some x)
    (hreaders : ∀ k eid topic, p.shared.profile k = some (eid, topic) → s'.Alone k eid →
      p.shared.readers.lookup eid = some k → s'.readers.lookup eid = some k)
    (henrolled : Program.Covers Enrolment.Due Enrolment.Paid Enrolment.Owes
      (program.step p (.task i ())))
    (hpaired : Program.Covers Pairing.Due Pairing.Paid Pairing.Owes
      (program.step p (.task i ()))) : Accounted (program.step p (.task i ())) := by
  have hshared : (program.step p (.task i ())).shared = s' := congrArg Prod.fst hmove
  refine ⟨hshared ▸ hkeyed, fun j => ?_, henrolled, hpaired⟩
  rw [hshared]
  by_cases hj : j = i
  · have htask : (program.step p (.task i ())).task j = t' := by
      rw [hj, program.task_step_self]
      exact congrArg Prod.snd hmove
    rw [htask]
    exact hself
  · rw [program.task_step_of_ne p hj]
    exact honest_mono (h.honest j) hprofile hreaders

/-- The step neither creates nor registers a reader, inserts no writer and takes no match. -/
structure Frame (s s' : DiscoveryState) : Prop where
  profile : s'.profile = s.profile
  readers : s'.readers = s.readers
  localReaders : s'.sedp.localReaders = s.sedp.localReaders
  remoteWriters : s'.sedp.remoteWriters = s.sedp.remoteWriters
  sources : ∀ reader, s.sourcesOf reader ⊆ s'.sourcesOf reader
  listener : ∃ told, s'.sedp.matchListener = some told ∧ s'.matchesTaken ≤ told.length
  pending : ∀ m ∈ s.pendingMatches, m ∈ s'.pendingMatches

lemma Frame.of_eq (h : s.Keyed) (hstates : s'.states = s.states) (hreaders : s'.readers = s.readers)
    (hlocal : s'.sedp.localReaders = s.sedp.localReaders)
    (hremote : s'.sedp.remoteWriters = s.sedp.remoteWriters)
    (hlistener : s'.sedp.matchListener = s.sedp.matchListener)
    (htaken : s'.matchesTaken = s.matchesTaken) : Frame s s' where
  profile := by funext; rw [DiscoveryState.profile, DiscoveryState.profile, hstates]
  readers := hreaders
  localReaders := hlocal
  remoteWriters := hremote
  sources reader := by
    rw [sourcesOf, sourcesOf, hstates]
  listener := by
    rw [hlistener, htaken]
    exact h.listener
  pending m hm := by
    rw [pendingMatches, hlistener, htaken]
    exact hm

lemma Frame.addSources (h : s.Keyed) (reader : ℕ) (guids : List Guid) :
    Frame s (s.addSources reader guids) where
  profile := profile_addSources s reader guids
  readers := rfl
  localReaders := rfl
  remoteWriters := rfl
  sources := sourcesOf_addSources s reader guids
  listener := h.listener
  pending _ hm := hm

lemma pendingMatches_sendMatch (h : s.Keyed) (m : WriterMatch) :
    ({ s with sedp := s.sedp.sendMatch m } : DiscoveryState).pendingMatches =
      s.pendingMatches ++ [m] := by
  obtain ⟨told, htold, hlen⟩ := h.listener
  rw [pendingMatches, pendingMatches, SedpService.sendMatch, htold, Option.map_some,
    Option.getD_some, Option.getD_some, List.drop_append_of_le_length hlen]

lemma Frame.sendMatch (h : s.Keyed) (m : WriterMatch) :
    Frame s { s with sedp := s.sedp.sendMatch m } where
  profile := rfl
  readers := rfl
  localReaders := rfl
  remoteWriters := rfl
  sources _ := Finset.Subset.refl _
  listener := by
    obtain ⟨told, htold, hlen⟩ := h.listener
    refine ⟨told ++ [m], ?_, ?_⟩
    · rw [SedpService.sendMatch, htold, Option.map_some]
    · rw [List.length_append]
      exact Nat.le_add_right_of_le hlen
  pending m' hm' := by
    rw [pendingMatches_sendMatch h]
    exact List.mem_append_left _ hm'

/-! ## The steps -/

/-- A step of that kind has only to settle what its task owed. -/
lemma Accounted.of_frame (h : Accounted p) {t t' : DiscoveryTask} (ht : p.task i = t)
    (hmove : p.shared.move t = (s', t')) (hframe : Frame p.shared s') (hhonest : t'.Honest s')
    (hfree : ∀ x, ¬ Enrolment.Owes x t)
    (howes : ∀ x, Pairing.Due p.shared x → x.Owes t →
      Program.Settles Pairing.Paid Pairing.Owes p i s' t' x) :
    Accounted (program.step p (.task i ())) := by
  subst ht
  have hdue : ∀ x, Enrolment.Due s' x → Enrolment.Due p.shared x := by
    rintro x ⟨hprofile, halone⟩
    refine ⟨hframe.profile ▸ hprofile, halone.of_profile fun k y hy => ?_⟩
    rw [hframe.profile]
    exact hy
  have hdue' : ∀ x, Pairing.Due s' x → Pairing.Due p.shared x := by
    rintro x ⟨henrol, hknown⟩
    refine ⟨hdue _ henrol, ?_⟩
    rw [SedpService.KnownUnder, hframe.remoteWriters] at hknown
    exact hknown
  refine h.step hmove ⟨hframe.listener, ?_⟩ hhonest (fun k x hx => by rw [hframe.profile, hx]) ?_
    ?_ ?_
  · rw [hframe.remoteWriters]
    exact h.keyed.writers
  · intro k eid topic _ _ hk
    rw [hframe.readers, hk]
  · refine h.enrolled.step_task i () hmove (fun x hx => .inl (hdue x hx)) (fun x _ hpaid => .inl ?_)
      fun x _ hx => (hfree x hx).elim
    rw [Enrolment.Paid, hframe.readers, hframe.localReaders]
    exact hpaid
  · refine h.paired.step_task i () hmove (fun x hx => .inl (hdue' x hx)) (fun x _ hpaid => .inl ?_)
      fun x hx hx' => howes x (hdue' x hx) hx'
    exact hpaid.imp (fun hg => hframe.sources _ hg) fun hm => hframe.pending _ hm

/-- A reader is created. -/
lemma Accounted.newReader (h : Accounted p) {topic : String}
    (ht : p.task i = .call (.newReader topic)) : Accounted (program.step p (.task i ())) := by
  have hfree : ∀ x, ¬ Enrolment.Owes x (p.task i) := fun x hx => by
    rw [ht] at hx
    exact hx
  have hfree' : ∀ x, ¬ Pairing.Owes x (p.task i) := fun x hx => by
    rw [ht] at hx
    exact hx
  have hmove : p.shared.move (p.task i) = p.shared.enter (.newReader topic) :=
    congrArg p.shared.move ht
  rcases enter_newReader_cases p.shared topic with henter | henter <;> rw [henter] at hmove
  · exact h.of_frame rfl hmove (.of_eq h.keyed rfl rfl rfl rfl rfl rfl) trivial hfree
      fun x _ hx => (hfree' x hx).elim
  generalize entityIdForReader (p.shared.entityCounter + 1) = eid at hmove
  generalize hs : ({ p.shared with
    entityCounter := p.shared.entityCounter + 1
    states := p.shared.states ++ [⟨eid, topic, ∅⟩] } : DiscoveryState) = s' at hmove
  -- the new reader comes last, and its task owes everything
  have hprofile : ∀ k, s'.profile k =
      if k = p.shared.states.length then some (eid, topic) else p.shared.profile k :=
    fun k => hs ▸ profile_append p.shared ⟨eid, topic, ∅⟩ k
  have hkeep : ∀ k x, p.shared.profile k = some x → s'.profile k = some x := by
    intro k x hx
    have hne : k ≠ p.shared.states.length := by
      rintro rfl
      rw [profile_length] at hx
      cases hx
    rw [hprofile, if_neg hne, hx]
  have hold : ∀ x, Enrolment.Due s' x →
      Enrolment.Due p.shared x ∨ p.shared.states.length = x.reader := by
    rintro x ⟨hx, halone⟩
    rw [hprofile] at hx
    split at hx
    · rename_i hnew
      exact .inr hnew.symm
    · exact .inl ⟨hx, halone.of_profile hkeep⟩
  refine h.step hmove (hs ▸ ⟨h.keyed.listener, h.keyed.writers⟩) ?_ hkeep ?_ ?_ ?_
  · exact (hprofile _).trans (if_pos rfl)
  · exact fun k eid topic _ _ hk => hs ▸ hk
  · exact h.enrolled.step_task i () hmove
      (fun x hx => (hold x hx).imp_right fun hnew => .inr (.inl hnew))
      (fun x _ hpaid => .inl (hs ▸ hpaid)) fun x _ hx => (hfree x hx).elim
  · refine h.paired.step_task i () hmove ?_ (fun x _ hpaid => .inl ?_)
      fun x _ hx => (hfree' x hx).elim
    · rintro x ⟨henrol, hknown⟩
      rcases hold _ henrol with hdue | hnew
      · exact .inl ⟨hdue, by rw [← hs] at hknown; exact hknown⟩
      · exact .inr (.inr (.inl hnew))
    · rw [← hs]
      exact hpaid.imp (fun hg => sourcesOf_append _ _ _ hg) id

/-- A reader enters the dispatch table. -/
lemma Accounted.insertState (h : Accounted p) {reader : ℕ} {eid : EntityId} {topic : String}
    (ht : p.task i = .insertState reader eid topic) :
    Accounted (program.step p (.task i ())) := by
  have hreader : p.shared.profile reader = some (eid, topic) := by
    have hhonest := h.honest i
    rw [ht] at hhonest
    exact hhonest
  have hkeep : ∀ k eid' topic', p.shared.profile k = some (eid', topic') →
      p.shared.Alone k eid' → p.shared.readers.lookup eid' = some k →
        (p.shared.readers.insert eid reader).lookup eid' = some k := by
    intro k eid' topic' hk halone hlookup
    by_cases heid : eid' = eid
    · subst heid
      rw [AList.lookup_insert, halone reader topic hreader]
    · rw [AList.lookup_insert_ne heid, hlookup]
  have hmove : p.shared.move (p.task i) =
      ({ p.shared with readers := p.shared.readers.insert eid reader },
        .insertReader reader eid topic) := congrArg p.shared.move ht
  refine h.step hmove ⟨h.keyed.listener, h.keyed.writers⟩ ⟨hreader, fun _ => AList.lookup_insert ..⟩
    (fun _ _ hx => hx) hkeep ?_ ?_
  · refine h.enrolled.step_task i () hmove (fun x hx => .inl hx) ?_ ?_
    · rintro x ⟨hprofile, halone⟩ ⟨hlookup, hlocal⟩
      exact .inl ⟨hkeep _ _ _ hprofile halone hlookup, hlocal⟩
    · intro x _ hx
      rw [ht] at hx
      exact .inr (.inl hx)
  · refine h.paired.step_task i () hmove (fun x hx => .inl hx) (fun x _ hpaid => .inl hpaid) ?_
    intro x _ hx
    rw [ht] at hx
    exact .inr (.inl hx)

/-- A reader is registered with SEDP. -/
lemma Accounted.insertReader (h : Accounted p) {reader : ℕ} {eid : EntityId} {topic : String}
    (ht : p.task i = .insertReader reader eid topic) :
    Accounted (program.step p (.task i ())) := by
  obtain ⟨hreader, hdispatch⟩ : p.shared.profile reader = some (eid, topic) ∧
      (p.shared.Alone reader eid → p.shared.readers.lookup eid = some reader) := by
    have hhonest := h.honest i
    rw [ht] at hhonest
    exact hhonest
  have hmove : p.shared.move (p.task i) =
      ({ p.shared with sedp := p.shared.sedp.insertReader eid topic },
        .scanWriters (p.shared.sedp.localInfo eid topic false) (some reader)) :=
    congrArg p.shared.move ht
  have hentry : ∀ eid', eid' = eid →
      (p.shared.sedp.insertReader eid topic).localReaders.lookup eid' =
        some (p.shared.sedp.localInfo eid topic false) := by
    rintro _ rfl
    exact AList.lookup_insert ..
  refine h.step hmove ⟨h.keyed.listener, h.keyed.writers⟩ ⟨eid, hreader⟩ (fun _ _ hx => hx)
    (fun _ _ _ _ _ hk => hk) ?_ ?_
  · have hnew : ∀ x, Enrolment.Due p.shared x → reader = x.reader →
        x.eid = eid ∧ x.topic = topic := by
      rintro x ⟨hprofile, -⟩ rfl
      rw [hreader, Option.some.injEq, Prod.mk.injEq] at hprofile
      exact ⟨hprofile.1.symm, hprofile.2.symm⟩
    refine h.enrolled.step_task i () hmove (fun x hx => .inl hx) ?_ ?_
    · rintro x hx ⟨hlookup, info, hinfo, hentity, htopic⟩
      refine .inl ⟨hlookup, ?_⟩
      by_cases heid : x.eid = eid
      · -- the entry is written again
        have hself := hx.2 reader topic (heid ▸ hreader)
        obtain ⟨-, htopic'⟩ := hnew x hx hself
        exact ⟨_, hentry _ heid, heid.symm, htopic'.symm⟩
      · exact ⟨info, by rw [← hinfo]; exact AList.lookup_insert_ne heid, hentity, htopic⟩
    · intro x hx howed
      rw [ht] at howed
      obtain ⟨heid, htopic⟩ := hnew x hx howed
      obtain ⟨hprofile, halone⟩ := hx
      refine .inl ⟨?_, _, hentry _ heid, heid.symm, htopic.symm⟩
      rw [heid, ← show reader = x.reader from howed] at halone ⊢
      exact hdispatch halone
  · refine h.paired.step_task i () hmove (fun x hx => .inl hx) (fun x _ hpaid => .inl hpaid) ?_
    intro x _ hx
    rw [ht] at hx
    exact .inr (.inl (congrArg some hx))

/-- A remote writer is recorded. -/
lemma Accounted.onRemoteWriter (h : Accounted p) {info : EndpointInfo} {dataLocator : Locator}
    (ht : p.task i = .call (.onRemoteWriter info dataLocator)) :
    Accounted (program.step p (.task i ())) := by
  have hmove : p.shared.move (p.task i) =
      ({ p.shared with sedp := p.shared.sedp.insertRemoteWriter info },
        .scanReaders info dataLocator) := congrArg p.shared.move ht
  refine h.step hmove ⟨h.keyed.listener, fun g rw hrw => ?_⟩ trivial (fun _ _ hx => hx)
    (fun _ _ _ _ _ hk => hk) ?_ ?_
  · rcases Table.lookup_insert_eq_some.mp hrw with ⟨hg, hinfo⟩ | ⟨-, hold⟩
    · rw [hinfo, hg]
    · exact h.keyed.writers g rw hold
  · refine h.enrolled.step_task i () hmove (fun x hx => .inl hx) (fun x _ hpaid => .inl hpaid) ?_
    intro x _ hx
    rw [ht] at hx
    exact hx.elim
  · refine h.paired.step_task i () hmove ?_ (fun x _ hpaid => .inl hpaid) ?_
    · rintro x ⟨henrol, rw, hrw, htopic⟩
      rcases Table.lookup_insert_eq_some.mp hrw with ⟨hg, hinfo⟩ | ⟨-, hold⟩
      · exact .inr (.inr (.inl ⟨hg.symm, by rw [← hinfo, htopic]⟩))
      · exact .inl ⟨henrol, rw, hold, htopic⟩
    · intro x _ hx
      rw [ht] at hx
      exact hx.elim

/-- The match listener takes a match. -/
lemma Accounted.takeMatch (h : Accounted p) {m : WriterMatch} {ms : List WriterMatch}
    (ht : p.task i = .call .matchListener) (hpending : p.shared.pendingMatches = m :: ms) :
    Accounted (program.step p (.task i ())) := by
  have hmove : p.shared.move (p.task i) =
      ({ p.shared with matchesTaken := p.shared.matchesTaken + 1 }, .applyMatch m) :=
    (congrArg p.shared.move ht).trans (enter_matchListener_cons hpending)
  refine h.step hmove ⟨?_, h.keyed.writers⟩ trivial (fun _ _ hx => hx) (fun _ _ _ _ _ hk => hk)
    ?_ ?_
  · obtain ⟨told, htold, -⟩ := h.keyed.listener
    refine ⟨told, htold, Nat.lt_of_not_le fun hle => ?_⟩
    rw [pendingMatches, htold, Option.getD_some, List.drop_eq_nil_of_le hle] at hpending
    cases hpending
  · refine h.enrolled.step_task i () hmove (fun x hx => .inl hx) (fun x _ hpaid => .inl hpaid) ?_
    intro x _ hx
    rw [ht] at hx
    exact hx.elim
  · refine h.paired.step_task i () hmove (fun x hx => .inl hx) ?_ ?_
    · rintro x - (hsource | hqueued)
      · exact .inl (.inl hsource)
      rw [hpending] at hqueued
      rcases List.mem_cons.mp hqueued with heq | hrest
      · exact .inr (.inl heq.symm)
      · refine .inl (.inr ?_)
        have htail : (p.shared.sedp.matchListener.getD []).drop (p.shared.matchesTaken + 1) =
            p.shared.pendingMatches.tail := by
          rw [pendingMatches, List.tail_drop]
        rw [pendingMatches, htail, hpending]
        exact hrest
    · intro x _ hx
      rw [ht] at hx
      exact hx.elim

/-- Any other call. -/
lemma Accounted.enter (h : Accounted p) {c : DiscoveryCall} (ht : p.task i = .call c) :
    Accounted (program.step p (.task i ())) := by
  have hsame : ∀ {s' t'}, p.shared.enter c = (s', t') → s'.states = p.shared.states →
      s'.readers = p.shared.readers → s'.sedp.localReaders = p.shared.sedp.localReaders →
      s'.sedp.remoteWriters = p.shared.sedp.remoteWriters →
      s'.sedp.matchListener = p.shared.sedp.matchListener →
      s'.matchesTaken = p.shared.matchesTaken → t'.Honest s' →
        Accounted (program.step p (.task i ())) :=
    fun henter hstates hreaders hlocal hremote hlistener htaken hhonest =>
      h.of_frame ht henter (.of_eq h.keyed hstates hreaders hlocal hremote hlistener htaken) hhonest
        (fun _ hx => hx) fun _ _ hx => hx.elim
  cases c with
  | newReader topic => exact h.newReader ht
  | registerReader eid topic =>
    have hhonest := h.honest i
    rw [ht] at hhonest
    exact hhonest.elim
  | registerWriter eid topic => exact hsame rfl rfl rfl rfl rfl rfl rfl trivial
  | onRemoteWriter info dataLocator => exact h.onRemoteWriter ht
  | storePeer now proxy => exact hsame rfl rfl rfl rfl rfl rfl rfl trivial
  | matchListener =>
    cases hpending : p.shared.pendingMatches with
    | nil => exact hsame (enter_matchListener_nil hpending) rfl rfl rfl rfl rfl rfl trivial
    | cons m ms => exact h.takeMatch ht hpending
  | peerListener =>
    cases hpending : p.shared.pendingPeers with
    | nil => exact hsame (enter_peerListener_nil hpending) rfl rfl rfl rfl rfl rfl trivial
    | cons proxy proxies =>
      exact hsame (enter_peerListener_cons hpending) rfl rfl rfl rfl rfl rfl trivial

/-- The match listener hands a match to its reader. -/
lemma Accounted.applyMatch (h : Accounted p) {m : WriterMatch} (ht : p.task i = .applyMatch m) :
    Accounted (program.step p (.task i ())) := by
  -- a reader that is not there yet will look for the writer itself
  have howed : ∀ x, Pairing.Due p.shared x → m = ⟨x.eid, x.guid⟩ →
      p.shared.readers.lookup m.readerEid = some x.reader ∨ ∃ j ≠ i, x.Owes (p.task j) := by
    rintro x ⟨henrol, -⟩ rfl
    rcases h.enrolled x.toEnrolment henrol with ⟨hlookup, -⟩ | ⟨j, hj⟩
    · exact .inl hlookup
    · refine .inr ⟨j, ?_, Pairing.owes_of_enrolment hj⟩
      rintro rfl
      rw [ht] at hj
      exact hj
  cases hreader : p.shared.readers.lookup m.readerEid with
  | none =>
    refine h.of_frame ht (move_applyMatch_none hreader) (.of_eq h.keyed rfl rfl rfl rfl rfl rfl)
      trivial (fun _ hx => hx) fun x hx hm => ?_
    rcases howed x hx hm with hlookup | helse
    · rw [hreader] at hlookup
      cases hlookup
    · exact .inr (.inr helse)
  | some reader =>
    refine h.of_frame ht (move_applyMatch_some hreader) (.addSources h.keyed reader _) trivial
      (fun _ hx => hx) fun x hx hm => ?_
    rcases howed x hx hm with hlookup | helse
    · rw [hreader, Option.some.injEq] at hlookup
      subst hlookup hm
      exact .inl (.inl (mem_sourcesOf_addSources hx.1.1 (List.mem_singleton_self _)))
    · exact .inr (.inr helse)

/-- A remote writer looks for its readers. -/
lemma Accounted.scanReaders (h : Accounted p) {info : EndpointInfo} {dataLocator : Locator}
    (ht : p.task i = .scanReaders info dataLocator) : Accounted (program.step p (.task i ())) := by
  refine h.of_frame ht rfl (.of_eq h.keyed rfl rfl rfl rfl rfl rfl) ?_ (fun _ hx => hx) ?_
  · split <;> trivial
  rintro x ⟨henrol, -⟩ ⟨hguid, htopic⟩
  rcases h.enrolled x.toEnrolment henrol with ⟨-, lr, hlocal, hentity, htopic'⟩ | ⟨j, hj⟩
  · -- the reader is among those found
    have hmem := mem_matchingReaders hlocal
    rw [hentity, htopic', ← htopic] at hmem
    refine .inr (.inl ?_)
    rw [if_neg (List.ne_nil_of_mem hmem)]
    exact ⟨hguid, hmem⟩
  · refine .inr (.inr ⟨j, ?_, Pairing.owes_of_enrolment hj⟩)
    rintro rfl
    rw [ht] at hj
    exact hj

/-- **The step.** -/
lemma Accounted.task (h : Accounted p) (i : ℕ) : Accounted (program.step p (.task i ())) := by
  have hsame : ∀ {t s' t'}, p.task i = t → p.shared.move t = (s', t') →
      s'.states = p.shared.states →
      s'.readers = p.shared.readers → s'.sedp.localReaders = p.shared.sedp.localReaders →
      s'.sedp.remoteWriters = p.shared.sedp.remoteWriters →
      s'.sedp.matchListener = p.shared.sedp.matchListener →
      s'.matchesTaken = p.shared.matchesTaken → t'.Honest s' →
      (∀ x, ¬ Enrolment.Owes x t) →
      (∀ x, Pairing.Due p.shared x → x.Owes t → x.Owes t') →
        Accounted (program.step p (.task i ())) :=
    fun ht hmove hstates hreaders hlocal hremote hlistener htaken hhonest hfree howes =>
      h.of_frame ht hmove (.of_eq h.keyed hstates hreaders hlocal hremote hlistener htaken) hhonest
        hfree fun x hx hx' => .inr (.inl (howes x hx hx'))
  cases ht : p.task i with
  | call c => exact h.enter ht
  | insertState reader eid topic => exact h.insertState ht
  | insertReader reader eid topic => exact h.insertReader ht
  | scanWriters info reader =>
    refine hsame ht rfl rfl rfl rfl rfl rfl rfl trivial (fun _ hx => hx) ?_
    rintro x ⟨⟨hprofile, -⟩, hknown⟩ rfl
    refine ⟨_, rfl, ?_⟩
    have hhonest := h.honest i
    rw [ht] at hhonest
    obtain ⟨eid, hreader⟩ := hhonest
    rw [hprofile, Option.some.injEq, Prod.mk.injEq] at hreader
    rw [← hreader.2]
    exact h.keyed.mem_matchingWriters hknown
  | nextSeqNum info matched =>
    exact hsame ht rfl rfl rfl rfl rfl rfl rfl trivial (fun _ hx => hx) fun _ _ hx => hx
  | knownPeers info seqNum matched =>
    exact hsame ht rfl rfl rfl rfl rfl rfl rfl trivial (fun _ hx => hx) fun _ _ hx => hx
  | broadcast left matched =>
    rcases left with _ | ⟨dgram, left⟩
    · cases matched with
      | none =>
        refine hsame ht rfl rfl rfl rfl rfl rfl rfl trivial (fun _ hx => hx) ?_
        rintro x - ⟨guids, hnone, -⟩
        cases hnone
      | some matched =>
        refine h.of_frame ht rfl (.addSources h.keyed matched.1 matched.2) trivial
          (fun _ hx => hx) ?_
        rintro x hx ⟨guids, heq, hg⟩
        cases heq
        exact .inl (.inl (mem_sourcesOf_addSources hx.1.1 hg))
    · exact hsame ht rfl rfl rfl rfl rfl rfl rfl trivial (fun _ hx => hx) fun _ _ hx => hx
  | scanReaders info dataLocator => exact h.scanReaders ht
  | insertLocator guid dataLocator readers =>
    exact hsame ht rfl rfl rfl rfl rfl rfl rfl trivial (fun _ hx => hx) fun _ _ hx => hx
  | sendMatches guid readers =>
    cases readers with
    | nil =>
      exact hsame ht rfl rfl rfl rfl rfl rfl rfl trivial (fun _ hx => hx)
        fun _ _ hx => (List.not_mem_nil hx.2).elim
    | cons eid readers =>
      refine h.of_frame ht rfl (.sendMatch h.keyed ⟨eid, guid⟩) trivial (fun _ hx => hx) ?_
      rintro x - ⟨rfl, hmem⟩
      rcases List.mem_cons.mp hmem with rfl | hrest
      · refine .inl (.inr ?_)
        rw [pendingMatches_sendMatch h.keyed]
        exact List.mem_append_right _ (List.mem_singleton_self _)
      · exact .inr (.inl ⟨rfl, hrest⟩)
  | applyMatch m => exact h.applyMatch ht
  | reportPeer proxy =>
    exact hsame ht rfl rfl rfl rfl rfl rfl rfl trivial (fun _ hx => hx) fun _ _ hx => hx
  | localWriters proxy =>
    exact hsame ht rfl rfl rfl rfl rfl rfl rfl trivial (fun _ hx => hx) fun _ _ hx => hx
  | localReaders proxy infos =>
    exact hsame ht rfl rfl rfl rfl rfl rfl rfl trivial (fun _ hx => hx) fun _ _ hx => hx
  | announce proxy infos =>
    cases infos <;>
      exact hsame ht rfl rfl rfl rfl rfl rfl rfl trivial (fun _ hx => hx) fun _ _ hx => hx
  | sendTo proxy msg infos =>
    exact hsame ht rfl rfl rfl rfl rfl rfl rfl trivial (fun _ hx => hx) fun _ _ hx => hx
  | done => exact hsame ht rfl rfl rfl rfl rfl rfl rfl trivial (fun _ hx => hx) fun _ _ hx => hx

/-! ## The run -/

/-- The sweep only removes peers. -/
lemma Accounted.env (h : Accounted p) (now : ℕ) : Accounted (program.step p (.env now)) where
  keyed := ⟨h.keyed.listener, h.keyed.writers⟩
  honest j := honest_mono (h.honest j) (fun _ _ hx => hx) fun _ _ _ _ _ hk => hk
  enrolled := h.enrolled.step_env now (fun _ hx => hx) fun _ hx => hx
  paired := h.paired.step_env now (fun _ hx => hx) fun _ hx => hx

lemma accounted_start (cfg : ParticipantConfig) {calls : ℕ → DiscoveryCall}
    (hcalls : ∀ i eid topic, calls i ≠ .registerReader eid topic) :
    Accounted (start cfg calls) where
  keyed := keyed_new cfg
  honest i := by
    change (DiscoveryTask.call (calls i)).Honest (new cfg)
    cases hc : calls i with
    | registerReader eid topic => exact (hcalls i eid topic hc).elim
    | _ => trivial
  enrolled x hx := by cases hx.1
  paired x hx := by cases hx.1.1

/-- An idle task owes nothing. -/
lemma not_pairingOwes_of_idle {t : DiscoveryTask} (h : t.Idle) (x : Pairing) : ¬ x.Owes t := by
  cases t with
  | call | done => exact id
  | _ => exact h.elim

/-- A writer of participant 2. -/
def writer2 : EndpointInfo :=
  ⟨⟨(ParticipantConfig.numbered 2).guidPrefix, entityIdForWriter 1⟩, "a", true⟩

/-- A reader is created, and a writer of its topic discovered. -/
def twoMatch : ℕ → DiscoveryCall
  | 0 => .newReader "a"
  | 1 => .onRemoteWriter writer2 (.udpV4 (FixedBytes.zero 4) 7411)
  | _ => .matchListener

/-- The writer is recorded when the reader has looked for writers already. -/
def late : List Turn :=
  List.replicate 4 (.task 0 ()) ++ List.replicate 5 (.task 1 ()) ++ List.replicate 3 (.task 0 ()) ++
    List.replicate 2 (.task 2 ())

/-- The state after a reader is created while no writer and no peer is known. -/
def withReader (s : DiscoveryState) (topic : String) : DiscoveryState :=
  let eid := entityIdForReader (s.entityCounter + 1)
  { s with
    entityCounter := s.entityCounter + 1
    states := s.states ++ [⟨eid, topic, ∅⟩]
    readers := s.readers.insert eid s.states.length
    sedp := { s.sedp.insertReader eid topic with seqCounter := s.sedp.seqCounter + 1 } }

lemma addSources_nil (s : DiscoveryState) (reader : ℕ) : s.addSources reader [] = s := by
  have hid : (fun r : SharedReader =>
      { r with sources := r.sources ∪ ([] : List Guid).toFinset }) = id := by
    funext r
    rw [List.toFinset_nil, Finset.union_empty]
    rfl
  rw [addSources, hid, List.modify_id]

/-- The seven steps of a reader's creation. -/
lemma run_newReader {topic : String} (ht : p.task i = .call (.newReader topic))
    (hcounter : p.shared.entityCounter.toNat + 1 < 2 ^ 32)
    (hwriters : p.shared.sedp.remoteWriters = ∅) (hpeers : p.shared.spdp.peers = ∅) :
    program.run p (List.replicate 7 (.task i ())) =
      ⟨p.shared.withReader topic, Function.update p.task i .done⟩ := by
  obtain ⟨s, f⟩ := p
  dsimp only at *
  have henter : s.enter (.newReader topic) =
      ({ s with
          entityCounter := s.entityCounter + 1
          states := s.states ++ [⟨entityIdForReader (s.entityCounter + 1), topic, ∅⟩] },
        .insertState s.states.length (entityIdForReader (s.entityCounter + 1)) topic) := by
    rw [enter, checkedAdd_eq_ok.mpr ⟨hcounter, rfl⟩]
    dsimp only
    rw [RtpsParticipant.ofNat_succ_toNat]
  simp only [List.replicate, Program.run_cons, Program.run_nil, Program.step, ht, program, move,
    henter, Function.update_self, Function.update_idem]
  simp [SedpService.matchingWriters, SpdpService.knownPeers, hpeers, SedpService.insertReader,
    hwriters, Table.values, addSources_nil, withReader]

/-- A reader on `a`, then 2^24 readers on `b`, and then a writer on `a`. -/
def crowd (i : ℕ) : DiscoveryCall :=
  if i = 0 then .newReader "a"
  else if i ≤ 2 ^ 24 then .newReader "b"
  else if i = 2 ^ 24 + 1 then .onRemoteWriter writer2 (.udpV4 (FixedBytes.zero 4) 7411)
  else .matchListener

/-- The state after the first `n` of them, one by one. -/
structure Crowded (n : ℕ) (p : Pool DiscoveryState DiscoveryTask) : Prop where
  task : ∀ i, p.task i = if i < n then .done else .call (crowd i)
  counter : p.shared.entityCounter = UInt32.ofNat n
  first : p.shared.states[0]? = some ⟨entityIdForReader 1, "a", ∅⟩
  writers : p.shared.sedp.remoteWriters = ∅
  peers : p.shared.spdp.peers = ∅
  drained : p.shared.pendingMatches = []
  topics : ∀ eid info, p.shared.sedp.localReaders.lookup eid = some info →
    info.topicName = "a" → eid = entityIdForReader 1

lemma crowded_one (cfg : ParticipantConfig) :
    Crowded 1 (program.run (start cfg crowd) (List.replicate 7 (.task 0 ()))) := by
  have hcounter : (0 : UInt32).toNat + 1 < 2 ^ 32 := by decide
  have ht : (start cfg crowd).task 0 = .call (.newReader "a") := rfl
  rw [run_newReader ht hcounter rfl rfl]
  refine ⟨fun i => ?_, rfl, rfl, rfl, rfl, rfl, fun eid info hinfo _ => ?_⟩
  · rcases Nat.eq_zero_or_pos i with rfl | hi
    · rfl
    · rw [if_neg (by omega)]
      exact Function.update_of_ne (by omega) ..
  · rcases Table.lookup_insert_eq_some.mp hinfo with ⟨heid, -⟩ | ⟨-, hold⟩
    · exact heid
    · cases hold

/-- One more reader on `b`. -/
lemma Crowded.succ {n : ℕ} (h : Crowded n p) (hpos : 0 < n) (hle : n ≤ 2 ^ 24) :
    Crowded (n + 1) (program.run p (List.replicate 7 (.task n ()))) ∧
      (program.run p (List.replicate 7 (.task n ()))).shared = p.shared.withReader "b" := by
  have ht : p.task n = .call (.newReader "b") := by
    rw [h.task, if_neg (lt_irrefl n), crowd, if_neg (by omega), if_pos hle]
  have hcounter : p.shared.entityCounter.toNat + 1 < 2 ^ 32 := by
    rw [h.counter, UInt32.toNat_ofNat']
    omega
  rw [run_newReader ht hcounter h.writers h.peers]
  refine ⟨⟨fun i => ?_, ?_, ?_, h.writers, h.peers, h.drained,
    fun eid info hinfo htopic => ?_⟩, rfl⟩
  · rcases eq_or_ne i n with rfl | hi
    · rw [if_pos (Nat.lt_succ_self i)]
      exact Function.update_self ..
    · have hlt : i < n + 1 ↔ i < n := by omega
      simp only [hlt]
      exact (Function.update_of_ne hi ..).trans (h.task i)
  · change p.shared.entityCounter + 1 = _
    rw [h.counter, UInt32.ofNat_add]
    rfl
  · change (p.shared.states ++ _)[0]? = _
    rw [List.getElem?_append_left (List.getElem?_eq_some_iff.mp h.first).1, h.first]
  · rcases Table.lookup_insert_eq_some.mp hinfo with ⟨-, rfl⟩ | ⟨-, hold⟩
    · exact absurd htopic (show "b" ≠ "a" by decide)
    · exact h.topics eid info hold htopic

lemma exists_crowded (cfg : ParticipantConfig) {n : ℕ} (hpos : 0 < n) (hle : n ≤ 2 ^ 24 + 1) :
    ∃ turns, Crowded n (program.run (start cfg crowd) turns) := by
  induction n, hpos using Nat.le_induction with
  | base => exact ⟨_, crowded_one cfg⟩
  | succ n hpos ih =>
    obtain ⟨turns, hturns⟩ := ih (by omega)
    refine ⟨turns ++ List.replicate 7 (.task n ()), ?_⟩
    rw [Program.run_append]
    exact (hturns.succ hpos (by omega)).1

/-- The last reader has the id of the first, and takes its place in the table of SEDP. -/
lemma Crowded.matchingReaders_eq_nil (h : Crowded (2 ^ 24) p) :
    (p.shared.withReader "b").sedp.matchingReaders "a" = [] := by
  refine List.map_eq_nil_iff.mpr (List.filter_eq_nil_iff.mpr fun info hinfo => ?_)
  rw [decide_eq_true_iff]
  intro htopic
  have hid : entityIdForReader (p.shared.entityCounter + 1) = entityIdForReader 1 := by
    rw [h.counter]
    decide
  obtain ⟨eid, hlookup⟩ := Table.mem_values_iff.mp hinfo
  rcases Table.lookup_insert_eq_some.mp hlookup with ⟨-, rfl⟩ | ⟨hne, hold⟩
  · exact absurd htopic (show "b" ≠ "a" by decide)
  · exact hne ((h.topics eid info hold htopic).trans hid.symm)

/-- A remote writer without readers is recorded, and that is all. -/
lemma run_onRemoteWriter {info : EndpointInfo} {dataLocator : Locator}
    (ht : p.task i = .call (.onRemoteWriter info dataLocator))
    (hnone : p.shared.sedp.matchingReaders info.topicName = []) :
    program.run p (List.replicate 2 (.task i ())) =
      ⟨{ p.shared with sedp := (p.shared.sedp.insertRemoteWriter info).countMatches 0 },
        Function.update p.task i .done⟩ := by
  obtain ⟨s, f⟩ := p
  have hnone' : (s.sedp.insertRemoteWriter info).matchingReaders info.topicName = [] := hnone
  simp only [List.replicate, Program.run_cons, Program.run_nil, Program.step, program, move,
    enter, show f i = _ from ht, Function.update_self, Function.update_idem, hnone',
    List.length_nil, if_true]

lemma crowd_ne_registerReader (i : ℕ) (eid : EntityId) (topic : String) :
    crowd i ≠ .registerReader eid topic := by
  unfold crowd
  split
  · exact nofun
  split
  · exact nofun
  split <;> exact nofun

end DiscoveryState

end RustDds
