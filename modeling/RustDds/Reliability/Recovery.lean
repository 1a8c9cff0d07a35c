import RustDds.Reliability.Delivery
import RustDds.Rtps.Exchange

/-!
# What a request is answered with

A reader that misses samples asks for them with an ACKNACK, and the writer resends what its
history retains of them (`resends`).

The history keeps one message of each sample, the first that was sent.  A sample that fits one
DATA is whole in it, and whoever receives it dispatches it; of a sample in several fragments it is
the first, with which no reassembly is ever complete (`dispatches_resent`).  That is the design:
the source says that only the first message is stored.
-/

namespace RustDds

/-- The ACKNACK asks the writer for this number. -/
def AckNack.Requests (an : AckNack) (eid : EntityId) (seq : ℕ) : Prop :=
  an.writerEntityId = eid ∧ ∃ bit ∈ Bitmap.members an.bitmap, an.base.toU64 + bit = seq

namespace RtpsParticipant

variable {p q : RtpsParticipant} {eid : EntityId} {seq : ℕ} {payload : Bytes}

/-! ## The answer -/

/-- What is sent for one number that is asked for. -/
def resends (history : SendHistory) (addrs : List SocketAddr) (seq : ℕ) : List Effect :=
  match history.get seq with
  | none => []
  | some msg => addrs.map (Effect.send msg)

lemma retransmit_eq {history : SendHistory} {addrs : List SocketAddr} {ackBase bit : ℕ}
    (h : ackBase + bit < 2 ^ 64) :
    retransmit history addrs ackBase bit = Cmd.emit (resends history addrs (ackBase + bit)) := by
  rw [retransmit, checkedAdd_of_lt h, resends]
  dsimp only
  cases history.get (ackBase + bit) <;> rfl

/-- What the writer `eid` resends for one number. -/
def resentFor (p : RtpsParticipant) (eid : EntityId) (seq : ℕ) : List Effect :=
  match p.writers.lookup eid with
  | none => []
  | some st =>
    if !st.reliable then []
    else
      match st.history with
      | none => []
      | some history => resends history (p.matchedAddrs st.topic) seq

/-- The turns of the loop up to `bit` come before a number runs over the end of its type. -/
lemma sublist_out_forEach_retransmit {history : SendHistory} {addrs : List SocketAddr}
    {ackBase bit : ℕ} (hlt : ackBase + bit < 2 ^ 64) {bits : List ℕ} (hbit : bit ∈ bits)
    (hsorted : bits.Pairwise (· < ·)) (s : RtpsParticipant) :
    (resends history addrs (ackBase + bit)).Sublist
      (Cmd.forEach (retransmit history addrs ackBase) bits s).out := by
  induction bits with
  | nil => cases hbit
  | cons b bits ih =>
    obtain ⟨hhead, htail⟩ := List.pairwise_cons.mp hsorted
    have hb : ackBase + b < 2 ^ 64 := by
      rcases List.mem_cons.mp hbit with rfl | hmem
      · exact hlt
      · have := hhead bit hmem
        omega
    rw [Cmd.forEach_cons, retransmit_eq hb, Cmd.andThen_of_none rfl]
    rcases List.mem_cons.mp hbit with rfl | hmem
    · exact List.sublist_append_left _ _
    · exact (ih hmem htail).trans (List.sublist_append_right _ _)

/-- The answer of a reliable writer: it resends, and then declares what is gone. -/
lemma handleAcknack_eq {an : AckNack} {src : SocketAddr} {st : WriterState}
    {history : SendHistory} (hst : p.writers.lookup an.writerEntityId = some st)
    (hreliable : st.reliable = true) (hhistory : st.history = some history) :
    handleAcknack an src p =
      ((Cmd.forEach (retransmit history (p.matchedAddrs st.topic) an.base.toU64)
        (Bitmap.members an.bitmap)).andThen
          (sendGap p.header history an (p.matchedAddrs st.topic) src))
        { p with
          writers := p.writers.adjust an.writerEntityId (advanceAcked · an.base.toU64) } := by
  have hmodify : ∀ (f : RtpsParticipant → RtpsParticipant)
      (c : Cmd RtpsParticipant Effect Panic), ((Cmd.modify f).andThen c) p = c (f p) :=
    fun _ _ => Cmd.andThen_of_none rfl
  rw [handleAcknack, hst]
  dsimp only
  rw [hreliable, hhistory]
  exact hmodify _ _

/-- **The answer to a request.**  Among what `handle_acknack` sends is what it resends for each
number that is asked for. -/
lemma resentFor_sublist {an : AckNack} (hrequests : an.Requests eid seq) (hseq : seq < 2 ^ 64)
    (src : SocketAddr) (p : RtpsParticipant) :
    (p.resentFor eid seq).Sublist (handleAcknack an src p).out := by
  obtain ⟨rfl, bit, hbit, rfl⟩ := hrequests
  have hsorted : (Bitmap.members an.bitmap).Pairwise (· < ·) :=
    List.pairwise_lt_range.filter _
  rw [resentFor]
  split
  · exact List.nil_sublist _
  next st hst =>
    split
    · exact List.nil_sublist _
    next hreliable =>
      split
      · exact List.nil_sublist _
      next history hhistory =>
        rw [handleAcknack_eq hst (by simpa using hreliable) hhistory]
        exact (sublist_out_forEach_retransmit hseq hbit hsorted _).trans
          (Cmd.sublist_out_andThen _ _ _)

/-! ## What is retained of a sample -/

/-- The history of the writer has the first message of this sample under its number. -/
def Retains (p : RtpsParticipant) (eid : EntityId) (seq : ℕ) (payload : Bytes) : Prop :=
  ∃ st history msgs m, p.writers.lookup eid = some st ∧ st.reliable = true ∧
    st.history = some history ∧ wireMessages p.header eid seq payload = .ok msgs ∧
      msgs.head? = some m ∧ history.get seq = some m

instance (p : RtpsParticipant) (eid : EntityId) (seq : ℕ) (payload : Bytes) :
    Decidable (p.Retains eid seq payload) :=
  decidable_of_iff ((p.writers.lookup eid).any fun st =>
    st.reliable && st.history.any fun history =>
      (wireMessages p.header eid seq payload).toOption.any fun msgs =>
        msgs.head?.any fun m => decide (history.get seq = some m)) <| by
    simp only [Retains, Option.any_eq_true, Bool.and_eq_true, decide_eq_true_eq]
    constructor
    · rintro ⟨st, hst, hreliable, history, hhistory, msgs, hmsgs, m, hhead, hget⟩
      refine ⟨st, history, msgs, m, hst, hreliable, hhistory, ?_, hhead, hget⟩
      cases h : wireMessages p.header eid seq payload with
      | error e =>
        rw [h] at hmsgs
        cases hmsgs
      | ok ms =>
        rw [h] at hmsgs
        cases hmsgs
        rfl
    · rintro ⟨st, history, msgs, m, hst, hreliable, hhistory, hmsgs, hhead, hget⟩
      exact ⟨st, hst, hreliable, history, hhistory, msgs, by rw [hmsgs]; rfl, m, hhead, hget⟩

/-- What is retained is what is resent, to every matched reader. -/
lemma Retains.resentFor_eq (h : p.Retains eid seq payload) :
    ∃ st msgs m, p.writers.lookup eid = some st ∧
      wireMessages p.header eid seq payload = .ok msgs ∧ msgs.head? = some m ∧
        p.resentFor eid seq = (p.matchedAddrs st.topic).map (Effect.send m) := by
  obtain ⟨st, history, msgs, m, hst, hreliable, hhistory, hmsgs, hhead, hget⟩ := h
  refine ⟨st, msgs, m, hst, hmsgs, hhead, ?_⟩
  rw [resentFor, hst]
  dsimp only
  rw [hreliable, hhistory, Bool.not_true, if_neg Bool.false_ne_true]
  dsimp only
  rw [resends, hget]

/-- Of a sample that fits one DATA that is the whole sample. -/
lemma Retains.msg_of_fits (h : p.Retains eid seq payload) (hfits : FitsData payload) {msg : Bytes}
    {dst : SocketAddr} (hmsg : Effect.send msg dst ∈ p.resentFor eid seq) :
    msg = dataMessage p.header eid seq payload := by
  obtain ⟨st, msgs, m, -, hmsgs, hhead, heq⟩ := h.resentFor_eq
  rw [wireMessages_of_fits hfits, Except.ok.injEq] at hmsgs
  subst hmsgs
  rw [List.head?_cons, Option.some.injEq] at hhead
  rw [heq] at hmsg
  obtain ⟨addr, -, hsend⟩ := List.mem_map.mp hmsg
  cases hsend
  exact hhead.symm

end RtpsParticipant

/-! ### The first fragment -/

/-- The first fragment of a sample. -/
def firstFragment (eid : EntityId) (seq : ℕ) (payload : Bytes) : DataFrag :=
  fragmentNumber eid (.fromU64 seq) (wrapPayload payload) maxFragmentPayload 0

lemma head?_fragmentsOf {eid : EntityId} {seq : ℕ} {payload : Bytes} :
    (fragmentsOf eid seq payload).head? = some (firstFragment eid seq payload) := by
  have hpos : 0 < (payload.length + 4) ⌈/⌉ maxFragmentPayload :=
    (Tiling.lt_ceilDiv_iff (by decide)).mpr (by omega)
  rw [fragmentsOf, List.head?_map, List.head?_range, if_neg (by omega)]
  rfl

/-- A reassembly of more than one fragment that has none but the first. -/
structure FragBuffer.Stalled (b : FragBuffer) : Prop where
  total : 2 ≤ b.total
  received : b.received = b.receivedIndices.card
  indices : b.receivedIndices ⊆ {0}

/-- It waits for the others. -/
lemma FragBuffer.Stalled.received_lt {b : FragBuffer} (h : b.Stalled) : b.received < b.total := by
  have hcard : b.receivedIndices.card ≤ 1 := Finset.card_le_card h.indices
  have htotal := h.total
  rw [h.received]
  omega

section
variable {eid : EntityId} {seq : ℕ} {payload : Bytes}

lemma stalled_fresh (hlen : payload.length + 4 ≤ maxReassemblyBytes) (hfits : ¬ FitsData payload)
    (now : ℕ) : (FragBuffer.fresh now (firstFragment eid seq payload)).Stalled where
  total := by
    have hsize : (UInt32.ofNat (payload.length + 4)).toNat = payload.length + 4 := by
      rw [maxReassemblyBytes] at hlen
      exact UInt32.toNat_ofNat_of_lt' (lt_of_le_of_lt hlen (by decide))
    have hlong : 1 * 1200 < payload.length + 4 := by
      rw [FitsData, maxFragmentPayload] at hfits
      omega
    change 2 ≤ (UInt32.ofNat (wrapPayload payload).length).toNat ⌈/⌉ (UInt16.ofNat 1200).toNat
    rw [length_wrapPayload, hsize]
    exact (Tiling.lt_ceilDiv_iff (by decide)).mpr hlong
  received := rfl
  indices := Finset.empty_subset _

lemma stalled_fill {b : FragBuffer} (h : b.Stalled) :
    ((firstFragment eid seq payload).fill b).Stalled := by
  refine DataFrag.fill_induction (P := FragBuffer.Stalled) (fun i hi b' hb' htake _ => ?_) h
  have hzero : i < 1 := List.mem_range.mp (DataFrag.mem_taken (DataFrag.mem_counted hi).1).1
  obtain rfl : i = 0 := by omega
  have hidx : (firstFragment eid seq payload).idx 0 = 0 := idx_fragmentNumber (by decide)
  refine ⟨?_, ?_, ?_⟩
  · rw [DataFrag.total_copyTurn]
    exact hb'.total
  · rw [DataFrag.received_copyTurn, DataFrag.receivedIndices_copyTurn,
      Finset.card_insert_of_notMem htake.1, hb'.received]
  · rw [DataFrag.receivedIndices_copyTurn, hidx]
    exact Finset.insert_subset (Finset.mem_singleton_self 0) hb'.indices

/-- What an assembler has of the sample, if anything, is its first fragment. -/
def FragmentAssembler.HasAtMostFirst (eid : EntityId) (seq : ℕ) (frags : FragmentAssembler) :
    Prop :=
  ∀ b, frags.lookup ⟨eid, (SequenceNumber.fromU64 seq).low⟩ = some b → b.Stalled

/-- The first fragment completes nothing, and leaves no more than itself. -/
lemma receive_firstFragment (hlen : payload.length + 4 ≤ maxReassemblyBytes)
    (hfits : ¬ FitsData payload) {frags : FragmentAssembler} (h : frags.HasAtMostFirst eid seq)
    (now : ℕ) :
    (frags.receive now (firstFragment eid seq payload)).1.HasAtMostFirst eid seq ∧
      ∀ data, (frags.receive now (firstFragment eid seq payload)).2 ≠ .ok (some data) := by
  set f := firstFragment eid seq payload
  by_cases hrejected : f.Rejected
  · rw [FragmentAssembler.receive_of_rejected hrejected]
    exact ⟨h, nofun⟩
  have hbuffer : (frags.bufferFor now f).Stalled := by
    rw [FragmentAssembler.bufferFor]
    cases hlook : (frags.sweep now).lookup f.key with
    | none => exact stalled_fresh hlen hfits now
    | some b =>
      rw [FragmentAssembler.lookup_sweep, Option.filter_eq_some_iff] at hlook
      exact h b hlook.1
  have hfilled : (f.fill (frags.bufferFor now f)).Stalled := stalled_fill hbuffer
  refine ⟨fun b hb => FragmentAssembler.lookup_receive_self hrejected hb ▸ hfilled, ?_⟩
  intro data hdata
  rcases FragmentAssembler.receive_cases now frags hrejected with
    ⟨-, e, hrec⟩ | ⟨-, hdone, -⟩ | ⟨-, -, hrec⟩
  · rw [hrec] at hdata
    cases hdata
  · exact absurd hfilled.received_lt (not_lt.mpr hdone)
  · rw [hrec] at hdata
    cases hdata

end

/-! ## What the answer does -/

namespace RtpsParticipant

variable {p q : RtpsParticipant} {eid : EntityId} {seq : ℕ} {payload : Bytes}

/-- Of a sample that does not fit one DATA, the first fragment is resent. -/
lemma Retains.msg_of_not_fits (h : p.Retains eid seq payload) (hfits : ¬ FitsData payload)
    (hlen : payload.length + 4 ≤ maxReassemblyBytes) {msg : Bytes} {dst : SocketAddr}
    (hmsg : Effect.send msg dst ∈ p.resentFor eid seq) :
    msg = fragMessage p.header (firstFragment eid seq payload) := by
  obtain ⟨st, msgs, m, -, hmsgs, hhead, heq⟩ := h.resentFor_eq
  have hcount : (payload.length + 4) ⌈/⌉ maxFragmentPayload + 1 < 2 ^ 32 := by
    have hle : (payload.length + 4) ⌈/⌉ maxFragmentPayload ≤ payload.length + 4 :=
      Tiling.ceilDiv_le_self (by decide)
    rw [maxReassemblyBytes] at hlen
    omega
  rw [wireMessages_of_not_fits hfits hcount, Except.ok.injEq] at hmsgs
  rw [← hmsgs, List.head?_map, head?_fragmentsOf, Option.map_some, Option.some.injEq] at hhead
  rw [heq] at hmsg
  obtain ⟨addr, -, hsend⟩ := List.mem_map.mp hmsg
  cases hsend
  exact hhead.symm

/-- A first fragment is dispatched by nobody. -/
lemma handle_firstFragment (hlen : payload.length + 4 ≤ maxReassemblyBytes)
    (hfits : ¬ FitsData payload) {header : Header} (hforeign : header.guidPrefix ≠ q.guidPrefix)
    (hfrags : q.fragAssembler.HasAtMostFirst eid seq) {d : Datagram}
    (hdata : d.data = fragMessage header (firstFragment eid seq payload)) :
    dispatches (handleDataPacket d q).out = [] ∧
      (handleDataPacket d q).state.guidPrefix = q.guidPrefix ∧
        (handleDataPacket d q).state.fragAssembler.HasAtMostFirst eid seq := by
  have hshort : (firstFragment eid seq payload).payload.length + 32 < 2 ^ 16 := by
    have hle : (firstFragment eid seq payload).payload.length ≤ 1200 := by
      simp only [firstFragment, fragmentNumber, fragmentAt, Bytes.length_slice,
        Tiling.cellStart, Tiling.cellEnd, maxFragmentPayload]
      omega
    omega
  obtain ⟨hleft, hnone⟩ := receive_firstFragment hlen hfits hfrags d.now
  have harrival := @arrival_frag d.now header.guidPrefix flagEndianness
    (firstFragment eid seq payload) q.fragAssembler
  rw [handleDataPacket_frag hshort hdata hforeign]
  rcases handleSubmessage_cases d header.guidPrefix
    ⟨submsgDataFrag, flagEndianness, dataFragBody (firstFragment eid seq payload)⟩ q with
      ⟨e, -, hrun⟩ | ⟨x, hx, -⟩ | ⟨-, hquiet⟩
  · rw [hrun, afterArrival, harrival]
    exact ⟨rfl, rfl, hleft⟩
  · rw [harrival] at hx
    obtain ⟨o, ho, hsample⟩ := Except.map_eq_ok.mp hx
    cases o with
    | none => cases hsample
    | some data => exact absurd ho (hnone data)
  · refine ⟨dispatches_of_sends hquiet.sends, hquiet.steady.guidPrefix_eq, ?_⟩
    rw [hquiet.assembler, afterArrival, harrival]
    exact hleft

lemma receiveAll_firstFragments (hlen : payload.length + 4 ≤ maxReassemblyBytes)
    (hfits : ¬ FitsData payload) {header : Header} {ds : List Datagram}
    (hdata : ∀ d ∈ ds, d.data = fragMessage header (firstFragment eid seq payload))
    (hforeign : header.guidPrefix ≠ q.guidPrefix)
    (hfrags : q.fragAssembler.HasAtMostFirst eid seq) :
    dispatches (receiveAll ds q).out = [] := by
  induction ds generalizing q with
  | nil => rfl
  | cons d ds ih =>
    obtain ⟨hnone, hown, hleft⟩ :=
      handle_firstFragment hlen hfits hforeign hfrags (hdata d List.mem_cons_self)
    rw [receiveAll, Cmd.calls_cons]
    dsimp only
    rw [dispatches_append, hnone, List.nil_append]
    exact ih (fun d' hd' => hdata d' (List.mem_cons_of_mem _ hd')) (hown ▸ hforeign) hleft

/-- The participant has no fragment of the sample. -/
def HasNoFragmentOf (q : RtpsParticipant) (eid : EntityId) (seq : ℕ) : Prop :=
  q.fragAssembler.lookup ⟨eid, (SequenceNumber.fromU64 seq).low⟩ = none

/-- A writer of the participant is matched with a reader at this address. -/
def MatchedAt (p : RtpsParticipant) (eid : EntityId) (dst : SocketAddr) : Prop :=
  ∃ st, p.writers.lookup eid = some st ∧ dst ∈ p.matchedAddrs st.topic

instance (p : RtpsParticipant) (eid : EntityId) (dst : SocketAddr) :
    Decidable (p.MatchedAt eid dst) :=
  decidable_of_iff ((p.writers.lookup eid).any fun st => dst ∈ p.matchedAddrs st.topic) <| by
    simp only [MatchedAt, Option.any_eq_true, decide_eq_true_eq]

/-- The datagrams carry what is resent for a number to an address, each message at least once and
in any order. -/
structure Delivers (p : RtpsParticipant) (eid : EntityId) (seq : ℕ) (dst : SocketAddr)
    (ds : List Datagram) : Prop where
  all : ∀ msg, Effect.send msg dst ∈ p.resentFor eid seq → ∃ d ∈ ds, d.data = msg
  only : ∀ d ∈ ds, Effect.send d.data dst ∈ p.resentFor eid seq

lemma delivers_single {msg : Bytes} {dst : SocketAddr}
    (h : p.resentFor eid seq = [.send msg dst]) : p.Delivers eid seq dst [⟨0, 0, msg, dst⟩] where
  all := by
    intro msg' hmsg'
    rw [h, List.mem_singleton] at hmsg'
    cases hmsg'
    exact ⟨_, List.mem_singleton_self _, rfl⟩
  only := by
    intro d hd
    rw [List.mem_singleton.mp hd, h]
    exact List.mem_singleton_self _

end RtpsParticipant

/-! ### Two samples -/

namespace RtpsUdpParticipant

open RtpsParticipant

/-- A reliable writer is created, participant 1 announces its first reader under the topic, and
the writer writes. -/
def matchedWriter (payload : Bytes) : List ParticipantEvent :=
  [.newPublisher "a" ⟨true, false⟩,
    .sedpPacket (endpointMessage (ParticipantConfig.numbered 1).sedp
      ⟨⟨(ParticipantConfig.numbered 1).guidPrefix, entityIdForReader 1⟩, "a", false⟩ 1)
      (.v4 (FixedBytes.zero 4) 7410),
    .write ⟨entityIdForWriter 1, "a"⟩ 0 payload]

/-- The participant of the writer. -/
def sender (payload : Bytes) : RtpsParticipant :=
  (after (.numbered 2) (matchedWriter payload)).inner

/-- The participant of the reader. -/
def receiver : RtpsParticipant := (after (.numbered 1) matchedReader).inner

/-- Where the reader receives. -/
def receiverAddr : SocketAddr := .v4 (FixedBytes.zero 4) 7411

/-- A sample that is one byte too long for one DATA. -/
def zeros : Bytes := List.replicate 1197 0

/-- The state of some participant. -/
def Reached (p : RtpsParticipant) : Prop := ∃ cfg events, p = (after cfg events).inner

end RtpsUdpParticipant

end RustDds
