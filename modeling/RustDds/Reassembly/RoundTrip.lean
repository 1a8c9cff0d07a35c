import RustDds.Reassembly.Splitting
import RustDds.Rtps.Exchange

/-!
# The fragments of a sample

A sample that does not fit one DATA is split, with the four bytes that precede it on the wire, into
fragments.  They are the pieces of that byte string, so what holds of these holds of them:
`receive_fragmentOf` is the step of the assembler on a fragment that is missing.
-/

namespace RustDds

open LoggedAssembler (Backed)

/-- Fragment `k` of a sample, counting from zero. -/
def fragmentOf (eid : EntityId) (seq : ℕ) (payload : Bytes) (k : ℕ) : DataFrag :=
  fragmentNumber eid (.fromU64 seq) (wrapPayload payload) maxFragmentPayload k

/-- How many there are. -/
def fragmentCount (payload : Bytes) : ℕ := (payload.length + 4) ⌈/⌉ maxFragmentPayload

/-- The key they are filed under. -/
def sampleKey (eid : EntityId) (seq : ℕ) : FragKey := ⟨eid, (SequenceNumber.fromU64 seq).low⟩

section
variable {eid : EntityId} {seq : ℕ} {payload : Bytes} {k : ℕ}

lemma fragmentsOf_eq : fragmentsOf eid seq payload =
    (List.range (fragmentCount payload)).map (fragmentOf eid seq payload) := rfl

/-- The fragments of a sample that may be reassembled can be numbered. -/
lemma fragmentCount_lt (hlen : payload.length + 4 ≤ maxReassemblyBytes) :
    fragmentCount payload + 1 < 2 ^ 32 := by
  have hle : fragmentCount payload ≤ payload.length + 4 := Tiling.ceilDiv_le_self (by decide)
  rw [maxReassemblyBytes] at hlen
  omega

lemma fragmentOf_eq_pieceOf :
    fragmentOf eid seq payload k = pieceOf eid (.fromU64 seq) (wrapPayload payload) k := rfl

lemma pieceCount_wrapPayload : pieceCount (wrapPayload payload) = fragmentCount payload := by
  rw [pieceCount, length_wrapPayload, fragmentCount]

lemma piecesOf_wrapPayload :
    piecesOf eid (.fromU64 seq) (wrapPayload payload) = fragmentsOf eid seq payload := by
  rw [piecesOf, pieceCount_wrapPayload, fragmentsOf_eq]
  rfl

lemma length_payload_fragmentOf : (fragmentOf eid seq payload k).payload.length =
    Tiling.cellEnd (payload.length + 4) 1200 k - Tiling.cellStart 1200 k := by
  rw [fragmentOf_eq_pieceOf, length_payload_pieceOf, length_wrapPayload]

end

/-- The buffer has been filled with the fragments `S` of the sample. -/
def Gathers (eid : EntityId) (seq : ℕ) (payload : Bytes) (S : Finset ℕ) (b : FragBuffer) : Prop :=
  ∃ opener log, opener ∈ fragmentsOf eid seq payload ∧ log ⊆ fragmentsOf eid seq payload ∧
    Backed opener log b ∧ b.receivedIndices = S

/-! ### Receiving a fragment -/

namespace FragmentAssembler

/-- The assembler has the fragments `S` of the sample, if any then in a buffer that is not too old
at any of `times`. -/
def Awaits (eid : EntityId) (seq : ℕ) (payload : Bytes) (S : Finset ℕ) (times : List ℕ)
    (frags : FragmentAssembler) : Prop :=
  S = ∅ ∧ frags.lookup (sampleKey eid seq) = none ∨
    ∃ b, frags.lookup (sampleKey eid seq) = some b ∧ Gathers eid seq payload S b ∧
      ∀ t ∈ times, t ≤ b.created + staleFragAge

variable {eid : EntityId} {seq : ℕ} {payload : Bytes} {k now : ℕ} {S : Finset ℕ}
  {times : List ℕ} {frags : FragmentAssembler}

lemma awaits_iff : frags.Awaits eid seq payload S times ↔
    frags.Collects eid (.fromU64 seq) (wrapPayload payload) S times := by
  simp only [Awaits, Collects, Gathers, Fills, piecesOf_wrapPayload]
  rfl

lemma Awaits.mono {times' : List ℕ} (h : frags.Awaits eid seq payload S times)
    (hsub : times' ⊆ times) : frags.Awaits eid seq payload S times' :=
  awaits_iff.mpr ((awaits_iff.mp h).mono hsub)

/-- **The step**: a fragment that is missing is kept, or completes the sample. -/
lemma receive_fragmentOf (hlen : payload.length + 4 ≤ maxReassemblyBytes)
    (h : frags.Awaits eid seq payload S (now :: times)) (hk : k < fragmentCount payload)
    (hnot : k ∉ S) (htimes : ∀ t ∈ times, t ≤ now + staleFragAge) :
    (S.card + 1 < fragmentCount payload →
      (frags.receive now (fragmentOf eid seq payload k)).2 = .ok none ∧
        (frags.receive now (fragmentOf eid seq payload k)).1.Awaits eid seq payload
          (insert k S) times) ∧
    (fragmentCount payload ≤ S.card + 1 →
      (frags.receive now (fragmentOf eid seq payload k)).2 =
          .ok (some (wrapPayload payload)) ∧
        (frags.receive now (fragmentOf eid seq payload k)).1.lookup (sampleKey eid seq) =
          none) := by
  rw [← pieceCount_wrapPayload] at hk ⊢
  rw [awaits_iff]
  exact receive_pieceOf (by rwa [length_wrapPayload]) (awaits_iff.mp h) hk hnot htimes

/-- A fragment of another sample leaves the buffer alone while it is not too old. -/
lemma Awaits.receive_of_ne {f : DataFrag} (hkey : f.key ≠ sampleKey eid seq)
    (h : frags.Awaits eid seq payload S (now :: times)) :
    (frags.receive now f).1.Awaits eid seq payload S times :=
  awaits_iff.mpr ((awaits_iff.mp h).receive_of_ne hkey)

end FragmentAssembler

end RustDds
