import RustDds.Rtps.XcdrStream

/-!
# XCDR reads on any buffer

A decoder may be run on a buffer that holds no stream, and may go on after an error.  A read can
then leave its cursor behind a length it has taken, or, by aligning it, behind the end of the
buffer, and `remaining` faults there.

`Sound` is what is asked of a call, and `Whole` the condition on a read under which it is met;
`calls_sound_iff` says of every sequence of calls on every accepted input that the one holds
throughout exactly when the other does.
-/

namespace RustDds

open Checked

/-- A call of the public interface of a decoder. -/
inductive XCall
  | read (t : XType)
  | remaining

namespace XcdrDecoder

/-- The decoder after a call. -/
def afterCall (d : XcdrDecoder) : XCall → XcdrDecoder
  | .read t => d.after t
  | .remaining => d

/-- What is asked of a call: it does not fault, the cursor stays in the buffer, and an error
leaves it where it was. -/
def Sound (d : XcdrDecoder) : XCall → Prop
  | .read t => ∃ r d', (read t).on d = .ok (r, d') ∧ d'.buf = d.buf ∧ d'.pos ≤ d.buf.length ∧
      ∀ e, r = .error e → d'.pos = d.pos
  | .remaining => ∃ k, d.remaining = .ok k

/-- Where a field of `n` bytes starts. -/
def start (d : XcdrDecoder) (n : ℕ) : ℕ := d.pos + alignPad n d.pos

/-- The read is of something that lies in the buffer, with its body if it has one; or it fails
before it moves the cursor. -/
def Whole (d : XcdrDecoder) : XType → Prop
  | .field f => d.start f.width + f.width ≤ d.buf.length ∨ d.start f.width = d.pos
  | .string | .bytesSeq =>
    if d.start 4 + 4 ≤ d.buf.length then
      d.start 4 + 4 + (Bytes.readU32 d.buf (d.start 4)).toNat ≤ d.buf.length
    else d.start 4 = d.pos

/-- A call is whole if its read is. -/
def WholeCall (d : XcdrDecoder) : XCall → Prop
  | .read t => d.Whole t
  | .remaining => True

/-- The read `x` does not fault; it returns only if `whole`, inside the buffer, and it fails in
place only if `whole`. -/
def Ends {α : Type} (x : Reading α) (d : XcdrDecoder) (whole : Prop) : Prop :=
  (∃ a pos, x.on d = .ok (.ok a, { d with pos }) ∧ pos ≤ d.buf.length ∧ whole) ∨
    ∃ e pos, x.on d = .ok (.error e, { d with pos }) ∧ (whole ↔ pos = d.pos)

variable {d : XcdrDecoder} {α β : Type} {x : Reading α} {whole : Prop}

lemma Ends.map (h : Ends x d whole) (f : α → β) : Ends (do let v ← x; return f v) d whole := by
  rcases h with ⟨a, pos, hx, hpos, hwhole⟩ | ⟨e, pos, hx, hiff⟩
  · exact Or.inl ⟨f a, pos, Stateful.on_bind_ok hx _, hpos, hwhole⟩
  · exact Or.inr ⟨e, pos, Stateful.on_bind_error hx _, hiff⟩

/-- A field is there, or the cursor stops before it. -/
lemma ends_field (hd : d.Inside) (f : XField) :
    Ends (read (.field f)) d (d.Whole (.field f)) := by
  have hread := takes_read f d hd
  unfold field at hread
  dsimp only at hread
  have hwhole : d.Whole (.field f) ↔
      d.start f.width + f.width ≤ d.buf.length ∨ d.start f.width = d.pos := Iff.rfl
  split at hread
  · rename_i hfits
    exact Or.inl ⟨_, _, hread, hfits, Or.inl hfits⟩
  · rename_i hshort
    exact Or.inr ⟨_, _, hread, hwhole.trans (or_iff_right hshort)⟩

/-- The body behind a length is there, or the cursor stays before it. -/
def TakesBody (x : Reading α) (n : ℕ) : Prop :=
  ∀ d : XcdrDecoder, d.Inside →
    if d.pos + n ≤ d.buf.length then ∃ a, x.on d = .ok (.ok a, { d with pos := d.pos + n })
    else ∃ e, x.on d = .ok (.error e, d)

lemma takesBody_readBody {n : ℕ} (hn : n < 2 ^ 62) : TakesBody (readBody n) n := by
  intro d hd
  have hread := on_readBody hd hn
  split_ifs at hread ⊢
  · exact ⟨_, hread⟩
  · exact ⟨_, hread⟩

/-- A length and a body: either may be missing, and only a missing length can leave the cursor
in place. -/
lemma ends_counted (hd : d.Inside) {g : UInt32 → Reading α} (hg : ∀ k, TakesBody (g k) k.toNat) :
    Ends (readU32 >>= g) d (if d.start 4 + 4 ≤ d.buf.length then
      d.start 4 + 4 + (Bytes.readU32 d.buf (d.start 4)).toNat ≤ d.buf.length
      else d.start 4 = d.pos) := by
  have hlength := takes_readU32 d hd
  unfold field at hlength
  dsimp only at hlength
  split at hlength
  · rename_i hfits
    have hstart : d.start 4 + 4 ≤ d.buf.length := hfits
    have hbody := hg (Bytes.readU32 d.buf (d.start 4)) { d with pos := d.start 4 + 4 }
      ⟨hd.length_lt, hfits⟩
    have hbind := Stateful.on_bind_ok hlength g
    rw [if_pos hstart]
    dsimp only at hbody
    split_ifs at hbody with hwhole
    · obtain ⟨a, hbody⟩ := hbody
      exact Or.inl ⟨a, _, hbind.trans hbody, hwhole, hwhole⟩
    · obtain ⟨e, hbody⟩ := hbody
      refine Or.inr ⟨e, _, hbind.trans hbody, iff_of_false hwhole ?_⟩
      rw [start]
      omega
  · rename_i hshort
    have hstart : ¬ d.start 4 + 4 ≤ d.buf.length := hshort
    rw [if_neg hstart]
    exact Or.inr ⟨_, _, Stateful.on_bind_error hlength g, Iff.rfl⟩

/-- What every read does with the cursor. -/
lemma ends_read (hd : d.Inside) (t : XType) : Ends (read t) d (d.Whole t) := by
  have hbody : ∀ k : UInt32, TakesBody (readBody k.toNat) k.toNat := fun k =>
    takesBody_readBody (by have := k.toNat_lt; omega)
  cases t with
  | field f => exact ends_field hd f
  | string =>
    refine (ends_counted hd fun k => ?_).map XValue.string
    by_cases hk : k.toNat = 0
    · -- an empty string has no body to miss
      intro d hd
      rw [if_pos hk, hk, Nat.add_zero, if_pos hd.pos_le]
      exact ⟨"", rfl⟩
    · rw [if_neg hk]
      intro d hd
      have hread := hbody k d hd
      split_ifs at hread ⊢
      · obtain ⟨b, hread⟩ := hread
        exact ⟨_, Stateful.on_bind_ok hread _⟩
      · obtain ⟨e, hread⟩ := hread
        exact ⟨e, Stateful.on_bind_error hread _⟩
  | bytesSeq => exact (ends_counted hd hbody).map XValue.bytesSeq

/-- On a decoder whose cursor lies in its buffer, a call is sound exactly when it is whole. -/
lemma sound_iff (hd : d.Inside) (c : XCall) : d.Sound c ↔ d.WholeCall c := by
  cases c with
  | remaining => exact iff_of_true ⟨_, if_pos hd.pos_le⟩ trivial
  | read t =>
    rcases ends_read hd t with ⟨v, pos, hread, hpos, hwhole⟩ | ⟨e, pos, hread, hiff⟩
    · exact iff_of_true ⟨_, _, hread, rfl, hpos, by simp⟩ hwhole
    · show (∃ r d', (read t).on d = .ok (r, d') ∧ _) ↔ d.Whole t
      rw [hiff]
      constructor
      · rintro ⟨r, d', hread', -, -, herr⟩
        rw [hread, Except.ok.injEq, Prod.mk.injEq] at hread'
        obtain ⟨rfl, rfl⟩ := hread'
        exact herr e rfl
      · intro hpos
        exact ⟨_, _, hread, rfl, by rw [hpos]; exact hd.pos_le, fun _ _ => hpos⟩

lemma inside_afterCall (hd : d.Inside) {c : XCall} (h : d.Sound c) : (d.afterCall c).Inside := by
  cases c with
  | remaining => exact hd
  | read t =>
    obtain ⟨r, d', hread, hbuf, hpos, -⟩ := h
    have hafter : d.after t = d' := by rw [after, hread]
    show (d.after t).Inside
    rw [hafter]
    exact ⟨by rw [hbuf]; exact hd.length_lt, by rw [hbuf]; exact hpos⟩

/-- **When a decoder stays in its buffer.**  On every accepted input, all calls of a sequence
are sound if and only if each of its reads is whole: of something that lies in the buffer with
its body, or failing before the cursor moves. -/
theorem calls_sound_iff {buf : Bytes} (hlen : buf.length < 2 ^ 63) {d : XcdrDecoder}
    (hnew : new buf = .ok d) (calls : List XCall) :
    Run.Each afterCall Sound d calls ↔ Run.Each afterCall WholeCall d calls := by
  have hinside : d.Inside := by
    unfold new at hnew
    dsimp only at hnew
    split_ifs at hnew with hshort
    cases hnew
    exact ⟨hlen, not_lt.mp hshort⟩
  exact Run.each_iff_of_inv (I := Inside) (fun d c hd => sound_iff hd c)
    (fun d c hd h => inside_afterCall hd h) hinside

/-- Two octets are read from a buffer that holds one: the second read fails in place. -/
theorem calls_sound_octets :
    Run.Each afterCall Sound ⟨[1, 0, 0, 0, 7], 4⟩
      [.read (.field .u8), .remaining, .read (.field .u8), .remaining] := by
  have hnew : new [1, 0, 0, 0, 7] = .ok ⟨[1, 0, 0, 0, 7], 4⟩ := by rfl
  exact (calls_sound_iff (by decide) hnew _).mpr
    ⟨Or.inl (by decide), trivial, Or.inr (by rfl), trivial, trivial⟩

/-- An eight-byte read at the end of a buffer fails, but has aligned the cursor: it stands
behind the buffer, and `remaining` faults. -/
theorem exists_remaining_fault :
    new [1, 0, 0, 0, 7] = .ok ⟨[1, 0, 0, 0, 7], 4⟩ ∧
      (read (.field .u64)).on ⟨[1, 0, 0, 0, 7], 4⟩ =
        .ok (.error (.truncated 16 5), ⟨[1, 0, 0, 0, 7], 8⟩) ∧
      remaining ⟨[1, 0, 0, 0, 7], 8⟩ = .error (.panic .overflow) ∧
      ¬ Run.Each afterCall Sound ⟨[1, 0, 0, 0, 7], 4⟩ [.read (.field .u64), .remaining] := by
  have hread : (read (.field .u64)).on ⟨[1, 0, 0, 0, 7], 4⟩ =
      .ok (.error (.truncated 16 5), ⟨[1, 0, 0, 0, 7], 8⟩) := by rfl
  refine ⟨by rfl, hread, by rfl, ?_⟩
  rintro ⟨⟨r, d', hread', -, hpos, -⟩, -⟩
  rw [hread, Except.ok.injEq, Prod.mk.injEq] at hread'
  rw [← hread'.2] at hpos
  exact absurd hpos (by decide)

end XcdrDecoder

end RustDds
