import RustDds.Shmem.Ipc

/-!
# The rendezvous file under concurrent writers

What is at `data.bin` should be the whole of one encoded sample (`Whole`), and a reader should
read the whole of one.  The rename sees to that for one writer.  All writers use the same
temporary file, though: one that creates it while another is between its own create and rename
empties the other's file, which may be the one that is renamed (`exists_not_whole`).

In a run in which no writer creates the file while another one has it, `data.bin` is whole, and
so is all that is read (`whole_of_inTurn`).  At most one writer then has the temporary file
(`Alone`), and nobody writes to the inode behind `data.bin`, nor to one that a reader still has
open.
-/

namespace RustDds

/-- The writer stands between its create and its rename. -/
def IpcTask.InWindow : IpcTask → Prop
  | .writing _ _ _ => True
  | .rename _ _ => True
  | _ => False

namespace Rendezvous

/-- The inode holds one encoded sample, which some `write_sample` was called with. -/
def Complete (r : Rendezvous) (inode : ℕ) : Prop :=
  ∃ call ∈ r.written, r.dir.content inode = call.bytes

/-- `data.bin` is absent, or holds one encoded sample, which some `write_sample` was called
with. -/
def Whole (r : Rendezvous) : Prop := ∀ inode, r.dir.data = some inode → r.Complete inode

/-- No writer creates the temporary file while another one is between its create and its
rename. -/
def InTurn (p : Pool Rendezvous IpcTask) : Pick Io Empty → Prop
  | .task i (.ok _) => ∀ call, p.task i = .createTmp call → ∀ j, ¬ (p.task j).InWindow
  | _ => True

/-! ## At most one writer -/

/-- At most one writer is between its create and its rename. -/
def Alone (p : Pool Rendezvous IpcTask) : Prop :=
  ∀ i j, (p.task i).InWindow → (p.task j).InWindow → i = j

/-- Who is past the create was so before, or has just created the file. -/
lemma inWindow_move {io : Io} {r : Rendezvous} {t : IpcTask} (h : (move io r t).2.InWindow) :
    t.InWindow ∨ ∃ call n, t = .createTmp call ∧ io = .ok n := by
  cases t with
  | writing call inode pos => exact .inl trivial
  | rename call inode => exact .inl trivial
  | createTmp call =>
    cases io with
    | ok n => exact .inr ⟨call, n, rfl, rfl⟩
    | interrupted => exact h.elim
    | fail => exact h.elim
    | crash => exact h.elim
  | createDir call => cases io <;> exact h.elim
  | openData =>
    cases io with
    | ok n =>
      simp only [move, advance] at h
      split at h <;> exact h.elim
    | interrupted => exact h.elim
    | fail => exact h.elim
    | crash => exact h.elim
  | reading inode bytes =>
    cases io with
    | ok n =>
      simp only [move, advance] at h
      split at h <;> exact h.elim
    | interrupted => exact h.elim
    | fail => exact h.elim
    | crash => exact h.elim
  | done => cases io <;> exact h.elim

lemma Alone.step {p : Pool Rendezvous IpcTask} {pick : Pick Io Empty} (h : Alone p)
    (hturn : InTurn p pick) : Alone (program.step p pick) := by
  cases pick with
  | env e => exact e.elim
  | task i io =>
    -- nobody else has the file once this task has it
    have hone : ∀ j ≠ i, ((program.step p (.task i io)).task i).InWindow →
        ¬ (p.task j).InWindow := by
      intro j hj hi hwin
      rw [program.task_step_self] at hi
      rcases inWindow_move hi with hwas | ⟨call, n, hcreate, rfl⟩
      · exact hj (h j i hwin hwas)
      · exact hturn call hcreate j hwin
    intro j k hj hk
    by_cases hji : j = i
    · by_cases hki : k = i
      · rw [hji, hki]
      · rw [program.task_step_of_ne p hki] at hk
        rw [hji] at hj
        exact absurd hk (hone k hki hj)
    · rw [program.task_step_of_ne p hji] at hj
      by_cases hki : k = i
      · rw [hki] at hk
        exact absurd hj (hone j hji hk)
      · rw [program.task_step_of_ne p hki] at hk
        exact h j k hj hk

lemma alone_start (calls : ℕ → Call) : Alone (start calls) := by
  intro i j hi
  have hidle : ¬ ((start calls).task i).InWindow := by
    change ¬ (calls i).task.InWindow
    cases calls i <;> exact id
  exact absurd hi hidle

/-! ## What nobody writes to -/

/-- The inode is complete, and no writer will get hold of it. -/
structure Published (r : Rendezvous) (inode : ℕ) : Prop where
  complete : r.Complete inode
  old : inode < r.dir.inodes
  not_tmp : r.dir.tmp ≠ some inode

/-- The directory, and what was read. -/
structure Sound (r : Rendezvous) : Prop where
  data : ∀ inode, r.dir.data = some inode → r.Published inode
  tmp_old : ∀ inode, r.dir.tmp = some inode → inode < r.dir.inodes
  read : ∀ result ∈ r.read, result = .error .io ∨
    ∃ call ∈ r.written, result = decodeSample call.bytes

/-- What each call knows of the directory. -/
def Knows (r : Rendezvous) : IpcTask → Prop
  | .createTmp call => call ∈ r.written
  | .writing call inode pos => call ∈ r.written ∧ r.dir.tmp = some inode ∧
      pos ≤ call.bytes.length ∧ r.dir.content inode = call.bytes.take pos
  | .rename call inode => call ∈ r.written ∧ r.dir.tmp = some inode ∧
      r.dir.content inode = call.bytes
  | .reading inode bytes => r.Published inode ∧ bytes <+: r.dir.content inode
  | _ => True

section Steps

variable {r : Rendezvous}

lemma Complete.mono {inode : ℕ} (h : r.Complete inode) {r' : Rendezvous}
    (hcontent : r'.dir.content inode = r.dir.content inode) (hwritten : r.written ⊆ r'.written) :
    r'.Complete inode := by
  obtain ⟨call, hcall, hbytes⟩ := h
  exact ⟨call, hwritten hcall, by rw [hcontent, hbytes]⟩

lemma Published.mono {inode : ℕ} (h : r.Published inode) {written : List WriteCall}
    (hwritten : r.written ⊆ written) (read : List (Except DecodeError Decoded)) :
    (⟨r.dir, written, read⟩ : Rendezvous).Published inode :=
  ⟨h.complete.mono rfl hwritten, h.old, h.not_tmp⟩

/-- A call knows what it knew as long as the directory stays as it is. -/
lemma Knows.mono {t : IpcTask} (h : r.Knows t) {written : List WriteCall}
    (hwritten : r.written ⊆ written) (read : List (Except DecodeError Decoded)) :
    (⟨r.dir, written, read⟩ : Rendezvous).Knows t := by
  cases t with
  | createTmp call => exact hwritten h
  | writing call inode pos => exact ⟨hwritten h.1, h.2⟩
  | rename call inode => exact ⟨hwritten h.1, h.2⟩
  | reading inode bytes => exact ⟨h.1.mono hwritten read, h.2⟩
  | createDir _ => trivial
  | openData => trivial
  | done => trivial

/-- A new call begins. -/
lemma Sound.begin (h : r.Sound) (call : WriteCall) :
    ({ r with written := r.written ++ [call] } : Rendezvous).Sound where
  data inode hdata := (h.data inode hdata).mono (List.subset_append_left _ _) _
  tmp_old := h.tmp_old
  read result hmem := (h.read result hmem).imp id fun ⟨c, hc, heq⟩ =>
    ⟨c, List.mem_append_left _ hc, heq⟩

/-- A reader returns. -/
lemma Sound.finishRead (h : r.Sound) {result : Except DecodeError Decoded}
    (hresult : result = .error .io ∨ ∃ call ∈ r.written, result = decodeSample call.bytes) :
    ({ r with read := r.read ++ [result] } : Rendezvous).Sound where
  data inode hdata := (h.data inode hdata).mono (List.Subset.refl _) _
  tmp_old := h.tmp_old
  read result' hmem := by
    rcases List.mem_append.mp hmem with hmem | hmem
    · exact h.read result' hmem
    · rw [List.mem_singleton.mp hmem]
      exact hresult

/-- Bytes written behind what is there. -/
lemma overwrite_append (old chunk : Bytes) :
    TopicDir.overwrite old old.length chunk = old ++ chunk := by
  simp [TopicDir.overwrite]

/-- A write to the temporary file touches no published inode. -/
lemma Published.setContent {inode inode' : ℕ} (h : r.Published inode')
    (htmp : r.dir.tmp = some inode) (bytes : Bytes) :
    ({ r with dir := r.dir.setContent inode bytes } : Rendezvous).Published inode' ∧
      (r.dir.setContent inode bytes).content inode' = r.dir.content inode' := by
  have hne : inode' ≠ inode := by
    rintro rfl
    exact h.not_tmp htmp
  have hcontent : (r.dir.setContent inode bytes).content inode' = r.dir.content inode' := by
    simp [TopicDir.setContent, hne]
  exact ⟨⟨h.complete.mono hcontent (List.Subset.refl _), h.old, h.not_tmp⟩, hcontent⟩

lemma Sound.setContent (h : r.Sound) {inode : ℕ} (htmp : r.dir.tmp = some inode) (bytes : Bytes) :
    ({ r with dir := r.dir.setContent inode bytes } : Rendezvous).Sound where
  data inode' hdata := ((h.data inode' hdata).setContent htmp bytes).1
  tmp_old := h.tmp_old
  read := h.read

/-- Creating the temporary file touches no published inode. -/
lemma Published.createTmp {inode : ℕ} (h : r.Published inode) :
    ({ r with dir := r.dir.createTmp.2 } : Rendezvous).Published inode ∧
      r.dir.createTmp.2.content inode = r.dir.content inode := by
  cases htmp : r.dir.tmp with
  | some tmp =>
    have hcreate : r.dir.createTmp = (tmp, r.dir.setContent tmp []) := by
      simp [TopicDir.createTmp, htmp]
    rw [hcreate]
    exact h.setContent htmp []
  | none =>
    have hold := h.old
    have hcontent : r.dir.createTmp.2.content inode = r.dir.content inode := by
      simp only [TopicDir.createTmp, htmp, TopicDir.setContent]
      exact Function.update_of_ne (by omega) ..
    refine ⟨⟨h.complete.mono hcontent (List.Subset.refl _), ?_, ?_⟩, hcontent⟩
    · simp only [TopicDir.createTmp, htmp]
      omega
    · simp only [TopicDir.createTmp, htmp, ne_eq, Option.some.injEq]
      omega

lemma Sound.createTmp (h : r.Sound) :
    ({ r with dir := r.dir.createTmp.2 } : Rendezvous).Sound := by
  have hdata : r.dir.createTmp.2.data = r.dir.data := by
    unfold TopicDir.createTmp
    split <;> rfl
  refine ⟨fun inode hinode => ?_, fun inode hinode => ?_, h.read⟩
  · exact (h.data inode (hdata ▸ hinode)).createTmp.1
  · cases htmp : r.dir.tmp with
    | some tmp =>
      simp only [TopicDir.createTmp, htmp, TopicDir.setContent] at hinode ⊢
      exact h.tmp_old inode (htmp.trans hinode)
    | none =>
      simp only [TopicDir.createTmp, htmp, Option.some.injEq] at hinode ⊢
      omega

/-- The file that was created is the temporary one, and empty. -/
lemma createTmp_spec (d : TopicDir) :
    d.createTmp.2.tmp = some d.createTmp.1 ∧ d.createTmp.2.content d.createTmp.1 = [] := by
  unfold TopicDir.createTmp
  split
  · rename_i tmp htmp
    exact ⟨htmp, Function.update_self ..⟩
  · exact ⟨rfl, Function.update_self ..⟩

/-- The temporary file, complete, becomes `data.bin`. -/
lemma Sound.rename (h : r.Sound) {call : WriteCall} {inode : ℕ}
    (hknows : r.Knows (.rename call inode)) :
    ({ r with dir := r.dir.renameTmp } : Rendezvous).Sound ∧
      ∀ inode', r.Published inode' →
        ({ r with dir := r.dir.renameTmp } : Rendezvous).Published inode' := by
  obtain ⟨hcall, htmp, hcontent⟩ := hknows
  have hrename : r.dir.renameTmp = { r.dir with tmp := none, data := some inode } := by
    simp [TopicDir.renameTmp, htmp]
  rw [hrename]
  refine ⟨⟨?_, by simp, h.read⟩, fun inode' h' => ⟨h'.complete, h'.old, by simp⟩⟩
  rintro inode' hinode'
  cases hinode'
  exact ⟨⟨call, hcall, hcontent⟩, h.tmp_old inode htmp, by simp⟩

end Steps

/-! ## Runs -/

/-- The directory under a run in turn. -/
def Quiet (p : Pool Rendezvous IpcTask) : Pick Io Empty → Prop :=
  fun pick => InTurn p pick ∧ Alone p

/-- A step that leaves the directory alone. -/
lemma holds_of_dir {p : Pool Rendezvous IpcTask} (h : p.Holds Sound Knows) {i : ℕ}
    {written : List WriteCall} {read : List (Except DecodeError Decoded)} {t : IpcTask}
    (hwritten : p.shared.written ⊆ written)
    (hsound : (⟨p.shared.dir, written, read⟩ : Rendezvous).Sound)
    (hknows : (⟨p.shared.dir, written, read⟩ : Rendezvous).Knows t) :
    (⟨p.shared.dir, written, read⟩ : Rendezvous).Sound ∧
      (⟨p.shared.dir, written, read⟩ : Rendezvous).Knows t ∧
      ∀ j ≠ i, (⟨p.shared.dir, written, read⟩ : Rendezvous).Knows (p.task j) :=
  ⟨hsound, hknows, fun j _ => (h.2 j).mono hwritten read⟩

/-- A step on the temporary file while nobody else has it: readers and writers that have not
begun know what they knew. -/
lemma knows_others {p : Pool Rendezvous IpcTask} (h : p.Holds Sound Knows) {i : ℕ}
    (halone : ∀ j ≠ i, ¬ (p.task j).InWindow) {dir : TopicDir}
    (hpub : ∀ inode, p.shared.Published inode →
      ({ p.shared with dir } : Rendezvous).Published inode ∧
        dir.content inode = p.shared.dir.content inode) :
    ∀ j ≠ i, ({ p.shared with dir } : Rendezvous).Knows (p.task j) := by
  intro j hj
  have hknows := h.2 j
  have hout := halone j hj
  cases ht : p.task j with
  | reading inode bytes =>
    rw [ht] at hknows
    obtain ⟨hpub', hcontent⟩ := hpub inode hknows.1
    exact ⟨hpub', by rw [hcontent]; exact hknows.2⟩
  | writing call inode pos => exact absurd (ht ▸ trivial) hout
  | rename call inode => exact absurd (ht ▸ trivial) hout
  | createTmp call =>
    rw [ht] at hknows
    exact hknows
  | createDir _ => trivial
  | openData => trivial
  | done => trivial

/-- **The step.**  The operation of a call succeeds. -/
lemma holds_advance {p : Pool Rendezvous IpcTask} (h : p.Holds Sound Knows) {i n : ℕ}
    (hquiet : Quiet p (.task i (.ok n))) :
    (p.shared.advance n (p.task i)).1.Sound ∧
      (p.shared.advance n (p.task i)).1.Knows (p.shared.advance n (p.task i)).2 ∧
      ∀ j ≠ i, (p.shared.advance n (p.task i)).1.Knows (p.task j) := by
  have hsound := h.1
  have hi := h.2 i
  obtain ⟨hturn, halone⟩ := hquiet
  -- who is past the create has the file to itself
  have hothers : (p.task i).InWindow → ∀ j ≠ i, ¬ (p.task j).InWindow :=
    fun hwin j hj hwin' => hj (halone j i hwin' hwin)
  cases ht : p.task i with
  | createDir call =>
    exact holds_of_dir h (List.subset_append_left _ _) (hsound.begin call)
      (List.mem_append_right _ (List.mem_singleton_self call))
  | createTmp call =>
    obtain ⟨htmp, hempty⟩ := createTmp_spec p.shared.dir
    rw [ht] at hi
    refine ⟨hsound.createTmp, ⟨hi, htmp, Nat.zero_le _, hempty⟩,
      knows_others h (fun j _ => hturn call ht j) fun inode hpub => hpub.createTmp⟩
  | writing call inode pos =>
    rw [ht] at hi
    obtain ⟨hcall, htmp, hpos, hcontent⟩ := hi
    simp only [advance]
    split
    · rename_i hend
      refine holds_of_dir h (List.Subset.refl _) hsound ⟨hcall, htmp, ?_⟩
      rw [hcontent, hend, List.take_length]
    split
    · exact holds_of_dir h (List.Subset.refl _) hsound trivial
    refine ⟨hsound.setContent htmp _, ⟨hcall, htmp, ?_, ?_⟩,
      knows_others h (hothers (ht ▸ trivial)) fun inode' hpub => hpub.setContent htmp _⟩
    · rw [List.length_take, List.length_drop]
      omega
    · have hlen : (call.bytes.take pos).length = pos := by
        rw [List.length_take, Nat.min_eq_left hpos]
      have hwrite := overwrite_append (call.bytes.take pos) ((call.bytes.drop pos).take n)
      rw [hlen] at hwrite
      simp only [TopicDir.setContent, Function.update_self, hcontent, hwrite]
      rw [List.take_add]
      congr 1
      exact List.take_eq_take_iff.mpr (by simp)
  | rename call inode =>
    rw [ht] at hi
    obtain ⟨hsound', hpub⟩ := hsound.rename hi
    exact ⟨hsound', trivial, knows_others h (hothers (ht ▸ trivial)) fun inode' h' =>
      ⟨hpub inode' h', by unfold TopicDir.renameTmp; split <;> rfl⟩⟩
  | openData =>
    simp only [advance]
    split
    · rename_i inode hdata
      exact holds_of_dir h (List.Subset.refl _) hsound ⟨hsound.data inode hdata, List.nil_prefix⟩
    · exact holds_of_dir h (List.Subset.refl _) (hsound.finishRead (.inl rfl)) trivial
  | reading inode bytes =>
    rw [ht] at hi
    obtain ⟨hpub, rest, hrest⟩ := hi
    have hdrop : (p.shared.dir.content inode).drop bytes.length = rest := by
      rw [← hrest, List.drop_left]
    simp only [advance, hdrop]
    split
    · rename_i hnil
      obtain ⟨call, hcall, hbytes⟩ := hpub.complete
      refine holds_of_dir h (List.Subset.refl _)
        (hsound.finishRead (.inr ⟨call, hcall, ?_⟩)) trivial
      rw [← hbytes, ← hrest, hnil, List.append_nil]
    · refine holds_of_dir h (List.Subset.refl _) hsound ⟨hpub, ?_⟩
      rw [← hrest]
      exact (List.prefix_append_right_inj bytes).mpr <| List.take_prefix _ _
  | done => exact holds_of_dir h (List.Subset.refl _) hsound trivial

/-- The operation of a call fails. -/
lemma holds_giveUp {p : Pool Rendezvous IpcTask} (h : p.Holds Sound Knows) (i : ℕ) :
    (p.shared.giveUp (p.task i)).1.Sound ∧
      (p.shared.giveUp (p.task i)).1.Knows (p.shared.giveUp (p.task i)).2 ∧
      ∀ j ≠ i, (p.shared.giveUp (p.task i)).1.Knows (p.task j) := by
  cases p.task i with
  | openData => exact holds_of_dir h (List.Subset.refl _) (h.1.finishRead (.inl rfl)) trivial
  | reading inode bytes =>
    exact holds_of_dir h (List.Subset.refl _) (h.1.finishRead (.inl rfl)) trivial
  | createDir call => exact holds_of_dir h (List.Subset.refl _) h.1 trivial
  | createTmp call => exact holds_of_dir h (List.Subset.refl _) h.1 trivial
  | writing call inode pos => exact holds_of_dir h (List.Subset.refl _) h.1 trivial
  | rename call inode => exact holds_of_dir h (List.Subset.refl _) h.1 trivial
  | done => exact holds_of_dir h (List.Subset.refl _) h.1 trivial

/-- **The rendezvous file is whole.**  Take a run of any number of `write_sample` and
`read_current` calls on an empty directory, whatever they write, in whatever pieces, and whatever
fails, in which no writer creates the temporary file while another one is between its create and
its rename.  Then `data.bin` is absent, or holds one encoded sample that some `write_sample` was
called with, and every `read_current` that returned has failed to read the file, or decoded one
such sample. -/
theorem whole_of_inTurn (calls : ℕ → Call) (picks : List (Pick Io Empty))
    (hturn : Run.Each program.step InTurn (start calls) picks) :
    (program.run (start calls) picks).shared.Whole ∧
    ∀ result ∈ (program.run (start calls) picks).shared.read, result = .error .io ∨
      ∃ call ∈ (program.run (start calls) picks).shared.written,
        result = decodeSample call.bytes := by
  have hquiet : Run.Each program.step Quiet (start calls) picks :=
    hturn.imp (fun p pick halone hpick => halone.step hpick)
      (fun p pick halone hpick => ⟨hpick, halone⟩) (alone_start calls)
  have hstart : (start calls).Holds Sound Knows := by
    refine ⟨⟨by simp [start, new, TopicDir.empty], by simp [start, new, TopicDir.empty],
      by simp [start, new]⟩, fun i => ?_⟩
    change Knows new (calls i).task
    cases calls i <;> trivial
  have hend : (program.run (start calls) picks).Holds Sound Knows := by
    refine Program.each_holds ?_ (fun _ e => e.elim) hquiet hstart
    intro p i io hp hpick
    cases io with
    | ok n => exact holds_advance hp hpick
    | interrupted => exact ⟨hp.1, hp.2 i, fun j _ => hp.2 j⟩
    | fail => exact holds_giveUp hp i
    | crash => exact ⟨hp.1, trivial, fun j _ => hp.2 j⟩
  exact ⟨fun inode hdata => (hend.1.data inode hdata).complete, hend.1.read⟩

/-! ### Two runs -/

/-- The `n`-th sample. -/
def nthSample (n : ℕ) : Sample := ⟨"t", [1, 2, 3], 0, n, FixedBytes.zero 16⟩

/-- Two writers, and readers. -/
def twoWriters : ℕ → Call
  | 0 => .writeSample ⟨1, nthSample 1⟩
  | 1 => .writeSample ⟨2, nthSample 2⟩
  | _ => .readCurrent

/-- The first writer writes in two pieces and publishes, and a reader opens its file; the second
writer dies over its own file, and the reader reads on. -/
def writerDies : List (Pick Io Empty) :=
  [.task 0 (.ok 0), .task 0 (.ok 0), .task 0 (.ok 20), .task 0 (.ok 99), .task 0 (.ok 0),
    .task 0 (.ok 0), .task 2 (.ok 0), .task 1 (.ok 0), .task 1 (.ok 0), .task 1 (.ok 9),
    .task 1 .crash, .task 2 (.ok 99), .task 2 (.ok 0)]

/-- What is left is whole. -/
theorem whole_of_inTurn_writerDies :
    (program.run (start twoWriters) writerDies).shared.Whole :=
  (whole_of_inTurn twoWriters writerDies (by
    refine ⟨?_, ?_, ?_, ?_, ?_, ?_, ?_, ?_, ?_, ?_, ?_, ?_, ?_, trivial⟩
    -- the two creates, and the crash
    case refine_2 => rintro - - (_ | _ | j) <;> exact id
    case refine_9 => rintro - - (_ | _ | _ | j) <;> exact id
    case refine_11 => trivial
    all_goals
      intro call h
      cases h)).1

/-- A writer has written its file when another one creates it anew; the first renames an empty
file into place. -/
theorem exists_not_whole :
    ¬ ∀ (calls : ℕ → Call) (picks : List (Pick Io Empty)),
      (program.run (start calls) picks).shared.Whole := by
  intro h
  have hrun := h twoWriters
    [.task 0 (.ok 0), .task 0 (.ok 0), .task 0 (.ok 99), .task 0 (.ok 0), .task 1 (.ok 0),
      .task 1 (.ok 0), .task 0 (.ok 0)] 0 (by decide +kernel)
  obtain ⟨call, -, hbytes⟩ := hrun
  have hempty : (program.run (start twoWriters)
      [.task 0 (.ok 0), .task 0 (.ok 0), .task 0 (.ok 99), .task 0 (.ok 0), .task 1 (.ok 0),
        .task 1 (.ok 0), .task 0 (.ok 0)]).shared.dir.content 0 = [] := by decide +kernel
  rw [hempty] at hbytes
  have hlen := length_encodeSample call.originId call.sample
  rw [← WriteCall.bytes, ← hbytes, headerLen, List.length_nil] at hlen
  omega

end Rendezvous

end RustDds
