import RustDds.Shmem.Ipc

/-!
# The last sample of a topic on disk

`persist_flush` keeps the payload of a write in the one file of its topic, behind its length, and
`persist_load` reads it back.  Of `dir` it matters here only whether it is empty, which turns both
off; `content` is the file that `persist_path(dir, topic)` names, if there is one.

A flush truncates the file, writes the length and then the payload, each in a step of its own and
at its own position in the file, and nothing keeps the steps of two calls apart (`PersistTask`).
`Apart` says when a flush may open the file so that no two payloads meet in it, and `Framed` what
the file is then like.  The file operations succeed; a directory that cannot be written is left
out.
-/

namespace RustDds

/-! ## One call at a time -/

/-- A payload declared longer than this is not read back. -/
def maxPersistedPayloadBytes : ℕ := 64 * 1024 * 1024

/-- Why nothing was loaded.  The last two are i/o errors. -/
inductive PersistLoadError
  | oversizedPayload (got : ℕ)
  | notFound
  | unexpectedEof
  deriving DecidableEq, Repr

/-- `read_exact` of `n` bytes at a position. -/
def readExact (bytes : Bytes) (pos n : ℕ) : Except PersistLoadError Bytes :=
  if bytes.length - pos < n then .error .unexpectedEof
  else .ok (Bytes.slice bytes pos (pos + n))

/-- `write_all` at a position.  Without bytes there is nothing to write. -/
def writeAll (bytes : Bytes) (pos : ℕ) (chunk : Bytes) : Bytes :=
  if chunk = [] then bytes else TopicDir.overwrite bytes pos chunk

/-- The length of a payload, which is cut to 32 bits. -/
def persistHeader (length : ℕ) : Bytes := Bytes.ofNatLE 4 length

/-- The last payload that was flushed. -/
def persistLoad (dir : String) (content : Option Bytes) :
    Except PersistLoadError (Option Bytes) :=
  if dir = "" then .ok none
  else match content with
    | none => .error .notFound
    | some bytes => do
      let lenBuf ← readExact bytes 0 4
      let length := Bytes.toNatLE lenBuf
      if length > maxPersistedPayloadBytes then .error (.oversizedPayload length)
      else
        let buf ← readExact bytes 4 length
        .ok (some buf)

/-- Replace the file by one that holds `payload`. -/
def persistFlush (dir : String) (content : Option Bytes) (payload : Bytes) : Option Bytes :=
  if dir = "" then content
  else some (writeAll (writeAll [] 0 (persistHeader payload.length)) 4 payload)

@[simp] lemma length_persistHeader (n : ℕ) : (persistHeader n).length = 4 :=
  Bytes.length_ofNatLE 4 n

lemma persistHeader_ne_nil (n : ℕ) : persistHeader n ≠ [] :=
  List.ne_nil_of_length_pos (by rw [length_persistHeader]; decide)

/-- The length goes over the one that is there. -/
lemma writeAll_header (n : ℕ) (body : Bytes) :
    writeAll (persistHeader n ++ body) 0 (persistHeader n) = persistHeader n ++ body := by
  rw [writeAll, if_neg (persistHeader_ne_nil n), TopicDir.overwrite, length_persistHeader,
    Nat.zero_add, Bytes.drop_append_right (length_persistHeader n).le]
  simp

lemma writeAll_nil_header (n : ℕ) : writeAll [] 0 (persistHeader n) = persistHeader n := by
  rw [writeAll, if_neg (persistHeader_ne_nil n), TopicDir.overwrite]
  simp

/-- A payload goes over one that is as long, or over nothing. -/
lemma writeAll_payload (n : ℕ) {old payload : Bytes}
    (h : old = [] ∨ old.length = payload.length) :
    writeAll (persistHeader n ++ old) 4 payload = persistHeader n ++ payload := by
  by_cases hnil : payload = []
  · have hold : old = [] := by
      rcases h with h | h
      · exact h
      · rwa [hnil, List.length_nil, List.length_eq_zero_iff] at h
    rw [writeAll, if_pos hnil, hold, hnil]
  · have hdrop : (persistHeader n ++ old).drop (4 + payload.length) = [] := by
      refine List.drop_eq_nil_of_le ?_
      rw [List.length_append, length_persistHeader]
      rcases h with rfl | h
      · simp
      · omega
    have hgap : 4 - (persistHeader n ++ old).length = 0 := by
      rw [List.length_append, length_persistHeader]
      omega
    have htake : (persistHeader n ++ old).take 4 = persistHeader n :=
      List.take_left' (length_persistHeader n)
    rw [writeAll, if_neg hnil, TopicDir.overwrite, hdrop, hgap, htake]
    simp

lemma persistFlush_eq {dir : String} (hdir : dir ≠ "") (content : Option Bytes) (payload : Bytes) :
    persistFlush dir content payload = some (persistHeader payload.length ++ payload) := by
  have hpayload := @writeAll_payload payload.length [] payload (.inl rfl)
  rw [List.append_nil] at hpayload
  rw [persistFlush, if_neg hdir, writeAll_nil_header, hpayload]

lemma readExact_header (n : ℕ) (body : Bytes) :
    readExact (persistHeader n ++ body) 0 4 = .ok (persistHeader n) := by
  rw [readExact, if_neg (by simp), Bytes.slice_append_left (length_persistHeader n)]

/-- Of a body there must be enough. -/
lemma readExact_body (m n : ℕ) (body : Bytes) :
    readExact (persistHeader m ++ body) 4 n =
      if body.length < n then .error .unexpectedEof else .ok (body.take n) := by
  have hslice : Bytes.slice (persistHeader m ++ body) 4 (4 + n) = body.take n := by
    rw [Bytes.slice_append_right (length_persistHeader m).le, length_persistHeader]
    simp [Bytes.slice]
  rw [readExact, hslice, List.length_append, length_persistHeader, Nat.add_sub_cancel_left]

/-- **A flush that is alone comes back** exactly if its payload is not above the cap. -/
theorem persistLoad_persistFlush {dir : String} (hdir : dir ≠ "") (content : Option Bytes)
    (payload : Bytes) :
    persistLoad dir (persistFlush dir content payload) = .ok (some payload) ↔
      payload.length ≤ maxPersistedPayloadBytes := by
  have hdeclared : Bytes.toNatLE (persistHeader payload.length) = payload.length % 2 ^ 32 := by
    rw [persistHeader, Bytes.toNatLE_ofNatLE]
    norm_num
  have hle : payload.length % 2 ^ 32 ≤ payload.length := Nat.mod_le _ _
  rw [persistFlush_eq hdir, persistLoad, if_neg hdir]
  simp only [readExact_header, bind, Except.bind, hdeclared, readExact_body, if_neg hle.not_gt]
  have hcap : maxPersistedPayloadBytes < 2 ^ 32 := by decide
  split_ifs with hover
  · simp only [false_iff]
    omega
  · simp only [Except.ok.injEq, Option.some.injEq, List.take_eq_self_iff]
    omega

/-! ## Calls that interleave -/

/-- A call on the file of one topic. -/
inductive PersistCall
  | flush (payload : Bytes)
  | load
  deriving DecidableEq

/-- What is left of a call. -/
inductive PersistTask
  | call (c : PersistCall)
  /-- A flush that has truncated the file and has the length to write. -/
  | opened (payload : Bytes)
  /-- A flush that has the payload to write. -/
  | headed (payload : Bytes)
  | flushed (payload : Bytes)
  /-- A load that has the length to read. -/
  | reading
  /-- A load that has the payload to read. -/
  | sized (length : ℕ)
  | loaded (result : Except PersistLoadError (Option Bytes))
  deriving DecidableEq

/-- The file, the payloads of the flushes that have opened it, and the payloads that were written
since the last of them did. -/
structure PersistFile where
  content : Option Bytes
  passed : List Bytes
  latest : List Bytes
  deriving DecidableEq

namespace PersistFile

/-- No file yet. -/
def new : PersistFile := ⟨none, [], []⟩

/-- The next step of a call. -/
def move (dir : String) (f : PersistFile) : PersistTask → PersistFile × PersistTask
  | .call (.flush payload) =>
    if dir = "" then (f, .flushed payload)
    else (⟨some [], f.passed ++ [payload], []⟩, .opened payload)
  | .opened payload =>
    ({ f with content := f.content.map (writeAll · 0 (persistHeader payload.length)) },
      .headed payload)
  | .headed payload =>
    ({ f with
        content := f.content.map (writeAll · 4 payload)
        latest := f.latest ++ [payload] }, .flushed payload)
  | .call .load =>
    if dir = "" then (f, .loaded (.ok none))
    else match f.content with
      | none => (f, .loaded (.error .notFound))
      | some _ => (f, .reading)
  | .reading =>
    match readExact (f.content.getD []) 0 4 with
    | .error e => (f, .loaded (.error e))
    | .ok lenBuf =>
      let length := Bytes.toNatLE lenBuf
      if length > maxPersistedPayloadBytes then (f, .loaded (.error (.oversizedPayload length)))
      else (f, .sized length)
  | .sized length => (f, .loaded ((readExact (f.content.getD []) 4 length).map some))
  | t => (f, t)

/-- The calls on the file of a topic in `dir`. -/
def program (dir : String) : Program PersistFile PersistTask Unit Empty where
  move _ := move dir
  env e := e.elim

/-- No file, and calls of which none has begun. -/
def start (calls : ℕ → PersistCall) : Pool PersistFile PersistTask :=
  ⟨new, fun i => .call (calls i)⟩

/-- The calls of a task, one step after the other. -/
def alone (dir : String) (f : PersistFile) (c : PersistCall) : PersistFile × PersistTask :=
  let first := move dir f (.call c)
  let second := move dir first.1 first.2
  move dir second.1 second.2

/-- A flush that nothing disturbs is `persist_flush`. -/
lemma alone_flush (dir : String) (f : PersistFile) (payload : Bytes) :
    (alone dir f (.flush payload)).1.content = persistFlush dir f.content payload ∧
      (alone dir f (.flush payload)).2 = .flushed payload := by
  by_cases hdir : dir = "" <;> simp [alone, move, persistFlush, hdir]

/-- A load that nothing disturbs is `persist_load`. -/
lemma alone_load (dir : String) (f : PersistFile) :
    alone dir f .load = (f, .loaded (persistLoad dir f.content)) := by
  by_cases hdir : dir = ""
  · simp [alone, move, persistLoad, hdir]
  cases hcontent : f.content with
  | none => simp [alone, move, persistLoad, hdir, hcontent]
  | some bytes =>
    cases hread : readExact bytes 0 4 with
    | error e => simp [alone, move, persistLoad, hdir, hcontent, hread, bind, Except.bind]
    | ok lenBuf =>
      by_cases hcap : Bytes.toNatLE lenBuf > maxPersistedPayloadBytes
      · simp [alone, move, persistLoad, hdir, hcontent, hread, bind, Except.bind, hcap]
      · cases hbody : readExact bytes 4 (Bytes.toNatLE lenBuf) <;>
          simp [alone, move, persistLoad, hdir, hcontent, hread, bind, Except.bind, hcap, hbody,
            Except.map]

/-! ### What keeps payloads apart -/

/-- A flush of `payload` may open the file as far as this call is concerned: it is no flush that
has begun to write, or whose payload is of another length, and no load that has read a smaller
length. -/
def Undisturbed (payload : Bytes) : PersistTask → Prop
  | .opened other => other.length = payload.length
  | .headed _ => False
  | .sized length => payload.length ≤ length
  | _ => True

/-- A flush opens the file only where it disturbs no call, and with a payload that can be read
back. -/
def Apart (p : Pool PersistFile PersistTask) : Pick Unit Empty → Prop
  | .task i _ => ∀ payload, p.task i = .call (.flush payload) →
      payload.length ≤ maxPersistedPayloadBytes ∧ ∀ j, Undisturbed payload (p.task j)
  | .env e => e.elim

/-- The length of the payload whose flush has opened the file last. -/
def size (f : PersistFile) : ℕ := (f.passed.getLast?.map List.length).getD 0

/-- The file is empty, or has the length of its payload, or has the payload too. -/
inductive Holds (f : PersistFile) : Prop
  | truncated (hcontent : f.content = some []) (hlatest : f.latest = [])
  | header (hcontent : f.content = some (persistHeader f.size)) (hlatest : f.latest = [])
  | whole (payload : Bytes) (hlatest : payload ∈ f.latest) (hpassed : payload ∈ f.passed)
      (hsize : payload.length = f.size)
      (hcontent : f.content = some (persistHeader f.size ++ payload))

/-- There is no file yet, or one with a single payload at most. -/
def Framed (f : PersistFile) : Prop :=
  f.content = none ∧ f.passed = [] ∨
    f.passed ≠ [] ∧ f.size ≤ maxPersistedPayloadBytes ∧ f.Holds

/-- A call has opened, written and read a file with a single payload. -/
def Sound (dir : String) (f : PersistFile) : PersistTask → Prop
  | .opened payload => payload ∈ f.passed ∧ payload.length = f.size
  | .headed payload => payload ∈ f.passed ∧ payload.length = f.size ∧ f.content ≠ some []
  | .flushed payload => dir ≠ "" → payload ∈ f.passed
  | .sized length => f.passed ≠ [] ∧ f.size ≤ length
  | .loaded (.ok (some payload)) => payload ∈ f.passed
  | _ => True

section
variable {dir : String} {f f' : PersistFile} {t : PersistTask} {payload : Bytes}

lemma size_congr (hpassed : f'.passed = f.passed) : f'.size = f.size := by
  rw [size, size, hpassed]

@[simp] lemma size_open (passed : List Bytes) (payload : Bytes) (content : Option Bytes)
    (latest : List Bytes) : size ⟨content, passed ++ [payload], latest⟩ = payload.length := by
  simp [size]

/-- The payload that is read with the length of the last one opened is one that was passed. -/
lemma exists_length_eq_size (hne : f.passed ≠ []) :
    ∃ payload ∈ f.passed, payload.length = f.size := by
  obtain ⟨passed, payload, hpassed⟩ := (List.eq_nil_or_concat f.passed).resolve_left hne
  refine ⟨payload, by simp [hpassed], ?_⟩
  simp [size, hpassed]

/-- A file with something in it begins with the length of the last payload opened. -/
lemma Holds.exists_body (h : Holds f) (hcontent : f.content ≠ some []) :
    ∃ body, f.content = some (persistHeader f.size ++ body) ∧
      (body = [] ∧ f.latest = [] ∨ body ∈ f.latest ∧ body ∈ f.passed ∧ body.length = f.size) := by
  cases h with
  | truncated hnil _ => exact absurd hnil hcontent
  | header hheader hlatest => exact ⟨[], by rw [hheader, List.append_nil], .inl ⟨rfl, hlatest⟩⟩
  | whole payload hlatest hpassed hsize hwhole =>
    exact ⟨payload, hwhole, .inr ⟨hlatest, hpassed, hsize⟩⟩

/-- What a call has done stays sound while no flush opens the file. -/
lemma Sound.congr (h : Sound dir f t) (hpassed : f'.passed = f.passed)
    (hcontent : f.content ≠ some [] → f'.content ≠ some []) : Sound dir f' t := by
  have hsize := size_congr hpassed
  cases t with
  | call c => trivial
  | opened payload => rwa [Sound, hpassed, hsize]
  | headed payload =>
    obtain ⟨hmem, hlength, hne⟩ := h
    exact ⟨hpassed ▸ hmem, hsize ▸ hlength, hcontent hne⟩
  | flushed payload => rwa [Sound, hpassed]
  | reading => trivial
  | sized length => rwa [Sound, hpassed, hsize]
  | loaded result =>
    rcases result with e | _ | payload
    · trivial
    · trivial
    · rwa [Sound, hpassed]

/-- A flush that opens the file does not disturb the call. -/
lemma Sound.open (h : Sound dir f t) (hapart : Undisturbed payload t) :
    Sound dir ⟨some [], f.passed ++ [payload], []⟩ t := by
  cases t with
  | call c => trivial
  | opened other => exact ⟨List.mem_append_left _ h.1, by rw [size_open]; exact hapart⟩
  | headed other => exact hapart.elim
  | flushed other => exact fun hdir => List.mem_append_left _ (h hdir)
  | reading => trivial
  | sized length => exact ⟨by simp, by rw [size_open]; exact hapart⟩
  | loaded result =>
    rcases result with e | _ | other
    · trivial
    · trivial
    · exact List.mem_append_left _ h

/-- The length is written. -/
lemma Framed.head (h : Framed f) (hmem : payload ∈ f.passed) (hsize : payload.length = f.size) :
    let f' := { f with content := f.content.map (writeAll · 0 (persistHeader payload.length)) }
    Framed f' ∧ f'.content ≠ some [] := by
  intro f'
  have hne : f.passed ≠ [] := List.ne_nil_of_mem hmem
  obtain ⟨-, hcap, hholds⟩ := h.resolve_left fun h => hne h.2
  have hsize' : f'.size = f.size := size_congr rfl
  by_cases hnil : f.content = some []
  · have hcontent : f'.content = some (persistHeader f'.size) := by
      simp only [f', hnil, Option.map_some, writeAll_nil_header, hsize]
      rfl
    have hlatest : f.latest = [] := by
      cases hholds with
      | truncated _ hlatest => exact hlatest
      | header _ hlatest => exact hlatest
      | whole payload _ _ _ hwhole =>
        rw [hnil, Option.some.injEq] at hwhole
        exact absurd (List.append_eq_nil_iff.mp hwhole.symm).1 (persistHeader_ne_nil _)
    exact ⟨.inr ⟨hne, hcap, .header hcontent hlatest⟩, by
      rw [hcontent]
      exact fun h => persistHeader_ne_nil _ (Option.some.inj h)⟩
  · obtain ⟨body, hbody, -⟩ := hholds.exists_body hnil
    have hsame : f' = f := by
      simp only [f', hbody, Option.map_some, hsize, writeAll_header]
      rw [← hbody]
    rw [hsame]
    exact ⟨h, hnil⟩

/-- The payload is written. -/
lemma Framed.write (h : Framed f) (hmem : payload ∈ f.passed) (hsize : payload.length = f.size)
    (hnil : f.content ≠ some []) :
    let f' := { f with
      content := f.content.map (writeAll · 4 payload)
      latest := f.latest ++ [payload] }
    Framed f' ∧ f'.content ≠ some [] := by
  intro f'
  have hne : f.passed ≠ [] := List.ne_nil_of_mem hmem
  obtain ⟨-, hcap, hholds⟩ := h.resolve_left fun h => hne h.2
  obtain ⟨body, hbody, hold⟩ := hholds.exists_body hnil
  have hlength : body = [] ∨ body.length = payload.length := by
    rcases hold with ⟨hold, -⟩ | ⟨-, -, hold⟩
    · exact .inl hold
    · exact .inr (hold.trans hsize.symm)
  have hcontent : f'.content = some (persistHeader f'.size ++ payload) := by
    simp only [f', hbody, Option.map_some, writeAll_payload _ hlength]
    rfl
  refine ⟨.inr ⟨hne, hcap, .whole payload (by simp [f']) hmem hsize hcontent⟩, ?_⟩
  rw [hcontent]
  exact fun h => persistHeader_ne_nil _ (List.append_eq_nil_iff.mp (Option.some.inj h)).1

/-- The length that is read is that of the last payload opened. -/
lemma Framed.readLength (h : Framed f) {lenBuf : Bytes}
    (hread : readExact (f.content.getD []) 0 4 = .ok lenBuf) :
    f.passed ≠ [] ∧ Bytes.toNatLE lenBuf = f.size := by
  have hempty : readExact [] 0 4 ≠ .ok lenBuf := by simp [readExact]
  rcases h with ⟨hnone, -⟩ | ⟨hne, hcap, hholds⟩
  · rw [hnone] at hread
    exact absurd hread hempty
  by_cases hnil : f.content = some []
  · rw [hnil] at hread
    exact absurd hread hempty
  obtain ⟨body, hbody, -⟩ := hholds.exists_body hnil
  rw [hbody, Option.getD_some, readExact_header, Except.ok.injEq] at hread
  refine ⟨hne, ?_⟩
  rw [← hread, persistHeader, Bytes.toNatLE_ofNatLE, Nat.mod_eq_of_lt]
  exact hcap.trans_lt (by decide)

/-- **What is read is a payload that was passed**, if no longer one was opened since its length
was read. -/
lemma Framed.readBody (h : Framed f) {length : ℕ} (hsound : Sound dir f (.sized length))
    {buf : Bytes} (hread : readExact (f.content.getD []) 4 length = .ok buf) :
    buf ∈ f.passed := by
  obtain ⟨hne, hlength⟩ := hsound
  obtain ⟨-, -, hholds⟩ := h.resolve_left fun h => hne h.2
  -- a file without a payload yields one only if it is to be empty
  have hnone : length = 0 → [] ∈ f.passed := fun hzero => by
    obtain ⟨payload, hmem, hsize⟩ := exists_length_eq_size hne
    have hnil : payload = [] := List.length_eq_zero_iff.mp (by omega)
    exact hnil ▸ hmem
  by_cases hnil : f.content = some []
  · rw [hnil, Option.getD_some, readExact] at hread
    split_ifs at hread with hshort
    have hzero : length = 0 := by simpa using hshort
    rw [Except.ok.injEq] at hread
    rw [← hread]
    simpa [Bytes.slice] using hnone hzero
  obtain ⟨body, hbody, hold⟩ := hholds.exists_body hnil
  rw [hbody, Option.getD_some, readExact_body] at hread
  split_ifs at hread with hshort
  rw [Except.ok.injEq] at hread
  rw [← hread]
  rcases hold with ⟨rfl, -⟩ | ⟨-, hmem, hsize⟩
  · rw [List.take_nil]
    exact hnone (by simpa using hshort)
  · rwa [List.take_of_length_le (by omega)]

end

/-! ### Runs -/

/-- The task is a load. -/
def Loading : PersistTask → Prop
  | .call .load | .reading | .sized _ | .loaded _ => True
  | _ => False

/-- A load leaves the file as it is. -/
lemma Loading.move (dir : String) (f : PersistFile) {t : PersistTask} (h : Loading t) :
    ∃ t', f.move dir t = (f, t') ∧ Loading t' := by
  cases t with
  | call c =>
    cases c with
    | flush payload => exact h.elim
    | load =>
      simp only [PersistFile.move]
      split_ifs
      · exact ⟨_, rfl, trivial⟩
      · split <;> exact ⟨_, rfl, trivial⟩
  | opened payload | headed payload | flushed payload => exact h.elim
  | reading =>
    simp only [PersistFile.move]
    split
    · exact ⟨_, rfl, trivial⟩
    · split_ifs <;> exact ⟨_, rfl, trivial⟩
  | sized length => exact ⟨_, rfl, trivial⟩
  | loaded result => exact ⟨_, rfl, trivial⟩

/-- A load that is sound stays so when it moves. -/
lemma Sound.move_of_loading {dir : String} {f : PersistFile} {t : PersistTask}
    (hsound : Sound dir f t) (hframed : Framed f) (h : Loading t) :
    Sound dir f (f.move dir t).2 := by
  cases t with
  | call c =>
    cases c with
    | flush payload => exact h.elim
    | load =>
      simp only [PersistFile.move]
      split_ifs
      · trivial
      · split <;> trivial
  | opened payload | headed payload | flushed payload => exact h.elim
  | reading =>
    simp only [PersistFile.move]
    split
    · trivial
    · rename_i lenBuf hread
      obtain ⟨hne, hsize⟩ := hframed.readLength hread
      split_ifs
      · trivial
      · exact ⟨hne, hsize.ge⟩
  | sized length =>
    simp only [PersistFile.move]
    cases hread : readExact (f.content.getD []) 4 length with
    | error e => trivial
    | ok buf => exact hframed.readBody hsound hread
  | loaded result => exact hsound

/-- **While flushes stay apart**, the file holds a single payload at most, and every call has seen
it so. -/
lemma holds_run {dir : String} {calls : ℕ → PersistCall} {picks : List (Pick Unit Empty)}
    (hrun : Run.Each (program dir).step Apart (start calls) picks) :
    ((program dir).run (start calls) picks).Holds Framed (Sound dir) := by
  refine Program.each_holds (fun p i choice hp hapart => ?_) (fun _ e => e.elim) hrun
    ⟨.inl ⟨rfl, rfl⟩, fun _ => trivial⟩
  obtain ⟨hframed, hsound⟩ := hp
  have hself := hsound i
  have hload : Loading (p.task i) → Framed ((program dir).move choice p.shared (p.task i)).1 ∧
      Sound dir ((program dir).move choice p.shared (p.task i)).1
        ((program dir).move choice p.shared (p.task i)).2 ∧
      ∀ j ≠ i, Sound dir ((program dir).move choice p.shared (p.task i)).1 (p.task j) := by
    intro hloading
    obtain ⟨t', hmove, -⟩ := hloading.move dir p.shared
    have hnext := hself.move_of_loading hframed hloading
    rw [hmove] at hnext
    simp only [program, hmove]
    exact ⟨hframed, hnext, fun j _ => hsound j⟩
  cases ht : p.task i with
  | call c =>
    cases c with
    | load => exact ht ▸ hload (by rw [ht]; trivial)
    | flush payload =>
      obtain ⟨hcap, hundisturbed⟩ := hapart payload ht
      by_cases hdir : dir = ""
      · simp only [program, move, if_pos hdir]
        exact ⟨hframed, fun hne => absurd hdir hne, fun j _ => hsound j⟩
      · simp only [program, move, if_neg hdir]
        refine ⟨.inr ⟨by simp, by rwa [size_open], .truncated rfl rfl⟩, ?_,
          fun j _ => (hsound j).open (hundisturbed j)⟩
        exact ⟨by simp, (size_open ..).symm⟩
  | opened payload =>
    rw [ht] at hself
    obtain ⟨hmem, hsize⟩ := hself
    obtain ⟨hframed', hne⟩ := hframed.head hmem hsize
    exact ⟨hframed', ⟨hmem, hsize, hne⟩, fun j _ => (hsound j).congr rfl fun _ => hne⟩
  | headed payload =>
    rw [ht] at hself
    obtain ⟨hmem, hsize, hne⟩ := hself
    obtain ⟨hframed', hne'⟩ := hframed.write hmem hsize hne
    exact ⟨hframed', fun _ => hmem, fun j _ => (hsound j).congr rfl fun _ => hne'⟩
  | flushed payload =>
    rw [ht] at hself
    exact ⟨hframed, hself, fun j _ => hsound j⟩
  | reading | sized _ | loaded _ => exact ht ▸ hload (by rw [ht]; trivial)

/-- The task is a flush of `payload` that has begun. -/
def Passes (payload : Bytes) : PersistTask → Prop
  | .opened other | .headed other | .flushed other => other = payload
  | _ => False

/-- The task is a flush that is not done with the file. -/
def UnderWay : PersistTask → Prop
  | .opened _ | .headed _ => True
  | _ => False

section
variable {dir : String} {f : PersistFile} {t : PersistTask} {payload : Bytes}

lemma Passes.move (h : Passes payload t) : Passes payload (f.move dir t).2 := by
  cases t with
  | opened other | headed other | flushed other => exact h
  | call _ | reading | sized _ | loaded _ => exact h.elim

/-- What is passed is passed by a flush. -/
lemma mem_passed_move (h : payload ∈ (f.move dir t).1.passed) :
    payload ∈ f.passed ∨ Passes payload (f.move dir t).2 := by
  by_cases hload : Loading t
  · obtain ⟨t', hmove, -⟩ := hload.move dir f
    rw [hmove] at h
    exact .inl h
  cases t with
  | call c =>
    cases c with
    | load => exact absurd trivial hload
    | flush other =>
      by_cases hdir : dir = ""
      · rw [PersistFile.move, if_pos hdir] at h
        exact .inl h
      · rw [PersistFile.move, if_neg hdir] at h ⊢
        exact (List.mem_append.mp h).imp_right fun h => (List.mem_singleton.mp h).symm
  | opened other | headed other | flushed other => exact .inl h
  | reading | sized _ | loaded _ => exact absurd trivial hload

/-- Where a flush has opened the file and nothing is written, a flush is under way. -/
lemma underWay_move (hpassed : (f.move dir t).1.passed ≠ [])
    (hlatest : (f.move dir t).1.latest = []) :
    UnderWay (f.move dir t).2 ∨ f.passed ≠ [] ∧ f.latest = [] ∧ ¬ UnderWay t := by
  by_cases hload : Loading t
  · obtain ⟨t', hmove, -⟩ := hload.move dir f
    rw [hmove] at hpassed hlatest
    refine .inr ⟨hpassed, hlatest, fun h => ?_⟩
    cases t with
    | opened _ | headed _ => exact hload
    | call _ | flushed _ | reading | sized _ | loaded _ => exact h
  cases t with
  | call c =>
    cases c with
    | load => exact absurd trivial hload
    | flush other =>
      by_cases hdir : dir = ""
      · rw [PersistFile.move, if_pos hdir] at hpassed hlatest
        exact .inr ⟨hpassed, hlatest, id⟩
      · rw [PersistFile.move, if_neg hdir]
        exact .inl trivial
  | opened other => exact .inl trivial
  | headed other =>
    exact absurd hlatest (List.append_ne_nil_of_right_ne_nil _ (List.cons_ne_nil other []))
  | flushed other => exact .inr ⟨hpassed, hlatest, id⟩
  | reading | sized _ | loaded _ => exact absurd trivial hload

end

/-- What was passed was passed by a call that has begun. -/
lemma passes_run (dir : String) (calls : ℕ → PersistCall) (picks : List (Pick Unit Empty)) :
    let p := (program dir).run (start calls) picks
    ∀ payload ∈ p.shared.passed, ∃ i, Passes payload (p.task i) := by
  refine (program dir).run_of_step (J := fun p => ∀ payload ∈ p.shared.passed,
    ∃ i, Passes payload (p.task i)) (fun p pick h => ?_) (fun payload h => ?_) picks
  · cases pick with
    | env e => exact e.elim
    | task i choice =>
      intro payload hmem
      rcases mem_passed_move hmem with hold | hnew
      · exact (program dir).exists_task_step (h payload hold) Passes.move
      · exact ⟨i, by rw [Program.task_step_self]; exact hnew⟩
  · exact absurd h List.not_mem_nil

/-- When no flush is under way, the file that one has opened has been written since. -/
lemma latest_ne_nil_run (dir : String) (calls : ℕ → PersistCall)
    (picks : List (Pick Unit Empty)) :
    let p := (program dir).run (start calls) picks
    p.shared.passed ≠ [] → p.shared.latest = [] → ∃ i, UnderWay (p.task i) := by
  refine (program dir).run_of_step (J := fun p => p.shared.passed ≠ [] → p.shared.latest = [] →
    ∃ i, UnderWay (p.task i)) (fun p pick h => ?_) (fun h => absurd rfl h) picks
  cases pick with
  | env e => exact e.elim
  | task i choice =>
    intro hpassed hlatest
    rcases underWay_move hpassed hlatest with hnew | ⟨hpassed', hlatest', hdone⟩
    · exact ⟨i, by rw [Program.task_step_self]; exact hnew⟩
    · exact (program dir).exists_task_step (h hpassed' hlatest') fun h => absurd h hdone

/-- **Persisted payloads are not mixed while flushes stay apart.**  In every run in which each flush
opens the file where it disturbs no call, and passes a payload that can be read back, a load that
returns a payload returns one that was passed; and whenever the flushes that have begun are done,
a load returns a payload that was written after the last of them opened the file. -/
theorem load_of_apart (dir : String) (calls : ℕ → PersistCall) (picks : List (Pick Unit Empty))
    (hrun : Run.Each (program dir).step Apart (start calls) picks) :
    let p := (program dir).run (start calls) picks
    (∀ i payload, p.task i = .loaded (.ok (some payload)) → ∃ j, Passes payload (p.task j)) ∧
    (dir ≠ "" → (∀ i, ¬ UnderWay (p.task i)) → (∃ i payload, p.task i = .flushed payload) →
      ∃ payload ∈ p.shared.latest, (∃ j, p.task j = .flushed payload) ∧
        persistLoad dir p.shared.content = .ok (some payload)) := by
  intro p
  have hholds : p.Holds Framed (Sound dir) := holds_run hrun
  have hpasses := passes_run dir calls picks
  refine ⟨fun i payload hloaded => ?_, fun hdir hdone hflushed => ?_⟩
  · have hsound := hholds.2 i
    rw [hloaded] at hsound
    exact hpasses payload hsound
  obtain ⟨i, payload, hflushed⟩ := hflushed
  have hsound := hholds.2 i
  rw [hflushed] at hsound
  have hne : p.shared.passed ≠ [] := List.ne_nil_of_mem (hsound hdir)
  have hlatest : p.shared.latest ≠ [] := fun hnil => by
    obtain ⟨j, hj⟩ := latest_ne_nil_run dir calls picks hne hnil
    exact hdone j hj
  obtain ⟨-, hcap, hwhole⟩ := hholds.1.resolve_left fun h => hne h.2
  cases hwhole with
  | truncated _ hnil => exact absurd hnil hlatest
  | header _ hnil => exact absurd hnil hlatest
  | whole payload hmem hpassed hsize hcontent =>
    obtain ⟨j, hj⟩ := hpasses payload hpassed
    refine ⟨payload, hmem, ⟨j, ?_⟩, ?_⟩
    · have hj' := hdone j
      change Passes payload (p.task j) at hj
      generalize p.task j = t at hj hj'
      cases t with
      | opened _ | headed _ => exact absurd trivial hj'
      | flushed other => exact congrArg _ hj
      | call _ | reading | sized _ | loaded _ => exact hj.elim
    · rw [hcontent, ← hsize, ← persistFlush_eq hdir none payload,
        persistLoad_persistFlush hdir]
      exact hsize.trans_le hcap

/-- A flush, and loads. -/
def flushAndLoad : ℕ → PersistCall
  | 0 => .flush [1]
  | _ => .load

/-- A load that goes on while a flush does. -/
theorem load_of_apart_overlap :
    let picks := [0, 1, 0, 1, 0, 1].map fun i => Pick.task i ()
    ∃ payload ∈ ((program "d").run (start flushAndLoad) picks).shared.latest,
      (∃ j, ((program "d").run (start flushAndLoad) picks).task j = .flushed payload) ∧
        persistLoad "d" ((program "d").run (start flushAndLoad) picks).shared.content =
          .ok (some payload) := by
  intro picks
  have hrun : Run.Each (program "d").step Apart (start flushAndLoad) picks := by
    refine ⟨fun payload h => ⟨?_, fun j => trivial⟩, fun _ h => ?_, fun _ h => ?_, fun _ h => ?_,
      fun _ h => ?_, fun _ h => ?_, trivial⟩
    · obtain rfl : [1] = payload := by simpa [start, flushAndLoad] using h
      decide
    all_goals cases h
  have htask (i : ℕ) : ¬ UnderWay (((program "d").run (start flushAndLoad) picks).task i) := by
    rcases i with _ | _ | i
    · exact id
    · exact id
    · rw [Program.task_run_of_notMem _ fun choice => by simp [picks]]
      exact id
  exact (load_of_apart "d" flushAndLoad picks hrun).2 (by decide) htask ⟨0, [1], rfl⟩

/-- Two flushes, and loads. -/
def flushTwice : ℕ → PersistCall
  | 0 => .flush [1]
  | 1 => .flush [2, 3]
  | _ => .load

/-- **Two flushes that overlap leave a payload that nobody passed**: the length of the one, and the
beginning of the other. -/
theorem load_of_overlap :
    ¬ ∀ (dir : String) (calls : ℕ → PersistCall) (picks : List (Pick Unit Empty)),
      let p := (program dir).run (start calls) picks
      (∀ i payload, p.task i = .loaded (.ok (some payload)) → ∃ j, Passes payload (p.task j)) ∧
      (dir ≠ "" → (∀ i, ¬ UnderWay (p.task i)) → (∃ i payload, p.task i = .flushed payload) →
        ∃ payload ∈ p.shared.latest, (∃ j, p.task j = .flushed payload) ∧
          persistLoad dir p.shared.content = .ok (some payload)) := by
  intro h
  obtain ⟨hloaded, -⟩ :=
    h "d" flushTwice ([0, 1, 1, 0, 0, 1, 2, 2, 2].map fun i => Pick.task i ())
  obtain ⟨j, hj⟩ := hloaded 2 [2] (by decide +kernel)
  rcases j with _ | _ | _ | j
  · have hne : ([1] : Bytes) ≠ [2] := by decide
    exact hne hj
  · have hne : ([2, 3] : Bytes) ≠ [2] := by decide
    exact hne hj
  · exact hj
  · rw [Program.task_run_of_notMem _ fun choice => by simp] at hj
    exact hj

end PersistFile

end RustDds
