import Mathlib.Data.List.Infix
import RustDds.Lib.Path

/-!
# The files of a topic

Where the samples of a topic lie on disk: `dataPath` is the rendezvous file of the shared memory
transport, below a directory for the domain, and `persistPath` the file in which the RTPS
transport keeps the last sample.  Both put the topic's name into the path with `/`, `\` and `:`
folded to `_`.

The folding keeps separators out of the name, but two topics may fold to one name, and the topic
`..` is not a name at all.  `pathsIsolated_iff` says that nothing else brings two topics or two
domains together.
-/

namespace RustDds

open PathBuf

/-- The largest domain whose ports fit. -/
def maxDomainId : ℤ := 232

/-- A domain that `validate_domain` accepts. -/
structure Domain where
  id : ℤ
  inRange : 0 ≤ id ∧ id ≤ maxDomainId

/-- What becomes of one character of a topic's name. -/
def foldChar (c : Char) : Char :=
  if c = '/' ∨ c = '\\' ∨ c = ':' then '_' else c

/-- The topic's name, as it goes into a path. -/
def safe (topic : String) : PathBuf := topic.toList.map foldChar

/-- The directory all rendezvous files lie under. -/
def rootDir (tempDir : PathBuf) : PathBuf := join tempDir "rust-dds-shmem".toList

/-- `format!("domain-\x7b\x7d", domain.0)`. -/
def domainName (domain : Domain) : PathBuf := ("domain-" ++ toString domain.id).toList

/-- The directory of one domain. -/
def domainDir (tempDir : PathBuf) (domain : Domain) : PathBuf :=
  join (rootDir tempDir) (domainName domain)

/-- The directory of one topic. -/
def topicDir (tempDir : PathBuf) (domain : Domain) (topic : String) : PathBuf :=
  join (domainDir tempDir domain) (safe topic)

/-- The rendezvous file of one topic. -/
def dataPath (tempDir : PathBuf) (domain : Domain) (topic : String) : PathBuf :=
  join (topicDir tempDir domain topic) "data.bin".toList

/-- The file of the last sample of one topic. -/
def persistPath (dir : PathBuf) (topic : String) : PathBuf :=
  join dir ("topic-".toList ++ safe topic ++ ".bin".toList)

/-! ## The names that go into the paths -/

lemma noSeparator_safe (topic : String) : '/' ∉ safe topic := by
  intro h
  obtain ⟨c, -, hc⟩ := List.mem_map.1 h
  rw [foldChar] at hc
  split at hc
  · exact absurd hc (by decide)
  · next hfold => exact hfold (Or.inl hc)

lemma safe_ne_nil {topic : String} (h : topic ≠ "") : safe topic ≠ [] := by
  simpa [safe] using h

/-- A dot is what a dot is folded to, and nothing else. -/
lemma foldChar_eq_dot {c : Char} : foldChar c = '.' ↔ c = '.' := by
  rw [foldChar]
  split
  · next h => rcases h with rfl | rfl | rfl <;> decide
  · rfl

/-- A name made of dots is the folding of itself only. -/
lemma safe_eq_dots {topic : String} {n : ℕ} :
    safe topic = List.replicate n '.' ↔ topic.toList = List.replicate n '.' := by
  simp [safe, List.eq_replicate_iff, foldChar_eq_dot]

lemma safe_eq_dotdot {topic : String} : safe topic = ['.', '.'] ↔ topic = ".." := by
  rw [← String.toList_inj]
  exact @safe_eq_dots topic 2

lemma safe_eq_dot {topic : String} : safe topic = ['.'] ↔ topic = "." := by
  rw [← String.toList_inj]
  exact @safe_eq_dots topic 1

lemma isName_rootName : IsName "rust-dds-shmem".toList := by
  constructor <;> decide

lemma isName_dataName : IsName "data.bin".toList := by
  constructor <;> decide

lemma isName_persistName (topic : String) :
    IsName ("topic-".toList ++ safe topic ++ ".bin".toList) where
  ne_nil := by simp
  noSeparator := by simp [noSeparator_safe]
  ne_dot := by simp
  ne_dotdot := by simp

/-- The digits of a domain. -/
lemma toList_domainName (domain : Domain) :
    domainName domain = "domain-".toList ++ Nat.toDigits 10 domain.id.toNat := by
  obtain ⟨n, hn⟩ := Int.eq_ofNat_of_zero_le domain.inRange.1
  rw [domainName, hn]
  simp [toString, Int.repr]

lemma isName_domainName (domain : Domain) : IsName (domainName domain) := by
  rw [toList_domainName]
  refine ⟨by simp, ?_, by simp, by simp⟩
  rw [List.mem_append, not_or]
  refine ⟨by decide, fun h => ?_⟩
  exact absurd (Nat.isDigit_of_mem_toDigits (by decide) (by decide) h) (by decide)

/-- Two domains have one name only if they are the same. -/
lemma domainName_inj {d d' : Domain} : domainName d = domainName d' ↔ d = d' := by
  constructor
  · intro h
    rw [toList_domainName, toList_domainName, List.append_cancel_left_eq] at h
    have hnat : d.id.toNat = d'.id.toNat := by
      rw [← @Nat.ofDigitChars_ten_toDigits d.id.toNat, h, Nat.ofDigitChars_ten_toDigits]
    cases d with | mk id hid => cases d' with | mk id' hid' =>
    have hid : id = id' := by
      have := hid.1
      have := hid'.1
      simp only at hnat
      omega
    subst hid
    rfl
  · rintro rfl
    rfl

/-! ## Where the paths lead -/

lemma isAbsolute_domainDir (tempDir : PathBuf) (d : Domain) :
    isAbsolute (domainDir tempDir d) = isAbsolute tempDir := by
  rw [domainDir, isAbsolute_join_name (isName_domainName d), rootDir,
    isAbsolute_join_name isName_rootName]

lemma stack_domainDir (tempDir : PathBuf) (d : Domain) :
    stack (domainDir tempDir d) = domainName d :: "rust-dds-shmem".toList :: stack tempDir := by
  rw [domainDir, stack_join_name (isName_domainName d), rootDir, stack_join_name isName_rootName]

lemma isAbsolute_dataPath (tempDir : PathBuf) (d : Domain) (t : String) :
    isAbsolute (dataPath tempDir d t) = isAbsolute tempDir := by
  rw [dataPath, isAbsolute_join_name isName_dataName, topicDir,
    isAbsolute_join (isAbsolute_of_noSeparator (noSeparator_safe t)), isAbsolute_domainDir]

lemma stack_dataPath (tempDir : PathBuf) (d : Domain) {t : String} (ht : t ≠ "") :
    stack (dataPath tempDir d t) =
      "data.bin".toList :: push (isAbsolute tempDir) (stack (domainDir tempDir d)) (safe t) := by
  rw [dataPath, stack_join_name isName_dataName, topicDir,
    stack_join_part (noSeparator_safe t) (safe_ne_nil ht), isAbsolute_domainDir]

/-- The topic `..` leads out of its domain. -/
lemma stack_dataPath_dotdot (tempDir : PathBuf) (d : Domain) :
    stack (dataPath tempDir d "..") =
      "data.bin".toList :: "rust-dds-shmem".toList :: stack tempDir := by
  have hname : domainName d ≠ ['.', '.'] := (isName_domainName d).ne_dotdot
  rw [stack_dataPath tempDir d (by decide), safe_eq_dotdot.2 rfl, stack_domainDir]
  simp [push, hname]

/-- The names a topic other than `..` adds to those of its domain: `.` adds only the file's. -/
def below (t : String) : List PathBuf :=
  if t = "." then ["data.bin".toList] else ["data.bin".toList, safe t]

lemma below_ne_nil (t : String) : below t ≠ [] := by
  rw [below]
  split <;> simp

lemma safe_eq_of_below_eq {t t' : String} (h : below t = below t') : safe t = safe t' := by
  rw [below, below] at h
  split at h <;> split at h <;> simp_all

lemma stack_dataPath_of_ne (tempDir : PathBuf) (d : Domain) {t : String} (ht : t ≠ "")
    (hdots : t ≠ "..") :
    stack (dataPath tempDir d t) = below t ++ stack (domainDir tempDir d) := by
  have hsafe : safe t ≠ ['.', '.'] := mt safe_eq_dotdot.1 hdots
  rw [stack_dataPath tempDir d ht, below]
  by_cases hdot : t = "."
  · rw [safe_eq_dot.2 hdot, if_pos hdot]
    rfl
  · simp [push, mt safe_eq_dot.1 hdot, hsafe, hdot]

/-! ## Isolation -/

/-- Two topics, each in a domain, do not meet on disk: their rendezvous files are different and
each lies in the directory of its own domain, and in every directory their last samples are kept
in different files. -/
structure PathsIsolated (tempDir : PathBuf) (d : Domain) (t : String) (d' : Domain)
    (t' : String) : Prop where
  data_ne : resolve (dataPath tempDir d t) ≠ resolve (dataPath tempDir d' t')
  inside : StrictlyInside (domainDir tempDir d) (dataPath tempDir d t)
  inside' : StrictlyInside (domainDir tempDir d') (dataPath tempDir d' t')
  persist_ne : t ≠ t' → ∀ dir, resolve (persistPath dir t) ≠ resolve (persistPath dir t')

lemma resolve_persistPath_inj {dir : PathBuf} {t t' : String} :
    resolve (persistPath dir t) = resolve (persistPath dir t') ↔ safe t = safe t' := by
  rw [persistPath, persistPath,
    resolve_join_name_inj (isName_persistName t) (isName_persistName t')]
  simp

lemma strictlyInside_dataPath (tempDir : PathBuf) (d : Domain) {t : String} (ht : t ≠ "") :
    StrictlyInside (domainDir tempDir d) (dataPath tempDir d t) ↔ t ≠ ".." := by
  constructor
  · rintro hinside rfl
    have hlt := hinside.length_lt
    rw [stack_dataPath_dotdot, stack_domainDir] at hlt
    simp at hlt
  · intro hdots
    exact strictlyInside_of_stack (by rw [isAbsolute_dataPath, isAbsolute_domainDir])
      (below_ne_nil t) (stack_dataPath_of_ne tempDir d ht hdots)

/-- Away from `..`, two rendezvous files are one only for one domain and one folded name. -/
lemma domain_and_safe_eq_of_resolve_eq {tempDir : PathBuf} {d d' : Domain} {t t' : String}
    (ht : t ≠ "") (ht' : t' ≠ "") (hdots : t ≠ "..") (hdots' : t' ≠ "..")
    (h : resolve (dataPath tempDir d t) = resolve (dataPath tempDir d' t')) :
    d = d' ∧ safe t = safe t' := by
  have hstack : stack (dataPath tempDir d t) = stack (dataPath tempDir d' t') :=
    List.reverse_injective (congrArg Prod.snd h)
  rw [stack_dataPath_of_ne tempDir d ht hdots, stack_dataPath_of_ne tempDir d' ht' hdots'] at hstack
  have hlen : (stack (domainDir tempDir d)).length = (stack (domainDir tempDir d')).length := by
    simp [stack_domainDir]
  obtain ⟨hbelow, hdomain⟩ := List.append_inj' hstack hlen
  rw [stack_domainDir, stack_domainDir, List.cons.injEq, domainName_inj] at hdomain
  exact ⟨hdomain.1, safe_eq_of_below_eq hbelow⟩

/-- **Two topics meet on disk only through the folding or the topic `..`.** -/
theorem pathsIsolated_iff (tempDir : PathBuf) (d d' : Domain) (t t' : String) (ht : t ≠ "")
    (ht' : t' ≠ "") (hne : (d, t) ≠ (d', t')) :
    PathsIsolated tempDir d t d' t' ↔
      t ≠ ".." ∧ t' ≠ ".." ∧ (t ≠ t' → safe t ≠ safe t') := by
  constructor
  · intro h
    refine ⟨(strictlyInside_dataPath tempDir d ht).1 h.inside,
      (strictlyInside_dataPath tempDir d' ht').1 h.inside', fun hne' hsafe => ?_⟩
    exact h.persist_ne hne' [] (resolve_persistPath_inj.2 hsafe)
  · rintro ⟨hdots, hdots', hsafe⟩
    refine ⟨fun hpath => ?_, (strictlyInside_dataPath tempDir d ht).2 hdots,
      (strictlyInside_dataPath tempDir d' ht').2 hdots', fun hne' dir hpersist => ?_⟩
    · obtain ⟨hd, hfold⟩ := domain_and_safe_eq_of_resolve_eq ht ht' hdots hdots' hpath
      have htopic : t = t' := not_not.1 fun h => hsafe h hfold
      exact hne (by rw [hd, htopic])
    · exact hsafe hne' (resolve_persistPath_inj.1 hpersist)

/-- Two topics of two domains that keep apart. -/
theorem pathsIsolated_sensors :
    PathsIsolated "/tmp".toList ⟨0, by decide⟩ "sensors/imu" ⟨7, by decide⟩ "sensors.imu" :=
  (pathsIsolated_iff _ _ _ _ _ (by decide) (by decide) (by simp)).2
    ⟨by decide, by decide, fun _ => by decide⟩

/-- `a/b` and `a_b` are one file, and `..` is outside its domain. -/
theorem not_pathsIsolated_folded :
    "a/b" ≠ "a_b" ∧
      ¬ PathsIsolated "/tmp".toList ⟨0, by decide⟩ "a/b" ⟨0, by decide⟩ "a_b" ∧
      ¬ PathsIsolated "/tmp".toList ⟨0, by decide⟩ ".." ⟨1, by decide⟩ "a" := by
  refine ⟨by decide, fun h => h.data_ne (by decide), fun h => ?_⟩
  have hlt := h.inside.length_lt
  revert hlt
  decide

end RustDds
