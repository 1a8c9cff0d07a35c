import RustDds.Security.GlobMatch

/-!
# Access rules

A policy is a list of rules, each a pattern for topics and the permissions it grants on them.  The
first rule whose pattern matches decides; a rule whose pattern is malformed is skipped, and where no
rule matches nothing is granted.

`AccessPolicy.allows_ascii` says what that comes to for ASCII topics.  The matcher never goes back
on where a star has stopped, so "matches" is `PatternMatchesLeftmost` there.  A leftmost match is a
match, and of patterns in which no class between two stars admits both a separator and another byte
every match is leftmost.  `not_decision_by_matches` is a pattern with such a class.
-/

namespace RustDds

/-! ## Rules -/

/-- A set of operations, as a bit field. -/
structure Permission where
  bits : UInt8
  deriving DecidableEq

namespace Permission

def READ : Permission := ⟨(1 : UInt8) <<< 0⟩
def WRITE : Permission := ⟨(1 : UInt8) <<< 1⟩
def READ_WRITE : Permission := ⟨READ.bits ||| WRITE.bits⟩

/-- Whether the sets have an operation in common. -/
def contains (self other : Permission) : Bool := self.bits &&& other.bits != 0

end Permission

structure Rule where
  pattern : String
  allow : Permission

structure AccessPolicy where
  rules : List Rule

namespace AccessPolicy

/-- Whether the first rule that matches the topic grants the permission. -/
def allows (self : AccessPolicy) (topic : String) (perm : Permission) : Except GlobStop Bool :=
  go self.rules
where
  go : List Rule → Except GlobStop Bool
  | [] => .ok false
  | rule :: rules =>
    match globMatch (Utf8.encode rule.pattern) (Utf8.encode topic) with
    | .ok true => .ok (rule.allow.contains perm)
    | .ok false => go rules
    | .error .badPattern => go rules
    | .error stop => .error stop

def canRead (self : AccessPolicy) (topic : String) : Except GlobStop Bool :=
  self.allows topic .READ

def canWrite (self : AccessPolicy) (topic : String) : Except GlobStop Bool :=
  self.allows topic .WRITE

end AccessPolicy

/-! ## Decisions -/

/-- `str::is_ascii`. -/
def isAscii (s : String) : Bool := (Utf8.encode s).all (· < 0x80)

/-- The rule is well formed and its pattern matches the topic. -/
def Rule.Matches (self : Rule) (topic : String) : Prop :=
  PatternMatches (Utf8.encode self.pattern) (Utf8.encode topic)

/-- The same with leftmost stars. -/
def Rule.MatchesLeftmost (self : Rule) (topic : String) : Prop :=
  PatternMatchesLeftmost (Utf8.encode self.pattern) (Utf8.encode topic)

open Classical in
/-- Whether the first rule that applies grants the permission. -/
noncomputable def AccessPolicy.decision (self : AccessPolicy) (applies : Rule → Prop)
    (perm : Permission) : Bool :=
  ((self.rules.find? (fun rule => decide (applies rule))).map (·.allow.contains perm)).getD false

namespace AccessPolicy

lemma decision_cons_of_applies {applies : Rule → Prop} {rule : Rule} (h : applies rule)
    (rules : List Rule) (perm : Permission) :
    (AccessPolicy.mk (rule :: rules)).decision applies perm = rule.allow.contains perm := by
  rw [decision, List.find?_cons_of_pos (by simpa using h)]
  rfl

lemma decision_cons_of_not {applies : Rule → Prop} {rule : Rule} (h : ¬ applies rule)
    (rules : List Rule) (perm : Permission) :
    (AccessPolicy.mk (rule :: rules)).decision applies perm =
      (AccessPolicy.mk rules).decision applies perm := by
  rw [decision, List.find?_cons_of_neg (by simpa using h)]
  rfl

/-- **The walk over the rules** stops at the first that applies. -/
lemma allows_eq_decision (self : AccessPolicy) {topic : String} (hascii : isAscii topic = true)
    (hbounded : ∀ rule ∈ self.rules, Bounded (Utf8.encode rule.pattern)) (perm : Permission) :
    self.allows topic perm = .ok (self.decision (·.MatchesLeftmost topic) perm) := by
  have hname : ∀ b ∈ Utf8.encode topic, b < 0x80 := by simpa [isAscii] using hascii
  obtain ⟨rules⟩ := self
  rw [allows]
  induction rules with
  | nil => rfl
  | cons rule rules ih =>
    obtain ⟨hrule, hrules⟩ := List.forall_mem_cons.mp hbounded
    rw [allows.go]
    by_cases hmatch : rule.MatchesLeftmost topic
    · rw [globMatch_of_leftmost hrule hname hmatch, decision_cons_of_applies hmatch]
    · rw [decision_cons_of_not hmatch]
      rcases globMatch_of_not_leftmost hrule hname hmatch with hno | hbad
      · rw [hno]
        exact ih hrules
      · rw [hbad]
        exact ih hrules

/-- **Access decisions.**  On an ASCII topic, the first rule that matches leftmost decides.  That is
a match, and every match is one if no class between two stars admits a separator and another
byte. -/
theorem allows_ascii (self : AccessPolicy) (topic : String) (hascii : isAscii topic = true)
    (hbounded : ∀ rule ∈ self.rules, Bounded (Utf8.encode rule.pattern)) :
    (∀ perm, self.allows topic perm = .ok (self.decision (·.MatchesLeftmost topic) perm)) ∧
    self.canRead topic = .ok (self.decision (·.MatchesLeftmost topic) .READ) ∧
    self.canWrite topic = .ok (self.decision (·.MatchesLeftmost topic) .WRITE) ∧
    ∀ rule : Rule, (rule.MatchesLeftmost topic → rule.Matches topic) ∧
      (Unmixed (Utf8.encode rule.pattern) → rule.Matches topic → rule.MatchesLeftmost topic) := by
  have hallows := self.allows_eq_decision hascii hbounded
  refine ⟨hallows, hallows .READ, hallows .WRITE, fun rule => ⟨?_, ?_⟩⟩
  · exact PatternMatchesLeftmost.matches
  · exact fun hunmixed hmatches => hmatches.leftmost hunmixed

/-- A rule for all topics of a directory. -/
theorem allows_ascii_directory :
    (AccessPolicy.mk [⟨"vehicle/*", .READ⟩]).canRead "vehicle/speed" =
      .ok ((AccessPolicy.mk [⟨"vehicle/*", .READ⟩]).decision
        (·.MatchesLeftmost "vehicle/speed") .READ) := by
  refine (allows_ascii ⟨[⟨"vehicle/*", .READ⟩]⟩ "vehicle/speed" (by decide +kernel) ?_).2.1
  exact List.forall_mem_singleton.mpr (bounded_of_length (by decide +kernel))

/-- `*[^a]*` matches `x/`: the class takes the separator. -/
lemma matches_negated_class : Rule.Matches ⟨"*[^a]*", .WRITE⟩ "x/" := by
  have hchunk : IsChunk [openBracket, caret, 0x61, closeBracket] [classAdmits true [('a', 'a')]] :=
    .cons (.negative (.cons (.single (.plain (Utf8.decode_ascii (by decide)) (by decide) (by decide)
      (by decide))) .nil) (List.cons_ne_nil _ _)) .nil
  refine ⟨[], [[classAdmits true [('a', 'a')]], []], Utf8.encode "x/", ?_, rfl, ?_⟩
  · exact .star .nil (.star hchunk (.last .nil))
  · show Glob.Matches notSlash _ ([0x78] ++ [slash])
    have hstar : Glob.Matches notSlash [[]] ([] ++ []) := .cons nofun rfl .nil
    exact .cons (List.forall_mem_singleton.mpr rfl) rfl hstar

/-- **A match that is not found.**  The first rule of the policy matches the topic and grants no
reading, but the code lets the second decide: its first star stops before the `x`. -/
theorem not_decision_by_matches :
    ¬ ∀ (policy : AccessPolicy) (topic : String), isAscii topic = true →
      policy.canRead topic = .ok (policy.decision (·.Matches topic) .READ) := by
  intro h
  have hread := h ⟨[⟨"*[^a]*", .WRITE⟩, ⟨"x/", .READ⟩]⟩ "x/" (by decide +kernel)
  rw [decision_cons_of_applies matches_negated_class] at hread
  revert hread
  decide +kernel

end AccessPolicy

end RustDds
