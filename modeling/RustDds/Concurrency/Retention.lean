import RustDds.Lib.Pool
import RustDds.Rtps.Exchange

/-!
# Concurrent writes and the history

A reliable writer may be written to by several tasks at once.  Each write draws its number in one
atomic step and stores its message in another, so messages may be stored in any order
(`RetentionTask`); nothing else that a write does concerns the history.

The history takes the first number it is given for the lowest that it has, and a slot of its ring
keeps what was stored there last, whatever the numbers are (`Logged`).  So the writes leave the
window that was promised exactly if the first of them is not above it and each of its slots was
given its last message last (`survives_iff_orderly`).
-/

namespace RustDds

namespace SendHistory

/-! ## Stores in any order -/

/-- What the slot `i` of the ring holds: the last message that was stored there. -/
def Slot (log : List (ℕ × Bytes)) (i : ℕ) (h : SendHistory) : Prop :=
  (∀ x ∈ log, x.1 % maxHistoryDepth ≠ i) ∧ h.msg i = none ∨
    ∃ earlier seq msg later, log = earlier ++ (seq, msg) :: later ∧ seq % maxHistoryDepth = i ∧
      (∀ x ∈ later, x.1 % maxHistoryDepth ≠ i) ∧ h.sn i = seq ∧ h.msg i = some msg

/-- The history after the stores of `log`. -/
structure Logged (log : List (ℕ × Bytes)) (h : SendHistory) : Prop where
  any_eq : h.any = !log.isEmpty
  le_highest : ∀ x ∈ log, x.1 ≤ h.highest
  highest_mem : log ≠ [] → ∃ x ∈ log, x.1 = h.highest
  lowest_eq : ∀ x ∈ log.head?, h.lowest = max x.1 (h.highest + 1 - maxHistoryDepth)
  slot : ∀ i, Slot log i h

variable {log : List (ℕ × Bytes)} {h : SendHistory} {seq n : ℕ} {msg : Bytes}

lemma logged_new : Logged [] new where
  any_eq := rfl
  le_highest := nofun
  highest_mem := fun hne => absurd rfl hne
  lowest_eq := nofun
  slot := fun _ => .inl ⟨nofun, rfl⟩

lemma Slot.store {i : ℕ} (hs : Slot log i h) : Slot (log ++ [(seq, msg)]) i (h.store seq msg) := by
  by_cases hi : seq % maxHistoryDepth = i
  · subst hi
    exact .inr ⟨log, seq, msg, [], rfl, rfl, nofun, Function.update_self ..,
      Function.update_self ..⟩
  have hsn : (h.store seq msg).sn i = h.sn i := Function.update_of_ne (Ne.symm hi) ..
  have hmsg : (h.store seq msg).msg i = h.msg i := Function.update_of_ne (Ne.symm hi) ..
  have hnew : ∀ x ∈ [(seq, msg)], x.1 % maxHistoryDepth ≠ i := by
    intro x hx
    rw [List.mem_singleton.mp hx]
    exact hi
  rcases hs with ⟨hnone, hempty⟩ | ⟨earlier, s, m, later, rfl, hs, hlater, hsn', hmsg'⟩
  · exact .inl ⟨List.forall_mem_append.mpr ⟨hnone, hnew⟩, hmsg.trans hempty⟩
  · refine .inr ⟨earlier, s, m, later ++ [(seq, msg)], by simp, hs,
      List.forall_mem_append.mpr ⟨hlater, hnew⟩, hsn.trans hsn', hmsg.trans hmsg'⟩

/-- **One more store.** -/
lemma Logged.store (hl : Logged log h) : Logged (log ++ [(seq, msg)]) (h.store seq msg) := by
  have hdepth : maxHistoryDepth = 256 := rfl
  cases log with
  | nil =>
    have hany : h.any = false := hl.any_eq
    have hhighest : (h.store seq msg).highest = seq := by
      simp [SendHistory.store, hany]
    refine ⟨rfl, ?_, fun _ => ⟨_, List.mem_singleton_self _, hhighest.symm⟩, ?_,
      fun i => (hl.slot i).store⟩
    · intro x hx
      rw [List.mem_singleton.mp hx, hhighest]
    · intro x hx
      obtain rfl : (seq, msg) = x := by simpa using hx
      rw [hhighest]
      simp only [SendHistory.store, hany, Bool.false_eq_true, if_false]
      split_ifs <;> omega
  | cons x xs =>
    have hany : h.any = true := hl.any_eq
    have hhighest : (h.store seq msg).highest = max h.highest seq := by
      simp only [SendHistory.store, hany, if_true]
      split_ifs <;> omega
    have hlowest := hl.lowest_eq x rfl
    obtain ⟨y, hy, hy'⟩ := hl.highest_mem (List.cons_ne_nil _ _)
    refine ⟨rfl, ?_, fun _ => ?_, ?_, fun i => (hl.slot i).store⟩
    · refine List.forall_mem_append.mpr ⟨fun z hz => ?_, fun z hz => ?_⟩
      · exact (hl.le_highest z hz).trans (hhighest ▸ le_max_left _ _)
      · rw [List.mem_singleton.mp hz, hhighest]
        exact le_max_right _ _
    · rw [hhighest]
      rcases le_total h.highest seq with hle | hle
      · exact ⟨_, List.mem_append_right _ (List.mem_singleton_self _), (max_eq_right hle).symm⟩
      · exact ⟨y, List.mem_append_left _ hy, hy'.trans (max_eq_left hle).symm⟩
    · intro z hz
      obtain rfl : x = z := by simpa using hz
      rw [hhighest]
      simp only [SendHistory.store, hany, hlowest, if_true]
      split_ifs <;> omega

/-! ## The window that is promised -/

/-- The lowest number that the history has after `n` writes. -/
def windowStart (n : ℕ) : ℕ := max 1 (n + 1 - maxHistoryDepth)

/-- After `n` writes, the last `maxHistoryDepth` of them are there. -/
def Survives (n : ℕ) (log : List (ℕ × Bytes)) (h : SendHistory) : Prop :=
  h.firstLast = some (windowStart n, n) ∧
    ∀ s, windowStart n ≤ s → s ≤ n → ∃ msg, (s, msg) ∈ log ∧ h.get s = some msg

/-- The first of the stores is not of a number above the window, and each number of the window is
stored after all smaller ones that share its slot. -/
def Orderly (n : ℕ) (order : List ℕ) : Prop :=
  (∃ first ∈ order.head?, first ≤ windowStart n) ∧
    ∀ s, windowStart n ≤ s → s ≤ n → ∀ s' ∈ order, s' < s →
      s' % maxHistoryDepth = s % maxHistoryDepth → order.idxOf s' < order.idxOf s

section
variable (hl : Logged log h) (hperm : (log.map Prod.fst).Perm (List.range' 1 n))
include hperm

lemma ne_nil_iff_of_perm : log ≠ [] ↔ n ≠ 0 := by
  have hlength := hperm.length_eq
  rw [List.length_map, List.length_range'] at hlength
  rw [Ne, ← List.length_eq_zero_iff, hlength]

include hl

lemma Logged.highest_eq (hne : log ≠ []) : h.highest = n := by
  have hmem : ∀ s, s ∈ log.map Prod.fst ↔ 1 ≤ s ∧ s < 1 + n := fun s =>
    hperm.mem_iff.trans List.mem_range'_1
  have hn : n ≠ 0 := (ne_nil_iff_of_perm hperm).mp hne
  obtain ⟨x, hx, hx'⟩ := hl.highest_mem hne
  have hle := (hmem x.1).mp (List.mem_map_of_mem hx)
  obtain ⟨y, hy, hy'⟩ := List.mem_map.mp ((hmem n).mpr ⟨by omega, by omega⟩)
  have hge := hl.le_highest y hy
  omega

/-- The bounds are right if the first number is not above the window. -/
lemma Logged.firstLast_iff : h.firstLast = some (windowStart n, n) ↔
    ∃ first ∈ (log.map Prod.fst).head?, first ≤ windowStart n := by
  cases log with
  | nil =>
    have hany : h.any = false := hl.any_eq
    simp [firstLast, hany]
  | cons x xs =>
    have hany : h.any = true := hl.any_eq
    have hhighest := hl.highest_eq hperm (List.cons_ne_nil _ _)
    have hn : n ≠ 0 := (ne_nil_iff_of_perm hperm).mp (List.cons_ne_nil _ _)
    have hfirst : x.1 ∈ List.range' 1 n := hperm.mem_iff.mp List.mem_cons_self
    have hfirst' := List.mem_range'_1.mp hfirst
    rw [firstLast, if_pos hany, hl.lowest_eq x rfl, hhighest]
    simp only [List.map_cons, List.head?_cons, Option.mem_some_iff, exists_eq_left',
      Option.some.injEq, Prod.mk.injEq, and_true, windowStart]
    omega

/-- Within the bounds, a number is answered if the smaller ones of its slot came before it. -/
lemma Logged.get_iff (hfl : h.firstLast = some (windowStart n, n)) {s : ℕ}
    (hs : windowStart n ≤ s) (hsn : s ≤ n) :
    (∃ msg, (s, msg) ∈ log ∧ h.get s = some msg) ↔
      ∀ s' ∈ log.map Prod.fst, s' < s → s' % maxHistoryDepth = s % maxHistoryDepth →
        (log.map Prod.fst).idxOf s' < (log.map Prod.fst).idxOf s := by
  have hdepth : maxHistoryDepth = 256 := rfl
  have hnodup : (log.map Prod.fst).Nodup := hperm.nodup_iff.mpr List.nodup_range'
  have hpos : 1 ≤ s := (le_max_left _ _).trans hs
  have hmem : s ∈ log.map Prod.fst :=
    hperm.mem_iff.mpr (List.mem_range'_1.mpr ⟨hpos, by omega⟩)
  have hget : h.get s = if h.sn (s % maxHistoryDepth) ≠ s then none
      else h.msg (s % maxHistoryDepth) := by
    rw [firstLast] at hfl
    split at hfl
    · rename_i hany
      obtain ⟨hlowest, hhighest⟩ := Prod.mk.inj (Option.some.inj hfl)
      rw [get, if_neg (by rw [hany]; simp; omega)]
    · cases hfl
  rcases hl.slot (s % maxHistoryDepth) with
    ⟨hnone, -⟩ | ⟨earlier, seq, msg, later, hlog, hslot, hlater, hsn', hmsg⟩
  · obtain ⟨x, hx, rfl⟩ := List.mem_map.mp hmem
    exact absurd rfl (hnone x hx)
  have horder : log.map Prod.fst = earlier.map Prod.fst ++ seq :: later.map Prod.fst := by
    rw [hlog, List.map_append, List.map_cons]
  have hlater' : ∀ s' ∈ later.map Prod.fst, s' % maxHistoryDepth ≠ s % maxHistoryDepth := by
    intro s' hx
    obtain ⟨x, hx', rfl⟩ := List.mem_map.mp hx
    exact hlater x hx'
  rw [horder] at hnodup hmem ⊢
  have hseq : seq ∉ earlier.map Prod.fst := fun hin =>
    (List.disjoint_of_nodup_append hnodup) hin List.mem_cons_self
  rw [hget, hsn', hmsg]
  constructor
  · rintro ⟨m, -, hm⟩ s' hs' hlt hslot'
    obtain rfl : seq = s := by
      by_contra hne
      rw [if_pos hne] at hm
      cases hm
    have hearlier : s' ∈ earlier.map Prod.fst := by
      rcases List.mem_append.mp hs' with hin | hin
      · exact hin
      · rcases List.mem_cons.mp hin with rfl | hin
        · exact absurd hlt (lt_irrefl _)
        · exact absurd hslot' (hlater' s' hin)
    rw [List.idxOf_append_of_mem hearlier, List.idxOf_append_of_notMem hseq,
      List.idxOf_cons_self]
    exact lt_of_lt_of_le (List.idxOf_lt_length_of_mem hearlier) (Nat.le_add_right ..)
  · intro hbefore
    have hseq_eq : seq = s := by
      by_contra hne
      -- then `s` was stored earlier, and `seq`, which is smaller, after it
      have hearlier : s ∈ earlier.map Prod.fst := by
        rcases List.mem_append.mp hmem with hin | hin
        · exact hin
        · rcases List.mem_cons.mp hin with rfl | hin
          · exact absurd rfl hne
          · exact absurd rfl (hlater' s hin)
      have hin : seq ∈ log.map Prod.fst := by
        rw [horder]
        exact List.mem_append_right _ List.mem_cons_self
      have hrange := List.mem_range'_1.mp (hperm.mem_iff.mp hin)
      have hstart : n + 1 - maxHistoryDepth ≤ s := (le_max_right _ _).trans hs
      have hlt : seq < s := by
        have hslot' := hslot
        rw [hdepth] at hslot' hstart
        omega
      have hidx := hbefore seq (List.mem_append_right _ List.mem_cons_self) hlt hslot
      rw [List.idxOf_append_of_mem hearlier, List.idxOf_append_of_notMem hseq,
        List.idxOf_cons_self] at hidx
      have := List.idxOf_lt_length_of_mem hearlier
      omega
    subst hseq_eq
    rw [if_neg (not_not.mpr rfl)]
    exact ⟨msg, hlog ▸ List.mem_append_right _ List.mem_cons_self, rfl⟩

/-- **What the order of the stores decides.** -/
lemma Logged.survives_iff : Survives n log h ↔ Orderly n (log.map Prod.fst) := by
  rw [Survives, Orderly, ← hl.firstLast_iff hperm]
  refine and_congr_right fun hfl => ?_
  exact forall_congr' fun s => forall_congr' fun hs => forall_congr' fun hsn =>
    hl.get_iff hperm hfl hs hsn

end

end SendHistory

/-! ## The writes -/

/-- A write of a payload, and how far it has got. -/
inductive RetentionTask
  | write (payload : Bytes)
  /-- The write has its number, and goes on to build its messages and to store the first. -/
  | store (seq : ℕ) (payload : Bytes)
  | done (seq : ℕ) (payload : Bytes)
  | panicked
  deriving DecidableEq

/-- What the writes on one reliable writer share. -/
structure RetentionState where
  /-- The last sequence number assigned. -/
  seq : ℕ
  history : SendHistory
  /-- The stores so far, in order. -/
  log : List (ℕ × Bytes)

namespace RetentionState

/-- A new writer. -/
def new : RetentionState := ⟨0, .new, []⟩

/-- One step of a write on the writer `eid`. -/
def move (header : Header) (eid : EntityId) (s : RetentionState) :
    RetentionTask → RetentionState × RetentionTask
  | .write payload =>
    let next := { s with seq := wrappingAdd 64 s.seq 1 }
    match checkedAdd 64 s.seq 1 with
    | .error _ => (next, .panicked)
    | .ok seq => (next, .store seq payload)
  | .store seq payload =>
    match wireMessages header eid seq payload with
    | .error _ => (s, .panicked)
    | .ok msgs =>
      match msgs.head? with
      | some first =>
        ({ s with history := s.history.store seq first, log := s.log ++ [(seq, first)] },
          .done seq payload)
      | none => (s, .done seq payload)
  | t => (s, t)

/-- The writes on the writer `eid`. -/
def program (header : Header) (eid : EntityId) :
    Program RetentionState RetentionTask Unit Empty where
  move _ := move header eid
  env := nofun

/-- The writes of some payloads, none of which has begun. -/
def writes (payload : ℕ → Bytes) : Pool RetentionState RetentionTask :=
  ⟨new, fun i => .write (payload i)⟩

/-- The writes that have begun are done. -/
def Completed (p : Pool RetentionState RetentionTask) : Prop :=
  ∀ i, (∃ payload, p.task i = .write payload) ∨ ∃ seq payload, p.task i = .done seq payload

/-- Some write did not get through. -/
def Panicked (p : Pool RetentionState RetentionTask) : Prop := ∃ i, p.task i = .panicked

/-- The numbers assigned are those of the writes under way and of the messages stored, each of
them once, and the stores are the history. -/
structure Accounted (header : Header) (eid : EntityId) (p : Pool RetentionState RetentionTask) :
    Prop where
  logged : SendHistory.Logged p.shared.log p.shared.history
  nodup : (p.shared.log.map Prod.fst).Nodup
  assigned : ∀ s, 1 ≤ s ∧ s ≤ p.shared.seq ↔
    s ∈ p.shared.log.map Prod.fst ∨ ∃ i payload, p.task i = .store s payload
  pending : ∀ i s payload, p.task i = .store s payload → s ∉ p.shared.log.map Prod.fst
  distinct : ∀ i j s payload payload', p.task i = .store s payload → p.task j = .store s payload' →
    i = j
  stored : ∀ s msg, (s, msg) ∈ p.shared.log → ∃ i payload, p.task i = .done s payload
  kept : ∀ i s payload, p.task i = .done s payload → ∃ msgs msg,
    wireMessages header eid s payload = .ok msgs ∧ msgs.head? = some msg ∧ (s, msg) ∈ p.shared.log

variable {header : Header} {eid : EntityId} {p : Pool RetentionState RetentionTask}

lemma accounted_writes (payload : ℕ → Bytes) : Accounted header eid (writes payload) where
  logged := SendHistory.logged_new
  nodup := List.nodup_nil
  assigned s := by
    simp only [writes, new, List.map_nil, List.not_mem_nil, reduceCtorEq, exists_false, or_false,
      iff_false, not_and, not_le]
    omega
  pending := nofun
  distinct := nofun
  stored := nofun
  kept := nofun

/-- A write that draws its number. -/
lemma Accounted.draw (h : Accounted header eid p) {i : ℕ} {payload : Bytes}
    (htask : p.task i = .write payload) :
    Accounted header eid ⟨{ p.shared with seq := p.shared.seq + 1 },
      Function.update p.task i (.store (p.shared.seq + 1) payload)⟩ := by
  have hkeep : ∀ {j t}, p.task j = t → t ≠ .write payload →
      Function.update p.task i (.store (p.shared.seq + 1) payload) j = t :=
    fun hj ht => Table.update_of_value_ne hj (htask ▸ ht.symm)
  have hnew : ∀ j s payload', Function.update p.task i (.store (p.shared.seq + 1) payload) j =
      .store s payload' → (j = i ∧ s = p.shared.seq + 1) ∨ p.task j = .store s payload' := by
    intro j s payload' hj
    rcases Table.update_eq.mp hj with ⟨rfl, heq⟩ | ⟨-, hj⟩
    · cases heq
      exact .inl ⟨rfl, rfl⟩
    · exact .inr hj
  have hfresh : ∀ j payload', p.task j ≠ .store (p.shared.seq + 1) payload' := by
    intro j payload' hj
    have := ((h.assigned _).mpr (.inr ⟨j, payload', hj⟩)).2
    omega
  refine ⟨h.logged, h.nodup, fun s => ?_, ?_, ?_, ?_, ?_⟩
  · constructor
    · rintro ⟨hpos, hle⟩
      rcases Nat.le_succ_iff.mp hle with hle | rfl
      · refine ((h.assigned s).mp ⟨hpos, hle⟩).imp_right ?_
        rintro ⟨j, payload', hj⟩
        exact ⟨j, payload', hkeep hj nofun⟩
      · exact .inr ⟨i, payload, Function.update_self ..⟩
    · rintro (hlog | ⟨j, payload', hj⟩)
      · have := (h.assigned s).mpr (.inl hlog)
        exact ⟨this.1, Nat.le_succ_of_le this.2⟩
      · rcases hnew j s payload' hj with ⟨-, rfl⟩ | hj
        · exact ⟨Nat.succ_pos _, le_rfl⟩
        · have := (h.assigned s).mpr (.inr ⟨j, payload', hj⟩)
          exact ⟨this.1, Nat.le_succ_of_le this.2⟩
  · intro j s payload' hj
    rcases hnew j s payload' hj with ⟨-, rfl⟩ | hj
    · intro hlog
      have := ((h.assigned _).mpr (.inl hlog)).2
      omega
    · exact h.pending j s payload' hj
  · intro j k s payload' payload'' hj hk
    rcases hnew j s payload' hj with ⟨hji, rfl⟩ | hj' <;>
      rcases hnew k _ payload'' hk with ⟨hki, hs⟩ | hk'
    · rw [hji, hki]
    · exact absurd hk' (hfresh k _)
    · exact absurd (hs ▸ hj') (hfresh j _)
    · exact h.distinct j k s _ _ hj' hk'
  · intro s msg hmem
    obtain ⟨j, payload', hj⟩ := h.stored s msg hmem
    exact ⟨j, payload', hkeep hj nofun⟩
  · intro j s payload' hj
    rcases Table.update_eq.mp hj with ⟨-, heq⟩ | ⟨-, hj⟩
    · cases heq
    · exact h.kept j s payload' hj

/-- A write that stores its message. -/
lemma Accounted.keep (h : Accounted header eid p) {i seq : ℕ} {payload first : Bytes}
    {msgs : List Bytes} (htask : p.task i = .store seq payload)
    (hmsgs : wireMessages header eid seq payload = .ok msgs) (hfirst : msgs.head? = some first) :
    Accounted header eid
      ⟨{ p.shared with
          history := p.shared.history.store seq first, log := p.shared.log ++ [(seq, first)] },
        Function.update p.task i (.done seq payload)⟩ := by
  have hkeys : (p.shared.log ++ [(seq, first)]).map Prod.fst = p.shared.log.map Prod.fst ++ [seq] :=
    List.map_append
  have hkeep : ∀ {j t}, p.task j = t → t ≠ .store seq payload →
      Function.update p.task i (.done seq payload) j = t :=
    fun hj ht => Table.update_of_value_ne hj (htask ▸ ht.symm)
  -- the writes still under way are the others
  have hnew : ∀ j s payload', Function.update p.task i (.done seq payload) j = .store s payload' →
      p.task j = .store s payload' ∧ s ≠ seq := by
    intro j s payload' hj
    rcases Table.update_eq.mp hj with ⟨-, heq⟩ | ⟨hji, hold⟩
    · cases heq
    · refine ⟨hold, ?_⟩
      rintro rfl
      exact hji (h.distinct j i s _ _ hold htask)
  refine ⟨h.logged.store, ?_, fun s => ?_, ?_, ?_, ?_, ?_⟩
  · show ((p.shared.log ++ [(seq, first)]).map Prod.fst).Nodup
    rw [hkeys]
    rw [← List.concat_eq_append]
    exact List.Nodup.concat (h.pending i seq payload htask) h.nodup
  · show 1 ≤ s ∧ s ≤ p.shared.seq ↔ s ∈ (p.shared.log ++ [(seq, first)]).map Prod.fst ∨ _
    rw [h.assigned s, hkeys, List.mem_append, List.mem_singleton]
    constructor
    · rintro (hlog | ⟨j, payload', hj⟩)
      · exact .inl (.inl hlog)
      · by_cases hs : s = seq
        · exact .inl (.inr hs)
        · refine .inr ⟨j, payload', hkeep hj fun heq => hs ?_⟩
          cases heq
          rfl
    · rintro ((hlog | rfl) | ⟨j, payload', hj⟩)
      · exact .inl hlog
      · exact .inr ⟨i, payload, htask⟩
      · exact .inr ⟨j, payload', (hnew j s payload' hj).1⟩
  · intro j s payload' hj
    obtain ⟨hj', hs⟩ := hnew j s payload' hj
    show s ∉ (p.shared.log ++ [(seq, first)]).map Prod.fst
    rw [hkeys, List.mem_append, List.mem_singleton]
    exact not_or_intro (h.pending j s payload' hj') hs
  · intro j k s payload' payload'' hj hk
    exact h.distinct j k s _ _ (hnew j s _ hj).1 (hnew k s _ hk).1
  · intro s msg hmem
    rcases List.mem_append.mp hmem with hold | hlast
    · obtain ⟨j, payload', hj⟩ := h.stored s msg hold
      exact ⟨j, payload', hkeep hj nofun⟩
    · cases List.mem_singleton.mp hlast
      exact ⟨i, payload, Function.update_self ..⟩
  · intro j s payload' hj
    rcases Table.update_eq.mp hj with ⟨-, heq⟩ | ⟨-, hj⟩
    · cases heq
      exact ⟨msgs, first, hmsgs, hfirst, List.mem_append_right _ (List.mem_singleton_self _)⟩
    · obtain ⟨msgs', msg, hmsgs', hmsg, hmem⟩ := h.kept j s payload' hj
      exact ⟨msgs', msg, hmsgs', hmsg, List.mem_append_left _ hmem⟩

/-- **The step.** -/
lemma accounted_step (p : Pool RetentionState RetentionTask) (pick : Pick Unit Empty)
    (h : Panicked p ∨ Accounted header eid p) :
    Panicked ((program header eid).step p pick) ∨
      Accounted header eid ((program header eid).step p pick) := by
  rcases pick with ⟨i, -⟩ | e
  swap
  · exact e.elim
  rcases h with hpanicked | h
  · refine .inl (Program.exists_task_step (Q := fun t => t = RetentionTask.panicked) _ hpanicked
      fun hi => ?_)
    rw [hi]
    rfl
  have hstep : ∀ s' t', move header eid p.shared (p.task i) = (s', t') →
      (program header eid).step p (.task i ()) = ⟨s', Function.update p.task i t'⟩ := by
    intro s' t' hmove
    show Pool.mk (move header eid p.shared (p.task i)).1
      (Function.update p.task i (move header eid p.shared (p.task i)).2) = _
    rw [hmove]
  have hpanics : ∀ s', move header eid p.shared (p.task i) = (s', .panicked) →
      Panicked ((program header eid).step p (.task i ())) := by
    intro s' hmove
    exact ⟨i, by rw [hstep _ _ hmove]; exact Function.update_self ..⟩
  cases htask : p.task i with
  | write payload =>
    by_cases hseq : p.shared.seq + 1 < 2 ^ 64
    · have hwrap : wrappingAdd 64 p.shared.seq 1 = p.shared.seq + 1 := Nat.mod_eq_of_lt hseq
      right
      rw [hstep _ _ (by rw [htask, move, checkedAdd_of_lt hseq, hwrap])]
      exact h.draw htask
    · exact .inl (hpanics _ (by rw [htask, move, checkedAdd_of_le (not_lt.mp hseq)]))
  | store seq payload =>
    cases hmsgs : wireMessages header eid seq payload with
    | error e => exact .inl (hpanics _ (by rw [htask, move, hmsgs]))
    | ok msgs =>
      obtain ⟨first, hfirst⟩ := Option.ne_none_iff_exists'.mp
        (mt List.head?_eq_none_iff.mp (wireMessages_ne_nil hmsgs))
      have hmove : move header eid p.shared (p.task i) = ({ p.shared with
          history := p.shared.history.store seq first, log := p.shared.log ++ [(seq, first)] },
          .done seq payload) := by
        rw [htask, move, hmsgs]
        dsimp only
        rw [hfirst]
      right
      rw [hstep _ _ hmove]
      exact h.keep htask hmsgs hfirst
  | done seq payload =>
    have hmove : move header eid p.shared (p.task i) = (p.shared, p.task i) := by
      rw [htask]
      rfl
    right
    rw [hstep _ _ hmove, Function.update_eq_self]
    exact h
  | panicked =>
    left
    exact hpanics p.shared (by rw [htask]; rfl)

/-- **The run.** -/
lemma Completed.accounted {payload : ℕ → Bytes} {picks : List (Pick Unit Empty)}
    (h : Completed ((program header eid).run (writes payload) picks)) :
    Accounted header eid ((program header eid).run (writes payload) picks) := by
  have hrun := (program header eid).run_of_step accounted_step
    (.inr (accounted_writes payload)) picks
  refine hrun.resolve_left ?_
  rintro ⟨i, hi⟩
  rcases h i with ⟨payload', hi'⟩ | ⟨seq, payload', hi'⟩ <;>
  · rw [hi'] at hi
    cases hi

/-- Once all writes are done, the numbers stored are those assigned. -/
lemma Accounted.perm (h : Accounted header eid p) (hdone : Completed p) :
    (p.shared.log.map Prod.fst).Perm (List.range' 1 p.shared.seq) := by
  refine (List.perm_ext_iff_of_nodup h.nodup List.nodup_range').mpr fun s => ?_
  rw [List.mem_range'_1]
  constructor
  · intro hs
    have := (h.assigned s).mpr (.inl hs)
    omega
  · intro hs
    refine ((h.assigned s).mp (by omega)).resolve_right ?_
    rintro ⟨i, payload, hi⟩
    rcases hdone i with ⟨payload', hi'⟩ | ⟨seq, payload', hi'⟩ <;>
    · rw [hi'] at hi
      cases hi

/-- The window of the last writes is there, each under the message of the write that drew its
number. -/
def Retained (header : Header) (eid : EntityId) (p : Pool RetentionState RetentionTask) : Prop :=
  p.shared.history.firstLast = some (SendHistory.windowStart p.shared.seq, p.shared.seq) ∧
    ∀ s, SendHistory.windowStart p.shared.seq ≤ s → s ≤ p.shared.seq →
      ∃ i payload msgs msg, p.task i = .done s payload ∧
        wireMessages header eid s payload = .ok msgs ∧ msgs.head? = some msg ∧
          p.shared.history.get s = some msg

/-- **The history after concurrent writes.** -/
theorem retained_iff_orderly {payload : ℕ → Bytes} {picks : List (Pick Unit Empty)}
    (h : Completed ((program header eid).run (writes payload) picks)) :
    Retained header eid ((program header eid).run (writes payload) picks) ↔
      SendHistory.Orderly ((program header eid).run (writes payload) picks).shared.seq
        (((program header eid).run (writes payload) picks).shared.log.map Prod.fst) := by
  have haccounted := h.accounted
  rw [← haccounted.logged.survives_iff (haccounted.perm h)]
  generalize (program header eid).run (writes payload) picks = p at *
  refine and_congr_right fun _ => forall_congr' fun s => forall_congr' fun _ =>
    forall_congr' fun _ => ⟨?_, ?_⟩
  · rintro ⟨i, payload', msgs, msg, hi, hmsgs, hhead, hget⟩
    obtain ⟨msgs', msg', hmsgs', hhead', hmem⟩ := haccounted.kept i s payload' hi
    rw [hmsgs, Except.ok.injEq] at hmsgs'
    subst hmsgs'
    rw [hhead, Option.some.injEq] at hhead'
    subst hhead'
    exact ⟨msg, hmem, hget⟩
  · rintro ⟨msg, hmem, hget⟩
    obtain ⟨i, payload', hi⟩ := haccounted.stored s msg hmem
    obtain ⟨msgs, msg', hmsgs, hhead, hmem'⟩ := haccounted.kept i s payload' hi
    -- no number is stored twice
    obtain rfl : msg = msg' :=
      congrArg Prod.snd (List.inj_on_of_nodup_map haccounted.nodup hmem hmem' rfl)
    exact ⟨i, payload', msgs, msg, hi, hmsgs, hhead, hget⟩

/-! ### Two writes -/

/-- The header of some participant. -/
def zeroHeader : Header := ⟨protocolVersion23, vendorIdRustDds, FixedBytes.zero 12⟩

/-- Writes 0 and 1, of empty payloads, by turns. -/
def twoWrites (turns : List (Fin 2)) : Pool RetentionState RetentionTask :=
  (program zeroHeader (entityIdForWriter 1)).run (writes fun _ => [])
    (turns.map fun i : Fin 2 => Pick.task i.val ())

lemma completed_twoWrites {turns : List (Fin 2)}
    (h : ∀ i : Fin 2, ∃ seq, (twoWrites turns).task i = .done seq []) :
    Completed (twoWrites turns) := by
  intro i
  by_cases hi : i < 2
  · obtain ⟨seq, hseq⟩ := h ⟨i, hi⟩
    exact .inr ⟨seq, [], hseq⟩
  · refine .inl ⟨[], Program.task_run_of_notMem _ fun _ hmem => hi ?_⟩
    obtain ⟨j, -, hj⟩ := List.mem_map.mp hmem
    rw [Pick.task.injEq] at hj
    exact hj.1 ▸ j.isLt

/-- Two writes that store in the order in which they were numbered. -/
theorem retained_twoWrites : Retained zeroHeader (entityIdForWriter 1)
    (twoWrites [0, 1, 0, 1]) := by
  have hdone : Completed (twoWrites [0, 1, 0, 1]) := by
    refine completed_twoWrites fun i => ⟨i + 1, ?_⟩
    revert i
    decide +kernel
  have horder : (twoWrites [0, 1, 0, 1]).shared.log.map Prod.fst = [1, 2] := by decide +kernel
  refine (retained_iff_orderly hdone).mpr ?_
  show SendHistory.Orderly (twoWrites [0, 1, 0, 1]).shared.seq
    ((twoWrites [0, 1, 0, 1]).shared.log.map Prod.fst)
  rw [horder]
  refine ⟨⟨1, rfl, le_max_left _ _⟩, fun s hs hle s' hs' hlt hslot => ?_⟩
  have hseq : (twoWrites [0, 1, 0, 1]).shared.seq = 2 := by decide +kernel
  rw [hseq] at hle
  rw [maxHistoryDepth] at hslot
  omega

/-- The second of two writes stores first. -/
theorem exists_not_retained :
    ¬ ∀ (header : Header) (eid : EntityId) (payload : ℕ → Bytes) (picks : List (Pick Unit Empty)),
      Completed ((program header eid).run (writes payload) picks) →
        Retained header eid ((program header eid).run (writes payload) picks) := by
  intro h
  have hdone : Completed (twoWrites [0, 1, 1, 0]) := by
    refine completed_twoWrites fun i => ⟨i + 1, ?_⟩
    revert i
    decide +kernel
  have hlost : (twoWrites [0, 1, 1, 0]).shared.history.firstLast = some (2, 2) := by
    decide +kernel
  obtain ⟨hkept, -⟩ : Retained zeroHeader (entityIdForWriter 1) (twoWrites [0, 1, 1, 0]) :=
    h _ _ _ _ hdone
  rw [hlost, Option.some.injEq, Prod.mk.injEq] at hkept
  exact absurd hkept (by decide +kernel)

end RetentionState

end RustDds
