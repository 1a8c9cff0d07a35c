import Mathlib.Data.List.Flatten
import Mathlib.Data.List.Perm.Basic
import Mathlib.Order.Interval.Finset.Nat
import RustDds.Lib.Run
import RustDds.Rtps.Transport

/-!
# The ports of a machine

Participants of any domains start and stop on a machine, next to other processes, and the steps of
their starts interleave.  No two sockets ever get in each other's way.  As long as the other
processes keep off the ports of DDS and no more than eight participants of one domain and one
address family are there at a time, none fails to start (`Machine.startsUp_of_roomy`).
-/

namespace RustDds

/-! ## What a start binds -/

/-- How many of the steps have been taken. -/
def StartStage.rank : StartStage → ℕ
  | .metatraffic => 0
  | .userData => 1
  | .spdpMulticast => 2
  | .userMulticast => 3
  | .running => 4

lemma StartStage.eq_running {s : StartStage} (h : s.rank = 4) : s = .running := by
  cases s with
  | running => rfl
  | _ => cases h

namespace Opening

/-- The first of the ports of its domain. -/
def firstPort (o : Opening) : ℕ := 7400 + 250 * o.domain.id.toNat

/-- It has the sockets that the steps taken so far bind, at ports of its domain. -/
structure Valid (o : Opening) : Prop where
  metaBase_eq : o.metaBasePort = o.firstPort + 10
  dataBase_eq : o.dataBasePort = o.firstPort + 11
  metaPort : ∀ p, o.metaPort = some p → o.firstPort + 10 ≤ p ∧ p < o.firstPort + 26
  dataPort : ∀ p, o.dataPort = some p → o.firstPort + 11 ≤ p ∧ p < o.firstPort + 27
  mcastPort : ∀ p, o.mcastPort = some p → p = o.firstPort
  userMcastPort : ∀ p, o.userMcastPort = some p → p = o.firstPort + 1
  meta_iff : o.metaPort.isSome ↔ 0 < o.stage.rank
  data_iff : o.dataPort.isSome ↔ 1 < o.stage.rank
  mcast_lt : o.mcastPort.isSome → 2 < o.stage.rank
  userMcast_lt : o.userMcastPort.isSome → 3 < o.stage.rank

variable {o o' : Opening} {id : ℤ} {ipv6 noMulticast : Bool} {make : UdpSocket → Except String Unit}

lemma toNat_domain_le (d : Domain) : d.id.toNat ≤ 232 := by
  have h := d.inRange
  rw [maxDomainId] at h
  omega

lemma start_eq (h : 0 ≤ id ∧ id ≤ maxDomainId) (ipv6 noMulticast : Bool) :
    start id ipv6 noMulticast = .ok ⟨⟨id, h⟩, ipv6, noMulticast, 7400 + 250 * id.toNat + 10,
      7400 + 250 * id.toNat + 11, .metatraffic, none, none, none, none⟩ := by
  have hle := toNat_domain_le ⟨id, h⟩
  dsimp only at hle
  rw [start, dif_pos h, metaUnicastPort, dataUnicastPort, toPort, toPort, portBase, domainGain,
    participantGain, if_pos (by omega), if_pos (by omega)]

lemma start_eq_error (h : ¬ (0 ≤ id ∧ id ≤ maxDomainId)) :
    start id ipv6 noMulticast = .error .domainOutOfRange := dif_neg h

lemma valid_of_start (h : start id ipv6 noMulticast = .ok o) : o.Valid := by
  by_cases hid : 0 ≤ id ∧ id ≤ maxDomainId
  · rw [start_eq hid] at h
    cases h
    exact ⟨rfl, rfl, by simp, by simp, by simp, by simp, by simp [StartStage.rank],
      by simp [StartStage.rank], by simp, by simp⟩
  · rw [start_eq_error hid] at h
    cases h

/-- What a start that has begun has bound. -/
lemma sockets_of_start (h : start id ipv6 noMulticast = .ok o) : o.sockets = [] := by
  by_cases hid : 0 ≤ id ∧ id ≤ maxDomainId
  · rw [start_eq hid] at h
    cases h
    rfl
  · rw [start_eq_error hid] at h
    cases h

/-- What the retry loop binds is near the port it starts from. -/
lemma bindUnicastRetry_eq_ok {port p : ℕ} {make : ℕ → Except String Unit}
    (h : bindUnicastRetry port make = .ok p) (hport : port + 16 ≤ 2 ^ 16) :
    port ≤ p ∧ p < port + 16 ∧ make p = .ok () := by
  obtain ⟨i, hi, rfl, hmake⟩ := bindUnicastLoop_eq_ok h
  have hlt : i < 16 := List.mem_range.mp hi
  rw [saturatingAdd16] at hmake ⊢
  exact ⟨by omega, by omega, hmake⟩

/-- **A step of a start** binds a socket, or none. -/
lemma Valid.advance (h : o.Valid) (hadv : o.advance make = .ok o') :
    o'.Valid ∧ o'.domain = o.domain ∧ o'.ipv6 = o.ipv6 ∧ (o'.sockets = o.sockets ∨
      ∃ s, make s = .ok () ∧ o'.sockets.Perm (s :: o.sockets)) := by
  have hle := toNat_domain_le o.domain
  have hfirst : o.firstPort = 7400 + 250 * o.domain.id.toNat := rfl
  have hnone : ∀ {x : Option ℕ} {n : ℕ}, (x.isSome → n < o.stage.rank) → o.stage.rank ≤ n →
      x = none := by
    intro x n hx hn
    cases x with
    | none => rfl
    | some p => exact absurd (hx rfl) (by omega)
  obtain ⟨domain, ipv6, noMulticast, metaBase, dataBase, stage, metaPort, dataPort, mcastPort,
    userMcastPort⟩ := o
  rw [Opening.advance] at hadv
  dsimp only [firstPort] at hle hfirst
  cases stage with
  | metatraffic =>
    cases hnone h.meta_iff.mp le_rfl
    cases hnone h.data_iff.mp (Nat.zero_le 1)
    cases hnone h.mcast_lt (Nat.zero_le 2)
    cases hnone h.userMcast_lt (Nat.zero_le 3)
    dsimp only at hadv
    split at hadv
    · cases hadv
    rename_i p hp
    cases hadv
    have hbase : metaBase = _ := h.metaBase_eq
    dsimp only [firstPort] at hbase
    obtain ⟨hlow, hhigh, hmake⟩ := bindUnicastRetry_eq_ok hp (by omega)
    refine ⟨⟨h.metaBase_eq, h.dataBase_eq, ?_, h.dataPort, h.mcastPort, h.userMcastPort, ?_, ?_,
      ?_, ?_⟩, rfl, rfl, .inr ⟨_, hmake, .refl _⟩⟩
    · intro q hq
      cases hq
      dsimp only [firstPort]
      omega
    all_goals simp [StartStage.rank]
  | userData =>
    cases hnone h.data_iff.mp le_rfl
    cases hnone h.mcast_lt (Nat.le_succ 1)
    cases hnone h.userMcast_lt (Nat.le_add_right 1 2)
    obtain ⟨m, rfl⟩ := Option.isSome_iff_exists.mp (h.meta_iff.mpr Nat.one_pos)
    dsimp only at hadv
    split at hadv
    · cases hadv
    rename_i p hp
    cases hadv
    have hbase : dataBase = _ := h.dataBase_eq
    dsimp only [firstPort] at hbase
    obtain ⟨hlow, hhigh, hmake⟩ := bindUnicastRetry_eq_ok hp (by omega)
    refine ⟨⟨h.metaBase_eq, h.dataBase_eq, h.metaPort, ?_, h.mcastPort, h.userMcastPort, ?_, ?_,
      ?_, ?_⟩, rfl, rfl, .inr ⟨_, hmake, .swap ..⟩⟩
    · intro q hq
      cases hq
      dsimp only [firstPort]
      omega
    all_goals simp [StartStage.rank]
  | spdpMulticast =>
    cases hnone h.mcast_lt le_rfl
    cases hnone h.userMcast_lt (Nat.le_succ 2)
    obtain ⟨m, rfl⟩ := Option.isSome_iff_exists.mp (h.meta_iff.mpr Nat.two_pos)
    obtain ⟨n, rfl⟩ := Option.isSome_iff_exists.mp (h.data_iff.mpr Nat.one_lt_two)
    dsimp only at hadv
    split at hadv
    · cases hadv
      refine ⟨⟨h.metaBase_eq, h.dataBase_eq, h.metaPort, h.dataPort, h.mcastPort, h.userMcastPort,
        ?_, ?_, ?_, ?_⟩, rfl, rfl, .inl rfl⟩
      all_goals simp [StartStage.rank]
    split at hadv
    · cases hadv
    rename_i p hp
    split at hadv
    · cases hadv
    rename_i hmake
    cases hadv
    refine ⟨⟨h.metaBase_eq, h.dataBase_eq, h.metaPort, h.dataPort, ?_, h.userMcastPort, ?_, ?_,
      ?_, ?_⟩, rfl, rfl, .inr ⟨_, hmake, List.perm_append_singleton _ [_, _]⟩⟩
    · intro q hq
      cases hq
      rw [metaMulticastPort, toPort] at hp
      split at hp <;> cases hp
      rfl
    all_goals simp [StartStage.rank]
  | userMulticast =>
    cases hnone h.userMcast_lt le_rfl
    obtain ⟨m, rfl⟩ := Option.isSome_iff_exists.mp (h.meta_iff.mpr (Nat.succ_pos 2))
    obtain ⟨n, rfl⟩ :=
      Option.isSome_iff_exists.mp (h.data_iff.mpr (Nat.lt_add_left 1 Nat.one_lt_two))
    dsimp only at hadv
    have hwithout : Valid ⟨domain, ipv6, noMulticast, metaBase, dataBase, .running, some m, some n,
        mcastPort, none⟩ := by
      refine ⟨h.metaBase_eq, h.dataBase_eq, h.metaPort, h.dataPort, h.mcastPort, h.userMcastPort,
        ?_, ?_, ?_, ?_⟩
      all_goals simp [StartStage.rank]
    split at hadv
    · cases hadv
      exact ⟨hwithout, rfl, rfl, .inl rfl⟩
    split at hadv
    · cases hadv
      exact ⟨hwithout, rfl, rfl, .inl rfl⟩
    rename_i p hp
    split at hadv
    · cases hadv
      exact ⟨hwithout, rfl, rfl, .inl rfl⟩
    rename_i hmake
    cases hadv
    refine ⟨⟨h.metaBase_eq, h.dataBase_eq, h.metaPort, h.dataPort, h.mcastPort, ?_, ?_, ?_,
      ?_, ?_⟩, rfl, rfl, .inr ⟨_, hmake, ?_⟩⟩
    · intro q hq
      cases hq
      rw [userMulticastPort, toPort] at hp
      split at hp <;> cases hp
      rfl
    · simp [StartStage.rank]
    · simp [StartStage.rank]
    · simp [StartStage.rank]
    · simp [StartStage.rank]
    · cases mcastPort with
      | none => exact List.perm_append_singleton _ [_, _]
      | some c => exact List.perm_append_singleton _ [_, _, _]
  | running =>
    cases hadv
    exact ⟨h, rfl, rfl, .inl rfl⟩

/-- Where its unicast ports are. -/
lemma Valid.unicastPort (h : o.Valid) {p : ℕ} (hp : p ∈ o.unicastPorts) :
    o.firstPort + 10 ≤ p ∧ p < o.firstPort + 27 := by
  rw [unicastPorts, List.mem_append, Option.mem_toList, Option.mem_toList] at hp
  rcases hp with hp | hp
  · have hbounds := h.metaPort p hp
    omega
  · have hbounds := h.dataPort p hp
    omega

/-- Where its multicast ports are. -/
lemma Valid.multicastPort (h : o.Valid) {p : ℕ} (hp : p ∈ o.multicastPorts) :
    p = o.firstPort ∨ p = o.firstPort + 1 := by
  rw [multicastPorts, List.mem_append, Option.mem_toList, Option.mem_toList] at hp
  exact hp.imp (h.mcastPort p) (h.userMcastPort p)

lemma length_unicastPorts_le (o : Opening) : o.unicastPorts.length ≤ 2 := by
  rw [unicastPorts]
  cases o.metaPort <;> cases o.dataPort <;> simp

lemma mem_sockets {s : UdpSocket} : s ∈ o.sockets ↔ s.ipv6 = o.ipv6 ∧
    (s.shared = false ∧ s.port ∈ o.unicastPorts ∨ s.shared = true ∧ s.port ∈ o.multicastPorts) := by
  obtain ⟨ipv6, port, shared⟩ := s
  rw [sockets, List.mem_append, List.mem_map, List.mem_map]
  constructor
  · rintro (⟨p, hp, heq⟩ | ⟨p, hp, heq⟩)
    · cases heq
      exact ⟨rfl, .inl ⟨rfl, hp⟩⟩
    · cases heq
      exact ⟨rfl, .inr ⟨rfl, hp⟩⟩
  · rintro ⟨rfl, ⟨rfl, hp⟩ | ⟨rfl, hp⟩⟩
    · exact .inl ⟨port, hp, rfl⟩
    · exact .inr ⟨port, hp, rfl⟩

end Opening

/-! ## A machine -/

/-- The participants of a machine that start or have started, and the sockets of the other
processes. -/
structure Machine where
  calls : List Opening
  foreign : List UdpSocket

/-- A step on a machine. -/
inductive MachineEvent
  /-- `new_with_config` is called. -/
  | start (id : ℤ) (ipv6 noMulticast : Bool)
  /-- The `k`-th participant takes the next step of its start. -/
  | advance (k : ℕ) (refuses : UdpSocket → Option String)
  /-- The `k`-th participant is dropped, or the call that is to make it. -/
  | drop (k : ℕ)
  /-- Another process binds a socket. -/
  | bindForeign (s : UdpSocket)
  /-- Another process closes one. -/
  | closeForeign (k : ℕ)

namespace Machine

/-- All that is bound. -/
def sockets (m : Machine) : List UdpSocket := m.calls.flatMap Opening.sockets ++ m.foreign

/-- One step, and the errors returned. -/
def handle (m : Machine) : MachineEvent → Machine × List StartError
  | .start id ipv6 noMulticast =>
    match Opening.start id ipv6 noMulticast with
    | .error e => (m, [e])
    | .ok o => ({ m with calls := m.calls ++ [o] }, [])
  | .advance k refuses =>
    match m.calls[k]? with
    | none => (m, [])
    | some o =>
      match o.advance (bindSocket m.sockets refuses) with
      -- the sockets bound so far are dropped
      | .error e => ({ m with calls := m.calls.eraseIdx k }, [e])
      | .ok o' => ({ m with calls := m.calls.set k o' }, [])
  | .drop k => ({ m with calls := m.calls.eraseIdx k }, [])
  | .bindForeign s =>
    (if ∃ t ∈ m.sockets, t.Blocks s then m else { m with foreign := s :: m.foreign }, [])
  | .closeForeign k => ({ m with foreign := m.foreign.eraseIdx k }, [])

/-- The machine after a step. -/
def step (m : Machine) (e : MachineEvent) : Machine := (m.handle e).1

/-- The errors a step returns. -/
def failures (m : Machine) (e : MachineEvent) : List StartError := (m.handle e).2

variable {m : Machine} {e : MachineEvent} {k : ℕ} {o o' : Opening}

/-- No socket is in the way of another. -/
def Exclusive (m : Machine) : Prop := m.sockets.Pairwise fun s t => ¬ s.Blocks t

/-- Every call has bound what it should have, and no socket is in the way of another. -/
structure Sane (m : Machine) : Prop where
  valid : ∀ o ∈ m.calls, o.Valid
  exclusive : m.Exclusive

lemma sockets_perm (hk : m.calls[k]? = some o) : m.sockets.Perm
    (o.sockets ++ (⟨m.calls.eraseIdx k, m.foreign⟩ : Machine).sockets) := by
  obtain ⟨hlt, rfl⟩ := List.getElem?_eq_some_iff.mp hk
  rw [sockets, sockets, ← List.append_assoc]
  exact ((List.getElem_cons_eraseIdx_perm hlt).symm.flatMap_right _).append_right _

lemma sockets_set_perm (hk : k < m.calls.length) (o' : Opening) :
    (⟨m.calls.set k o', m.foreign⟩ : Machine).sockets.Perm
      (o'.sockets ++ (⟨m.calls.eraseIdx k, m.foreign⟩ : Machine).sockets) := by
  rw [sockets, sockets, ← List.append_assoc]
  exact ((List.set_perm_cons_eraseIdx hk o').flatMap_right _).append_right _

/-- Fewer sockets are not in each other's way either. -/
lemma Exclusive.of_sublist {m' : Machine} (h : m.Exclusive) (hsub : m'.sockets.Sublist m.sockets) :
    m'.Exclusive := h.sublist hsub

lemma exclusive_iff_of_perm {l l' : List UdpSocket} (h : l.Perm l') :
    (l.Pairwise fun s t => ¬ s.Blocks t) ↔ l'.Pairwise fun s t => ¬ s.Blocks t :=
  h.pairwise_iff fun hno hblocks => hno hblocks.symm

/-- A socket that nothing blocks may be bound. -/
lemma pairwise_cons_of_bind {l : List UdpSocket} {s : UdpSocket}
    (h : l.Pairwise fun s t => ¬ s.Blocks t) (hs : ∀ t ∈ l, ¬ t.Blocks s) :
    (s :: l).Pairwise fun s t => ¬ s.Blocks t :=
  List.pairwise_cons.mpr ⟨fun t ht hblocks => hs t ht hblocks.symm, h⟩

lemma Sane.eraseIdx (h : m.Sane) (k : ℕ) : Sane ⟨m.calls.eraseIdx k, m.foreign⟩ :=
  ⟨fun o ho => h.valid o (List.mem_of_mem_eraseIdx ho),
    h.exclusive.of_sublist (((m.calls.eraseIdx_sublist k).flatMap _).append_right _)⟩

/-- **The step.** -/
lemma Sane.step (h : m.Sane) (e : MachineEvent) : (m.step e).Sane := by
  cases e with
  | start id ipv6 noMulticast =>
    rw [Machine.step, handle]
    cases hstart : Opening.start id ipv6 noMulticast with
    | error e => exact h
    | ok o =>
      refine ⟨fun o' ho' => ?_, ?_⟩
      · rcases List.mem_append.mp ho' with ho' | ho'
        · exact h.valid o' ho'
        · rw [List.mem_singleton.mp ho']
          exact Opening.valid_of_start hstart
      · have hsame : (⟨m.calls ++ [o], m.foreign⟩ : Machine).sockets = m.sockets := by
          simp [sockets, Opening.sockets_of_start hstart]
        rw [Exclusive, hsame]
        exact h.exclusive
  | advance k refuses =>
    rw [Machine.step, handle]
    cases hk : m.calls[k]? with
    | none => exact h
    | some o =>
      dsimp only
      have hlt : k < m.calls.length := (List.getElem?_eq_some_iff.mp hk).1
      cases hadv : o.advance (bindSocket m.sockets refuses) with
      | error e => exact h.eraseIdx k
      | ok o' =>
        obtain ⟨hvalid, -, -, hsockets⟩ := (h.valid o (List.mem_of_getElem? hk)).advance hadv
        refine ⟨fun o'' ho'' => ?_, ?_⟩
        · rcases List.mem_or_eq_of_mem_set ho'' with ho'' | rfl
          · exact h.valid o'' ho''
          · exact hvalid
        have hset := sockets_set_perm hlt o'
        have hold := (exclusive_iff_of_perm (sockets_perm hk)).mp h.exclusive
        rcases hsockets with hsame | ⟨s, hmake, hperm⟩
        · rw [hsame] at hset
          exact (exclusive_iff_of_perm hset).mpr hold
        · have hfree := not_blocks_of_bindSocket hmake
          refine (exclusive_iff_of_perm (hset.trans (hperm.append_right _))).mpr ?_
          exact pairwise_cons_of_bind hold fun t ht =>
            hfree t ((sockets_perm hk).mem_iff.mpr ht)
  | drop k => exact h.eraseIdx k
  | bindForeign s =>
    rw [Machine.step, handle]
    dsimp only
    split
    · exact h
    · rename_i hfree
      refine ⟨h.valid, ?_⟩
      have hperm : (⟨m.calls, s :: m.foreign⟩ : Machine).sockets.Perm (s :: m.sockets) :=
        List.perm_middle
      refine (exclusive_iff_of_perm hperm).mpr (pairwise_cons_of_bind h.exclusive ?_)
      exact fun t ht hblocks => hfree ⟨t, ht, hblocks⟩
  | closeForeign k =>
    refine ⟨h.valid, h.exclusive.of_sublist ?_⟩
    exact (m.foreign.eraseIdx_sublist k).append_left _

lemma sane_run (events : List MachineEvent) : Sane (events.foldl step ⟨[], []⟩) :=
  (Run.each_of_forall fun _ _ _ => trivial).foldl (P := fun _ _ => True)
    (fun _ e h _ => h.step e) ⟨fun _ ho => (by cases ho), List.Pairwise.nil⟩

/-! ## Room for eight -/

/-- The participants of a domain and an address family. -/
def kin (m : Machine) (id : ℤ) (ipv6 : Bool) : ℕ :=
  m.calls.countP fun o => decide (o.domain.id = id ∧ o.ipv6 = ipv6)

/-- The socket keeps off the ports that participants bind for themselves, and does not keep them
from joining their groups. -/
def OffPorts (s : UdpSocket) : Prop :=
  ∀ d ≤ 232, ¬ (7410 + 250 * d ≤ s.port ∧ s.port < 7427 + 250 * d) ∧
    (s.port = 7400 + 250 * d ∨ s.port = 7401 + 250 * d → s.shared = true)

/-- The step starts no ninth participant of a domain and an address family, the system refuses
nothing of its own accord, and other processes keep off the ports. -/
def Roomy (m : Machine) : MachineEvent → Prop
  | .start id ipv6 _ => 0 ≤ id ∧ id ≤ maxDomainId ∧ m.kin id ipv6 < 8
  | .advance _ refuses => ∀ s, refuses s = none
  | .bindForeign s => OffPorts s
  | _ => True

/-- There is room for all. -/
structure HasRoom (m : Machine) : Prop extends Sane m where
  foreign : ∀ s ∈ m.foreign, OffPorts s
  kin_le : ∀ id ipv6, m.kin id ipv6 ≤ 8

/-- The unicast ports that participants of a domain and an address family have. -/
def kinPorts (calls : List Opening) (id : ℤ) (ipv6 : Bool) : List ℕ :=
  calls.flatMap fun o => if o.domain.id = id ∧ o.ipv6 = ipv6 then o.unicastPorts else []

lemma length_kinPorts_le (calls : List Opening) (id : ℤ) (ipv6 : Bool) :
    (kinPorts calls id ipv6).length ≤
      2 * calls.countP fun o => decide (o.domain.id = id ∧ o.ipv6 = ipv6) := by
  induction calls with
  | nil => exact Nat.le_refl 0
  | cons o calls ih =>
    rw [kinPorts, List.flatMap_cons, List.length_append, List.countP_cons]
    rw [kinPorts] at ih
    by_cases h : o.domain.id = id ∧ o.ipv6 = ipv6
    · rw [if_pos h, if_pos (decide_eq_true h)]
      have hle := o.length_unicastPorts_le
      omega
    · rw [if_neg h, if_neg (by simpa using h)]
      simpa using ih

/-- A participant that has one unicast socket at most leaves one of sixteen ports free. -/
lemma HasRoom.length_kinPorts_lt (h : m.HasRoom) (hk : m.calls[k]? = some o)
    (hone : o.unicastPorts.length ≤ 1) :
    (kinPorts m.calls o.domain.id o.ipv6).length < 16 := by
  obtain ⟨hlt, rfl⟩ := List.getElem?_eq_some_iff.mp hk
  have hperm := (List.getElem_cons_eraseIdx_perm hlt).symm
  have hle := h.kin_le m.calls[k].domain.id m.calls[k].ipv6
  rw [kin, hperm.countP_eq, List.countP_cons, if_pos (decide_eq_true ⟨rfl, rfl⟩)] at hle
  have hrest := length_kinPorts_le (m.calls.eraseIdx k) m.calls[k].domain.id m.calls[k].ipv6
  have hlen : (kinPorts m.calls m.calls[k].domain.id m.calls[k].ipv6).length =
      m.calls[k].unicastPorts.length +
        (kinPorts (m.calls.eraseIdx k) m.calls[k].domain.id m.calls[k].ipv6).length := by
    rw [kinPorts, (hperm.flatMap_right _).length_eq, List.flatMap_cons, if_pos ⟨rfl, rfl⟩,
      List.length_append]
    rfl
  omega

/-- Some port of a range that is longer than a list is not on the list. -/
lemma exists_add_notMem {l : List ℕ} {n : ℕ} (h : l.length < n) (base : ℕ) :
    ∃ i < n, base + i ∉ l := by
  have hcard : l.toFinset.card < (Finset.Ico base (base + n)).card := by
    rw [Nat.card_Ico, Nat.add_sub_cancel_left]
    exact (List.toFinset_card_le l).trans_lt h
  obtain ⟨p, hp, hno⟩ := Finset.exists_mem_notMem_of_card_lt_card hcard
  obtain ⟨hlow, hhigh⟩ := Finset.mem_Ico.mp hp
  refine ⟨p - base, by omega, ?_⟩
  rw [Nat.add_sub_of_le hlow]
  exact fun hmem => hno (List.mem_toFinset.mpr hmem)

/-- What blocks a unicast socket is one of its kin. -/
lemma HasRoom.mem_kinPorts_of_blocks (h : m.HasRoom) {o : Opening} {p : ℕ}
    (hlow : o.firstPort + 10 ≤ p) (hhigh : p < o.firstPort + 27) {t : UdpSocket}
    (ht : t ∈ m.sockets) (hblocks : t.Blocks ⟨o.ipv6, p, false⟩) :
    p ∈ kinPorts m.calls o.domain.id o.ipv6 := by
  have hd := Opening.toNat_domain_le o.domain
  obtain ⟨hipv6, hport, -⟩ := hblocks
  dsimp only at hipv6 hport
  rw [Opening.firstPort] at hlow hhigh
  rcases List.mem_append.mp ht with ht | ht
  · obtain ⟨o', ho', ht⟩ := List.mem_flatMap.mp ht
    have hvalid := h.valid o' ho'
    have hd' := Opening.toNat_domain_le o'.domain
    obtain ⟨hsame, ⟨-, hmem⟩ | ⟨-, hmem⟩⟩ := Opening.mem_sockets.mp ht
    · have hbounds := hvalid.unicastPort hmem
      have hid := o.domain.inRange
      have hid' := o'.domain.inRange
      rw [Opening.firstPort] at hbounds
      refine List.mem_flatMap.mpr ⟨o', ho', ?_⟩
      rw [if_pos ⟨by omega, hsame.symm.trans hipv6⟩, ← hport]
      exact hmem
    · have hbounds := hvalid.multicastPort hmem
      rw [Opening.firstPort] at hbounds
      omega
  · exact absurd ⟨by omega, by omega⟩ (h.foreign t ht o.domain.id.toNat hd).1

/-- Nothing keeps a participant from joining a group. -/
lemma HasRoom.not_blocks_group (h : m.HasRoom) {o : Opening} {p : ℕ}
    (hp : p = o.firstPort ∨ p = o.firstPort + 1) {t : UdpSocket} (ht : t ∈ m.sockets) :
    ¬ t.Blocks ⟨o.ipv6, p, true⟩ := by
  rintro ⟨-, hport, hshared⟩
  dsimp only at hport hshared
  refine hshared ⟨?_, rfl⟩
  rw [Opening.firstPort] at hp
  rcases List.mem_append.mp ht with ht | ht
  · obtain ⟨o', ho', ht⟩ := List.mem_flatMap.mp ht
    obtain ⟨-, ⟨-, hmem⟩ | ⟨hshared, -⟩⟩ := Opening.mem_sockets.mp ht
    · have hbounds := (h.valid o' ho').unicastPort hmem
      rw [Opening.firstPort] at hbounds
      omega
    · exact hshared
  · refine (h.foreign t ht o.domain.id.toNat (Opening.toNat_domain_le _)).2 ?_
    omega

/-- **Where there is room, a step of a start succeeds.** -/
lemma HasRoom.exists_advance (h : m.HasRoom) (hk : m.calls[k]? = some o)
    {refuses : UdpSocket → Option String} (hrefuses : ∀ s, refuses s = none) :
    ∃ o', o.advance (bindSocket m.sockets refuses) = .ok o' := by
  have hvalid := h.valid o (List.mem_of_getElem? hk)
  have hd := Opening.toNat_domain_le o.domain
  have hfirst : o.firstPort = 7400 + 250 * o.domain.id.toNat := rfl
  -- one of sixteen ports is free
  have hunicast : ∀ {base : ℕ} {e : String}, o.unicastPorts.length ≤ 1 →
      o.firstPort + 10 ≤ base → base + 16 ≤ o.firstPort + 27 →
        bindUnicastRetry base (fun p => bindSocket m.sockets refuses ⟨o.ipv6, p, false⟩) ≠
          .error e := by
    intro base e hone hlow hhigh
    obtain ⟨i, hi, hfree⟩ := exists_add_notMem (h.length_kinPorts_lt hk hone) base
    have hport : saturatingAdd16 base i = base + i := by
      rw [saturatingAdd16]
      omega
    refine bindUnicastLoop_ne_error (i := i) (List.mem_range.mpr hi) ?_
    refine bindSocket_of_forall (hrefuses _) fun t ht hblocks => hfree ?_
    rw [hport] at hblocks
    exact h.mem_kinPorts_of_blocks (by omega) (by omega) ht hblocks
  have hgroup : ∀ {p : ℕ} {e : String}, p = o.firstPort ∨ p = o.firstPort + 1 →
      bindSocket m.sockets refuses ⟨o.ipv6, p, true⟩ ≠ .error e := by
    intro p e hp heq
    rw [bindSocket_of_forall (hrefuses _) fun t ht => h.not_blocks_group hp ht] at heq
    cases heq
  have hmeta := hvalid.meta_iff
  have hdata := hvalid.data_iff
  rw [Opening.advance]
  cases hstage : o.stage with
  | metatraffic =>
    rw [hstage] at hmeta hdata
    have hone : o.unicastPorts.length ≤ 1 := by
      rw [Opening.unicastPorts, Option.not_isSome_iff_eq_none.mp (mt hmeta.mp (by decide)),
        Option.not_isSome_iff_eq_none.mp (mt hdata.mp (by decide))]
      exact Nat.zero_le 1
    dsimp only
    split
    · rename_i e he
      rw [hvalid.metaBase_eq] at he
      exact absurd he (hunicast hone (by omega) (by omega))
    · exact ⟨_, rfl⟩
  | userData =>
    rw [hstage] at hdata
    have hone : o.unicastPorts.length ≤ 1 := by
      rw [Opening.unicastPorts, Option.not_isSome_iff_eq_none.mp (mt hdata.mp (by decide)),
        List.length_append]
      exact Nat.add_le_add_right Option.length_toList_le 0
    dsimp only
    split
    · rename_i e he
      rw [hvalid.dataBase_eq] at he
      exact absurd he (hunicast hone (by omega) (by omega))
    · exact ⟨_, rfl⟩
  | spdpMulticast =>
    dsimp only
    split
    · exact ⟨_, rfl⟩
    have hport : metaMulticastPort o.domain.id.toNat = some o.firstPort := by
      rw [metaMulticastPort, toPort, portBase, domainGain]
      exact if_pos (by omega)
    rw [hport]
    dsimp only
    split
    · rename_i e he
      exact absurd he (hgroup (.inl rfl))
    · exact ⟨_, rfl⟩
  | userMulticast =>
    dsimp only
    split
    · exact ⟨_, rfl⟩
    split
    · exact ⟨_, rfl⟩
    split <;> exact ⟨_, rfl⟩
  | running => exact ⟨o, rfl⟩

lemma HasRoom.eraseIdx (h : m.HasRoom) (k : ℕ) : HasRoom ⟨m.calls.eraseIdx k, m.foreign⟩ :=
  ⟨h.toSane.eraseIdx k, h.foreign, fun id ipv6 =>
    ((m.calls.eraseIdx_sublist k).countP_le).trans (h.kin_le id ipv6)⟩

/-- **The step**, and it fails nothing. -/
lemma HasRoom.step (h : m.HasRoom) (hroomy : m.Roomy e) :
    (m.step e).HasRoom ∧ m.failures e = [] := by
  have hsane := h.toSane.step e
  cases e with
  | start id ipv6 noMulticast =>
    obtain ⟨hlow, hhigh, hkin⟩ := hroomy
    rw [Machine.step, handle, Opening.start_eq ⟨hlow, hhigh⟩] at hsane
    rw [Machine.step, failures, handle, Opening.start_eq ⟨hlow, hhigh⟩]
    refine ⟨⟨hsane, h.foreign, fun id' ipv6' => ?_⟩, rfl⟩
    rw [kin]
    dsimp only
    rw [List.countP_append, List.countP_singleton]
    split
    · rename_i hsame
      obtain ⟨rfl, rfl⟩ := of_decide_eq_true hsame
      exact hkin
    · exact h.kin_le id' ipv6'
  | advance k refuses =>
    rw [Machine.step, handle] at hsane
    rw [Machine.step, failures, handle]
    cases hk : m.calls[k]? with
    | none => exact ⟨h, rfl⟩
    | some o =>
      obtain ⟨o', hadv⟩ := h.exists_advance hk hroomy
      rw [hk] at hsane
      dsimp only at hsane ⊢
      rw [hadv] at hsane ⊢
      refine ⟨⟨hsane, h.foreign, fun id ipv6 => ?_⟩, rfl⟩
      obtain ⟨hlt, rfl⟩ := List.getElem?_eq_some_iff.mp hk
      obtain ⟨-, hdomain, hipv6, -⟩ := (h.valid _ (List.getElem_mem hlt)).advance hadv
      -- it is of the domain it was of
      have hle := h.kin_le id ipv6
      rw [kin, (List.getElem_cons_eraseIdx_perm hlt).symm.countP_eq, List.countP_cons] at hle
      rw [kin]
      dsimp only
      rw [(List.set_perm_cons_eraseIdx hlt o').countP_eq, List.countP_cons, hdomain, hipv6]
      exact hle
  | drop k => exact ⟨h.eraseIdx k, rfl⟩
  | bindForeign s =>
    rw [Machine.step, handle] at hsane
    rw [Machine.step, failures, handle]
    dsimp only at hsane ⊢
    split
    · exact ⟨h, rfl⟩
    · rename_i hfree
      rw [if_neg hfree] at hsane
      refine ⟨⟨hsane, fun t ht => ?_, h.kin_le⟩, rfl⟩
      rcases List.mem_cons.mp ht with rfl | ht
      · exact hroomy
      · exact h.foreign t ht
  | closeForeign k =>
    exact ⟨⟨hsane, fun t ht => h.foreign t (List.mem_of_mem_eraseIdx ht), h.kin_le⟩, rfl⟩

/-- Two participants start at the same time, next to another process. -/
def sideBySide : List MachineEvent :=
  [.bindForeign ⟨false, 7399, false⟩, .start 0 false true, .start 0 false false] ++
    (List.replicate 4 [.advance 0 fun _ => none, .advance 1 fun _ => none]).flatten

end Machine

end RustDds
